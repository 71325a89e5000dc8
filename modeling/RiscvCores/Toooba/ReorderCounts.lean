import RiscvCores.Lib.Banked
import RiscvCores.Toooba.ReorderBuffer

/-!
# The numbers of the live rows

The rows of the reorder buffer are numbered as they are enqueued and dealt out
to the ways in turn.  The invariant gives the numbers of the oldest row and of
the next one; all registers are those numbers reduced to ways, pointers and
times.
-/

set_option autoImplicit false

namespace Toooba.ReorderBuffer

open Banked

variable {c : RobCfg}

/-! ## Pointers -/

theorem getNextPtr_eq (p : c.SingleScalarPtr) : getNextPtr p = p + Fin.ofNat _ 1 := by
  have inside := p.isLt
  apply Fin.ext
  rw [Fin.val_add, Fin.val_ofNat, Nat.add_mod_mod]
  unfold getNextPtr
  split
  next last =>
    rw [show p.val + 1 = c.singleScalarSize by omega, Nat.mod_self]
    rfl
  next more => exact (Nat.mod_eq_of_lt (by omega)).symm

theorem decrPtr_add (p : c.SingleScalarPtr) {len : Nat} (small : len ≤ c.singleScalarSize) :
    decrPtr p len + Fin.ofNat _ len = p := by
  have inside := p.isLt
  apply Fin.ext
  unfold decrPtr
  split
  next wraps =>
    simp only [Fin.val_add, Fin.val_ofNat, Nat.mod_add_mod, Nat.add_mod_mod]
    rw [show p.val + c.singleScalarSize - len + len = p.val + c.singleScalarSize by omega,
      Nat.add_mod_right, Nat.mod_eq_of_lt inside]
  next stays =>
    simp only [Fin.val_add, Fin.val_ofNat, Nat.mod_add_mod, Nat.add_mod_mod]
    rw [show p.val - len + len = p.val by omega, Nat.mod_eq_of_lt inside]

/-- The distance from a row to the enqueue pointer of its way. -/
theorem killDistToEnqP_eq {s : State c} {tag : InstTag c} {dist : Nat} (some : 0 < dist)
    (small : dist ≤ c.singleScalarSize) (enqP : s.enqP tag.way = tag.ptr + Fin.ofNat _ dist) :
    killDistToEnqP s tag = dist := by
  have inside := tag.ptr.isLt
  have value : (s.enqP tag.way).val = (tag.ptr.val + dist) % c.singleScalarSize := by
    rw [enqP, Fin.val_add, Fin.val_ofNat, Nat.add_mod_mod]
  simp only [killDistToEnqP, Fin.lt_def, value]
  rcases Nat.lt_or_ge (tag.ptr.val + dist) c.singleScalarSize with straight | wrapped
  · rw [Nat.mod_eq_of_lt straight, if_pos (by omega)]
    omega
  · rw [Nat.mod_eq_sub_mod wrapped, Nat.mod_eq_of_lt (by omega), if_neg (by omega)]
    omega

/-- The slots have times of their own. -/
theorem slots_le_times (c : RobCfg) :
    c.supSize * c.singleScalarSize ≤ 2 ^ tLog c.numInstTags := by
  have times := le_pow_tLog c.numInstTags
  have some := c.supSize_pos
  obtain ⟨rounds, share⟩ : c.supSize ∣ 2 ^ tLog c.numInstTags :=
    Nat.pow_dvd_pow 2 c.instTime
  rw [share] at times ⊢
  refine Nat.mul_le_mul_left _ ?_
  refine Nat.lt_succ_iff.mp ((Nat.div_lt_iff_lt_mul some).mpr ?_)
  rw [Nat.succ_mul, Nat.mul_comm rounds]
  omega

/-! ## The invariant -/

/-- The tag of the row with number `g`. -/
def tagOf (g : Nat) : InstTag c where
  way := wayOf c.supSize g
  ptr := ptrOf c.supSize c.singleScalarSize g
  t := Fin.ofNat _ g

/-- The live rows have the numbers from `d` to before `d + n`. -/
structure Counts (s : State c) (d n : Nat) : Prop where
  deqWay : s.firstDeqWay = wayOf c.supSize d
  deqPtr : Aligned s.deqP d
  deqTime : s.deqTime = Fin.ofNat _ d
  enqWay : s.firstEnqWay = wayOf c.supSize (d + n)
  enqPtr : Aligned s.enqP (d + n)
  enqTime : s.enqTime = Fin.ofNat _ (d + n)
  bound : n ≤ c.supSize * c.singleScalarSize
  live : ∀ w p, s.valid w p = true ↔ ∃ j, j < n ∧ w = wayOf c.supSize (d + j) ∧
    p = ptrOf c.supSize c.singleScalarSize (d + j)

/-- The rows with `n` numbers from `d` on. -/
def numbered (row : c.SupWaySel → c.SingleScalarPtr → ToReorderBuffer c) (d n : Nat) :
    List (InstTag c × ToReorderBuffer c) :=
  (List.range n).map fun j => (tagOf (d + j), row (tagOf (c := c) (d + j)).way
    (tagOf (c := c) (d + j)).ptr)

theorem counts_reset (row : c.SupWaySel → c.SingleScalarPtr → ToReorderBuffer c) :
    Counts (reset row) 0 0 where
  deqWay := rfl
  deqPtr r inside := by
    apply Fin.ext
    simp [reset, ptrOf, Nat.div_eq_of_lt inside]
  deqTime := rfl
  enqWay := rfl
  enqPtr r inside := by
    apply Fin.ext
    simp [reset, ptrOf, Nat.div_eq_of_lt inside]
  enqTime := rfl
  bound := Nat.zero_le _
  live w p := by simp [reset]

theorem supSize_le_slots (c : RobCfg) : c.supSize ≤ c.supSize * c.singleScalarSize :=
  Nat.le_mul_of_pos_right _ c.singleScalarSize_pos

theorem ofNat_time_add (a b : Nat) :
    (Fin.ofNat _ a : c.InstTime) + Fin.ofNat _ b = Fin.ofNat _ (a + b) := by
  apply Fin.ext
  simp [Fin.val_add]

theorem port_eq (port : c.SupWaySel) : Fin.ofNat c.supSize port.val = port := by
  apply Fin.ext
  simp

section Counts

variable {s : State c} {d n : Nat}

theorem Counts.tagAt (counts : Counts s d n) (age : Nat) : tagAt s age = tagOf (d + age) := by
  have some := c.supSize_pos
  have way : s.firstDeqWay + Fin.ofNat c.supSize age = wayOf c.supSize (d + age) := by
    rw [counts.deqWay, wayOf_add]
  have split : d + age = d + age % c.supSize + c.supSize * (age / c.supSize) := by
    rw [Nat.add_assoc, Nat.mod_add_div]
  have ptr : s.deqP (wayOf c.supSize (d + age)) + Fin.ofNat _ (age / c.supSize) =
      ptrOf c.supSize c.singleScalarSize (d + age) := by
    rw [split, wayOf_turn, counts.deqPtr _ (Nat.mod_lt age some), ptrOf_turn]
  simp only [ReorderBuffer.tagAt, tagOf, way, ptr, counts.deqTime, ofNat_time_add]

theorem Counts.valid_tagOf (counts : Counts s d n) {age : Nat}
    (inside : age < c.supSize * c.singleScalarSize) :
    s.valid (tagOf (c := c) (d + age)).way (tagOf (c := c) (d + age)).ptr = true ↔ age < n := by
  have bound := counts.bound
  rw [counts.live]
  constructor
  · rintro ⟨j, below, way, ptr⟩
    rcases Nat.le_total age j with le | le
    · have same := place_inj (by omega) (by omega) way ptr
      omega
    · have same := place_inj (by omega) (by omega) way.symm ptr.symm
      omega
  · exact fun below => ⟨age, below, rfl, rfl⟩

theorem takeWhile_range {p : Nat → Bool} {total count : Nat} (le : count ≤ total)
    (holds : ∀ k, k < total → (p k = true ↔ k < count)) :
    (List.range total).takeWhile p = List.range count := by
  obtain ⟨rest, rfl⟩ := Nat.exists_eq_add_of_le le
  have first : ∀ k ∈ List.range count, p k = true := fun k inside =>
    (holds k (by rw [List.mem_range] at inside; omega)).mpr (List.mem_range.mp inside)
  rw [List.range_add, List.takeWhile_append_of_pos first]
  cases rest with
  | zero => simp
  | succ rest =>
      have stop : ¬ p count = true := by
        rw [holds count (by omega)]
        omega
      simp [List.range_succ_eq_map, stop]

theorem Counts.rowsOf (counts : Counts s d n) : rowsOf s = numbered s.row d n := by
  have live := takeWhile_range (p := fun age =>
    s.valid (ReorderBuffer.tagAt s age).way (ReorderBuffer.tagAt s age).ptr) counts.bound
    fun age inside => by
      rw [counts.tagAt age]
      exact counts.valid_tagOf inside
  unfold ReorderBuffer.rowsOf numbered
  rw [live]
  refine List.map_congr_left fun age _ => ?_
  rw [counts.tagAt age]
  rfl

/-! ## Ports -/

theorem Counts.getDeqInstTag (counts : Counts s d n) (port : c.SupWaySel) :
    getDeqInstTag s port = tagOf (d + port.val) := by
  have way : s.firstDeqWay + port = wayOf c.supSize (d + port.val) := by
    rw [counts.deqWay, wayOf_add d, port_eq]
  simp only [ReorderBuffer.getDeqInstTag, getDeqFifoWay, tagOf, way,
    counts.deqPtr _ port.isLt, counts.deqTime, ofNat_time_add]

theorem Counts.getEnqInstTag (counts : Counts s d n) (port : c.SupWaySel) :
    getEnqInstTag s port = tagOf (d + n + port.val) := by
  have way : s.firstEnqWay + port = wayOf c.supSize (d + n + port.val) := by
    rw [counts.enqWay, wayOf_add (d + n), port_eq]
  simp only [ReorderBuffer.getEnqInstTag, getEnqFifoWay, tagOf, way,
    counts.enqPtr _ port.isLt, counts.enqTime, ofNat_time_add]

theorem Counts.canDeq_iff (counts : Counts s d n) (port : c.SupWaySel) :
    canDeq s port = true ↔ port.val < n := by
  have inside := port.isLt
  have slots := supSize_le_slots c
  have tag := counts.getDeqInstTag port
  change s.valid (ReorderBuffer.getDeqInstTag s port).way
    (ReorderBuffer.getDeqInstTag s port).ptr = true ↔ _
  rw [tag]
  exact counts.valid_tagOf (by omega)

theorem Counts.deqData (counts : Counts s d n) (port : c.SupWaySel) :
    deqData s port = s.row (tagOf (c := c) (d + port.val)).way
      (tagOf (c := c) (d + port.val)).ptr := by
  rw [← counts.getDeqInstTag port]
  rfl

theorem tagOf_round (g : Nat) :
    (tagOf (c := c) (g + c.supSize * c.singleScalarSize)).way = (tagOf (c := c) g).way ∧
      (tagOf (c := c) (g + c.supSize * c.singleScalarSize)).ptr = (tagOf (c := c) g).ptr := by
  refine ⟨wayOf_turn g _, (ptrOf_turn g _).trans ?_⟩
  apply Fin.ext
  simp [tagOf]

/-- A port can enqueue when enough slots are free. -/
theorem Counts.canEnq_iff (counts : Counts s d n) (port : c.SupWaySel) :
    canEnq s port = true ↔ n + port.val < c.supSize * c.singleScalarSize := by
  have inside := port.isLt
  have slots := supSize_le_slots c
  have bound := counts.bound
  have slot : canEnq s port = !s.valid (tagOf (c := c) (d + n + port.val)).way
      (tagOf (c := c) (d + n + port.val)).ptr := by
    rw [← counts.getEnqInstTag port]
    rfl
  rw [slot, Bool.not_eq_true', ← Bool.not_eq_true]
  rcases Nat.lt_or_ge (n + port.val) (c.supSize * c.singleScalarSize) with room | full
  · rw [Nat.add_assoc, counts.valid_tagOf room]
    omega
  · obtain ⟨early, split⟩ : ∃ early, n + port.val = early + c.supSize * c.singleScalarSize :=
      ⟨n + port.val - c.supSize * c.singleScalarSize, by omega⟩
    have round := tagOf_round (c := c) (d + early)
    rw [Nat.add_assoc, split, ← Nat.add_assoc, round.1, round.2,
      counts.valid_tagOf (by omega)]
    omega

/-! ## Dequeues -/

section Cycle

variable {i : Input c}

theorem getDeqPort_eq (counts : Counts s d n) {r : Nat} (inside : r < c.supSize) :
    getDeqPort s (wayOf c.supSize (d + r)) = ⟨r, inside⟩ := by
  rw [getDeqPort, counts.deqWay, wayOf_add_sub]
  exact Fin.ext (Nat.mod_eq_of_lt inside)

theorem getEnqPort_eq (counts : Counts s d n) {r : Nat} (inside : r < c.supSize) :
    getEnqPort s (wayOf c.supSize (d + n + r)) = ⟨r, inside⟩ := by
  rw [getEnqPort, counts.enqWay, wayOf_add_sub]
  exact Fin.ext (Nat.mod_eq_of_lt inside)

theorem Counts.deqs_le (counts : Counts s d n) (env : Environment s i) :
    firstIdle i.deq ≤ n := by
  have ports := firstIdle_le i.deq
  by_contra more
  have last : firstIdle i.deq - 1 < c.supSize := by omega
  have deqs := (env.deqs ⟨firstIdle i.deq - 1, last⟩).mpr (by dsimp only; omega)
  have few := (counts.canDeq_iff _).mp (env.canDeq _ deqs)
  dsimp only at few
  omega

/-- A way dequeues the slot of a row when the row is one of the oldest. -/
theorem Counts.leaves_iff (counts : Counts s d n) (env : Environment s i) {j : Nat}
    (live : j < n) :
    (i.deq (getDeqPort s (wayOf c.supSize (d + j))) = true ∧
      ptrOf c.supSize c.singleScalarSize (d + j) = s.deqP (wayOf c.supSize (d + j))) ↔
      j < firstIdle i.deq := by
  have bound := counts.bound
  have ports := firstIdle_le i.deq
  have slots := supSize_le_slots c
  constructor
  · rintro ⟨deqs, ptr⟩
    obtain ⟨r, inside, way⟩ := exists_turn d (wayOf c.supSize (d + j))
    rw [← way, getDeqPort_eq counts inside, env.deqs] at deqs
    rw [← way, counts.deqPtr r inside] at ptr
    rcases Nat.le_total j r with le | le
    · have same := place_inj (by omega) (by omega) way.symm ptr
      dsimp only at deqs
      omega
    · have same := place_inj (by omega) (by omega) way ptr.symm
      dsimp only at deqs
      omega
  · intro early
    have inside : j < c.supSize := by omega
    rw [getDeqPort_eq counts inside, env.deqs, counts.deqPtr j inside]
    exact ⟨early, rfl⟩

theorem Counts.canonDeq (counts : Counts s d n) (env : Environment s i) :
    Counts (canonDeq s i) (d + firstIdle i.deq) (n - firstIdle i.deq) := by
  have few := counts.deqs_le env
  have whole : d + firstIdle i.deq + (n - firstIdle i.deq) = d + n := by omega
  refine ⟨?_, ?_, ?_, ?_, ?_, ?_, ?_, ?_⟩
  · simp only [ReorderBuffer.canonDeq, counts.deqWay, wayOf_add]
  · refine counts.deqPtr.advance (firstIdle_le i.deq) fun r inside => ?_
    have used := env.deqs ⟨r, inside⟩
    dsimp only at used
    simp only [ReorderBuffer.canonDeq, getDeqPort_eq counts inside, used, getNextPtr_eq]
  · simp only [ReorderBuffer.canonDeq, counts.deqTime, ofNat_time_add]
  · rw [whole]
    exact counts.enqWay
  · rw [whole]
    exact counts.enqPtr
  · rw [whole]
    exact counts.enqTime
  · have bound := counts.bound
    omega
  · intro w p
    simp only [ReorderBuffer.canonDeq]
    constructor
    · intro kept
      split at kept
      · simp at kept
      next stays =>
        obtain ⟨j, live, rfl, rfl⟩ := (counts.live w p).mp kept
        have late : ¬ j < firstIdle i.deq := fun early =>
          stays ((counts.leaves_iff env live).mpr early)
        refine ⟨j - firstIdle i.deq, by omega, ?_⟩
        rw [Nat.add_assoc, Nat.add_sub_cancel' (Nat.le_of_not_lt late)]
        exact ⟨rfl, rfl⟩
    · rintro ⟨j, live, rfl, rfl⟩
      rw [Nat.add_assoc]
      have late : ¬ firstIdle i.deq + j < firstIdle i.deq := by omega
      rw [if_neg fun leaves => late ((counts.leaves_iff env (by omega)).mp leaves),
        counts.live]
      exact ⟨firstIdle i.deq + j, by omega, rfl, rfl⟩

theorem Counts.setRows (counts : Counts s d n) (i : Input c) : Counts (setRows s i) d n :=
  ⟨counts.deqWay, counts.deqPtr, counts.deqTime, counts.enqWay, counts.enqPtr, counts.enqTime,
    counts.bound, counts.live⟩

theorem Counts.correctRows (counts : Counts s d n) (i : Input c) :
    Counts (correctRows i s) d n := by
  unfold ReorderBuffer.correctRows
  split
  · exact ⟨counts.deqWay, counts.deqPtr, counts.deqTime, counts.enqWay, counts.enqPtr,
      counts.enqTime, counts.bound, counts.live⟩
  · exact counts

/-! ## Enqueues -/

def enqCount (i : Input c) : Nat := firstIdle fun port => (i.enq port).isSome

theorem enq_iff (env : Environment s i) (port : c.SupWaySel) :
    (i.enq port).isSome = true ↔ port.val < enqCount i := env.enqs port

theorem Counts.enqs_le (counts : Counts s d n) (env : Environment s i) :
    n + enqCount i ≤ c.supSize * c.singleScalarSize := by
  have ports : enqCount i ≤ c.supSize := firstIdle_le _
  have bound := counts.bound
  by_contra more
  have last : enqCount i - 1 < c.supSize := by omega
  have enqs := (enq_iff env ⟨enqCount i - 1, last⟩).mpr (by dsimp only; omega)
  have room := (counts.canEnq_iff _).mp (env.canEnq _ enqs)
  dsimp only at room
  omega

/-- A way enqueues into the slot of a number when that is one of the next. -/
theorem Counts.enters_iff (counts : Counts s d n) (env : Environment s i) {j : Nat}
    (inside : j < c.supSize * c.singleScalarSize) :
    ((i.enq (getEnqPort s (wayOf c.supSize (d + j)))).isSome = true ∧
      ptrOf c.supSize c.singleScalarSize (d + j) = s.enqP (wayOf c.supSize (d + j))) ↔
      n ≤ j ∧ j < n + enqCount i := by
  have ports : enqCount i ≤ c.supSize := firstIdle_le _
  have room := counts.enqs_le env
  constructor
  · rintro ⟨enqs, ptr⟩
    obtain ⟨r, turn, way⟩ := exists_turn (d + n) (wayOf c.supSize (d + j))
    rw [← way, getEnqPort_eq counts turn, enq_iff env] at enqs
    rw [← way, counts.enqPtr r turn] at ptr
    dsimp only at enqs
    rcases Nat.le_total (d + j) (d + n + r) with le | le
    · have same := place_inj le (by omega) way.symm ptr
      omega
    · have same := place_inj le (by omega) way ptr.symm
      omega
  · rintro ⟨late, early⟩
    have turn : j - n < c.supSize := by omega
    have number : d + j = d + n + (j - n) := by omega
    rw [number, getEnqPort_eq counts turn, enq_iff env, counts.enqPtr _ turn]
    exact ⟨by dsimp only; omega, rfl⟩

theorem Counts.canonEnq {now : State c} {gone : Nat} (counts : Counts s d n)
    (later : Counts now (d + gone) (n - gone)) (few : gone ≤ n) (env : Environment s i) :
    Counts (canonEnq s i now) (d + gone) (n - gone + enqCount i) := by
  have room := counts.enqs_le env
  have whole : d + gone + (n - gone + enqCount i) = d + n + enqCount i := by omega
  refine ⟨later.deqWay, later.deqPtr, later.deqTime, ?_, ?_, ?_, by omega, ?_⟩
  · rw [whole, wayOf_add (d + n), ← counts.enqWay]
    rfl
  · rw [whole]
    refine counts.enqPtr.advance (firstIdle_le _) fun r inside => ?_
    have used := enq_iff env ⟨r, inside⟩
    dsimp only at used
    simp only [ReorderBuffer.canonEnq, getEnqPort_eq counts inside, used, getNextPtr_eq]
  · rw [whole, ← ofNat_time_add, ← counts.enqTime]
    rfl
  · intro w p
    simp only [ReorderBuffer.canonEnq]
    constructor
    · intro held
      split at held
      next enters =>
        obtain ⟨r, turn, rfl⟩ := exists_turn (d + n) w
        obtain ⟨enqs, rfl⟩ := enters
        rw [getEnqPort_eq counts turn, enq_iff env] at enqs
        dsimp only at enqs
        refine ⟨n - gone + r, by omega, ?_⟩
        rw [show d + gone + (n - gone + r) = d + n + r by omega, counts.enqPtr r turn]
        exact ⟨rfl, rfl⟩
      next =>
        obtain ⟨j, live, way, ptr⟩ := (later.live w p).mp held
        exact ⟨j, by omega, way, ptr⟩
    · rintro ⟨j, live, rfl, rfl⟩
      rw [Nat.add_assoc]
      split
      · rfl
      next stays =>
        rw [later.live]
        have old : ¬ (n ≤ gone + j ∧ gone + j < n + enqCount i) := fun enters =>
          stays ((counts.enters_iff env (by omega)).mpr enters)
        exact ⟨j, by omega, by rw [Nat.add_assoc], by rw [Nat.add_assoc]⟩

/-! ## Wrong speculation -/

/-- The enqueue pointers go back to the number behind that of the killing row. -/
theorem Counts.rewind (counts : Counts s d n) {m : Nat} (inside : m < n) :
    Aligned (fun w => decrPtr (s.enqP w) (distToEnqP s (tagOf (d + m)) w)) (d + m + 1) := by
  have some := c.supSize_pos
  have bound := counts.bound
  obtain ⟨v, turn, way⟩ := exists_turn (d + n) (wayOf c.supSize (d + m))
  obtain ⟨dist, number⟩ : ∃ dist, d + n + v = d + m + c.supSize * dist := by
    have same : (d + n + v) % c.supSize = (d + m) % c.supSize := congrArg Fin.val way
    obtain ⟨dist, gap⟩ := Nat.dvd_of_mod_eq_zero (Nat.sub_mod_eq_zero_of_mod_eq same)
    exact ⟨dist, by omega⟩
  have positive : 0 < dist := by
    by_contra none
    rw [Nat.eq_zero_of_not_pos none, Nat.mul_zero] at number
    omega
  have small : dist ≤ c.singleScalarSize := by
    by_contra more
    have many := Nat.mul_le_mul_left c.supSize (Nat.lt_of_not_le more)
    rw [Nat.mul_succ] at many
    omega
  have killDist : killDistToEnqP s (tagOf (d + m)) = dist := by
    refine killDistToEnqP_eq positive small ?_
    change s.enqP (wayOf c.supSize (d + m)) = _
    rw [← way, counts.enqPtr v turn, number, ptrOf_turn]
    rfl
  refine counts.enqPtr.rewind turn positive (by rw [number, Nat.mul_comm]) fun r inside => ?_
  have dist_eq : distToEnqP s (tagOf (d + m)) (wayOf c.supSize (d + n + r)) =
      if v < r then dist else dist - 1 := by
    have killWay : toVirtualWay s (tagOf (c := c) (d + m)).way = ⟨v, turn⟩ := by
      change getEnqPort s (wayOf c.supSize (d + m)) = _
      rw [← way, getEnqPort_eq counts turn]
    have ownWay : toVirtualWay s (wayOf c.supSize (d + n + r)) = ⟨r, inside⟩ :=
      getEnqPort_eq counts inside
    simp only [distToEnqP, killWay, ownWay, killDist, Fin.mk_lt_mk]
  rw [dist_eq]
  exact decrPtr_add _ (by split <;> omega)

theorem Counts.killAll (now : State c) {x : ROBWrongSpecInput c} (all : x.killAll = true) :
    Counts (canonWrongSpec s now x) 0 0 := by
  have start := counts_reset now.row
  unfold canonWrongSpec
  rw [if_pos all]
  exact ⟨start.deqWay, start.deqPtr, start.deqTime, start.enqWay, start.enqPtr, start.enqTime,
    start.bound, start.live⟩

theorem Counts.canonWrongSpec {now : State c} {gone m : Nat} {x : ROBWrongSpecInput c}
    (counts : Counts s d n) (later : Counts now (d + gone) (n - gone))
    (one : x.killAll = false) (inside : m < n) (killer : x.killInstTag = tagOf (d + m))
    (depends : ∀ j, j < n → dependsOnWrongSpec (s.row (tagOf (c := c) (d + j)).way
      (tagOf (c := c) (d + j)).ptr) x.specTag = decide (m < j)) (few : gone ≤ m + 1) :
    Counts (canonWrongSpec s now x) (d + gone) (m + 1 - gone) := by
  have bound := counts.bound
  have whole : d + gone + (m + 1 - gone) = d + m + 1 := by omega
  unfold ReorderBuffer.canonWrongSpec
  rw [if_neg (by rw [one]; exact Bool.false_ne_true)]
  refine ⟨later.deqWay, later.deqPtr, later.deqTime, ?_, ?_, ?_, by omega, ?_⟩
  · rw [whole, wayOf_add (d + m), killer]
    rfl
  · rw [whole, killer]
    exact counts.rewind inside
  · rw [whole, ← ofNat_time_add, killer]
    rfl
  · intro w p
    dsimp only
    constructor
    · intro held
      split at held
      · simp at held
      next spared =>
        obtain ⟨j, live, rfl, rfl⟩ := (later.live w p).mp held
        rw [Nat.add_assoc] at spared ⊢
        have early : ¬ m < gone + j := fun late =>
          spared ((depends (gone + j) (by omega)).trans (decide_eq_true late))
        exact ⟨j, by omega, by rw [Nat.add_assoc], by rw [Nat.add_assoc]⟩
    · rintro ⟨j, live, rfl, rfl⟩
      rw [Nat.add_assoc]
      have early : ¬ m < gone + j := by omega
      have spared := (depends (gone + j) (by omega)).trans (decide_eq_false early)
      dsimp only [tagOf] at spared
      rw [spared, if_neg Bool.false_ne_true, later.live]
      exact ⟨j, by omega, by rw [Nat.add_assoc], by rw [Nat.add_assoc]⟩

end Cycle

end Counts

end Toooba.ReorderBuffer
