import RiscvCores.Cva6.IcacheHistory

/-!
# The invariant of the instruction cache

What one cycle of the state machine can do is said once.  The valid lines of the tag memory
hold the contents of the memory and were installed since the last flush; a lookup whose
result is used has read the words that are in the memories now.
-/

set_option autoImplicit false

namespace Cva6.Icache

open CommonCells TechCells
open AxiAdapter (IReq)

variable {cfg : IcacheCfg}

/-! ## What a cycle can do -/

section Moves

variable (s : State cfg) (i : Input cfg)

/-- The values of the state `READ`. -/
def reading : Ctrl :=
  { defaults s i with fetchReq := true, cmpEnD := s.cacheEn, cacheRden := s.cacheEn }

inductive Move : Prop
  | flushing (here : s.state = .flush) (notYet : flushDone s = false)
      (out : ctrl s i = { defaults s i with flushEn := true })
  | flushed (here : s.state = .flush) (done : flushDone s = true)
      (out : ctrl s i =
        { defaults s i with flushEn := true, state := .idle, flushD := false, cacheEnD := i.en })
  | toFlush (here : s.state = .idle)
      (out : ctrl s i = { defaults s i with cmpEnD := s.cacheEn, state := .flush })
  | idles (here : s.state = .idle) (noFlush : (s.flush || i.flush) = false)
      (none : i.killS1 = true ∨ (!i.memRtrnVld && i.req) = false)
      (out : ctrl s i =
        { defaults s i with
          cmpEnD := s.cacheEn, ready := !i.memRtrnVld
          cacheRden := !i.memRtrnVld && i.req, state := .idle })
  | accepts (here : s.state = .idle) (noFlush : (s.flush || i.flush) = false)
      (noKill : i.killS1 = false) (free : i.memRtrnVld = false) (req : i.req = true)
      (out : ctrl s i =
        { defaults s i with cmpEnD := s.cacheEn, ready := true, cacheRden := true, state := .read })
  | readFlushed (here : s.state = .read) (flush : (s.flush || i.flush) = true)
      (out : ctrl s i = { reading s i with state := .idle })
  | answers (here : s.state = .read) (noFlush : (s.flush || i.flush) = false)
      (shown : i.fetchValid = true) (noInv : s.inv = false)
      (hit : (anyHit s i && s.cacheEn || i.fetchException) = true)
      (out : ctrl s i =
        { reading s i with
          valid := !i.killS2, ready := !i.memRtrnVld
          state := if i.killS1 then .idle
            else if !i.memRtrnVld && i.req then .read
            else .idle })
  | readKilled (here : s.state = .read) (kill : i.killS2 = true)
      (out : ctrl s i = { reading s i with state := .idle })
  | sends (here : s.state = .read) (noFlush : (s.flush || i.flush) = false)
      (shown : i.fetchValid = true) (noInv : s.inv = false) (noKill : i.killS2 = false)
      (noHit : (anyHit s i && s.cacheEn) = false) (noException : i.fetchException = false)
      (out : ctrl s i =
        { reading s i with
          cmpEnD := false, memDataReq := true
          state := if i.memDataAck then .miss else .read })
  | waits (here : s.state = .read) (noFlush : (s.flush || i.flush) = false)
      (noKill : i.killS2 = false) (out : ctrl s i = reading s i)
  | leavesRead (here : s.state = .read) (kill : i.killS2 = true ∨ (s.flush || i.flush) = true)
      (out : ctrl s i = { reading s i with state := .killAtrans })
  | returns (here : s.state = .miss) (fill : ifill i = true) (noKill : i.killS2 = false)
      (noFlush : (s.flush || i.flush) = false)
      (out : ctrl s i =
        { defaults s i with state := .idle, valid := true, cacheWren := !paddrIsNc s i })
  | returnsKilled (here : s.state = .miss) (fill : ifill i = true)
      (kill : i.killS2 = true ∨ (s.flush || i.flush) = true)
      (out : ctrl s i = { defaults s i with state := .idle })
  | leavesMiss (here : s.state = .miss) (noFill : ifill i = false)
      (kill : i.killS2 = true ∨ (s.flush || i.flush) = true)
      (out : ctrl s i = { defaults s i with state := .killMiss })
  | misses (here : s.state = .miss) (noFill : ifill i = false) (noKill : i.killS2 = false)
      (noFlush : (s.flush || i.flush) = false) (out : ctrl s i = defaults s i)
  | killsAtrans (here : s.state = .killAtrans)
      (out : ctrl s i =
        { defaults s i with
          fetchReq := true, state := if i.fetchValid then .idle else .killAtrans })
  | killsMiss (here : s.state = .killMiss)
      (out : ctrl s i =
        { defaults s i with state := if ifill i then .idle else .killMiss })

theorem move_idle (here : s.state = .idle) : Move s i := by
  have out := Eq.refl (ctrl s i)
  conv at out => rhs; simp only [ctrl, here]
  by_cases flush : ((s.flush || i.flush) || i.en && !s.cacheEn) = true
  · refine .toFlush here ?_
    rw [out]
    exact if_pos flush
  · have flush' := Bool.not_eq_true _ |>.mp flush
    have noFlush : (s.flush || i.flush) = false := (Bool.or_eq_false_iff.mp flush').1
    have rest := out.trans (if_neg flush)
    cases kill : i.killS1 with
    | true =>
        refine .idles here noFlush (.inl kill) (rest.trans ?_)
        rw [kill]
        rfl
    | false =>
        cases taken : !i.memRtrnVld && i.req with
        | false =>
            refine .idles here noFlush (.inr taken) (rest.trans ?_)
            rw [kill, taken]
            rfl
        | true =>
            obtain ⟨free, req⟩ := Bool.and_eq_true_iff.mp taken
            refine .accepts here noFlush kill (Bool.not_eq_true' _ |>.mp free) req (rest.trans ?_)
            rw [kill, taken, free]
            rfl

theorem move_read (here : s.state = .read) : Move s i := by
  have out := Eq.refl (ctrl s i)
  conv at out => rhs; simp only [ctrl, here]
  by_cases ready : translated i = true
  · have shown : i.fetchValid = true := (Bool.and_eq_true_iff.mp ready).1
    replace out := out.trans (if_pos ready)
    by_cases flush : (s.flush || i.flush) = true
    · exact .readFlushed here flush (out.trans (if_pos flush))
    · replace out := out.trans (if_neg flush)
      have noFlush := Bool.not_eq_true _ |>.mp flush
      by_cases hit : ((anyHit s i && s.cacheEn || i.fetchException) && !s.inv) = true
      · obtain ⟨hit', noInv⟩ := Bool.and_eq_true_iff.mp hit
        exact .answers here noFlush shown (Bool.not_eq_true' _ |>.mp noInv) hit'
          (out.trans (if_pos hit))
      · replace out := out.trans (if_neg hit)
        by_cases kill : i.killS2 = true
        · exact .readKilled here kill (out.trans (if_pos kill))
        · replace out := out.trans (if_neg kill)
          have noKill := Bool.not_eq_true _ |>.mp kill
          by_cases noInv : (!s.inv) = true
          · rw [noInv, Bool.and_true, Bool.not_eq_true, Bool.or_eq_false_iff] at hit
            exact .sends here noFlush shown (Bool.not_eq_true' _ |>.mp noInv) noKill hit.1 hit.2
              (out.trans (if_pos noInv))
          · exact .waits here noFlush noKill (out.trans (if_neg noInv))
  · replace out := out.trans (if_neg ready)
    by_cases kill : (i.killS2 || (s.flush || i.flush)) = true
    · exact .leavesRead here (Bool.or_eq_true_iff.mp kill) (out.trans (if_pos kill))
    · replace out := out.trans (if_neg kill)
      rw [Bool.not_eq_true, Bool.or_eq_false_iff] at kill
      exact .waits here kill.2 kill.1 out

theorem move_miss (here : s.state = .miss) : Move s i := by
  have out := Eq.refl (ctrl s i)
  conv at out => rhs; simp only [ctrl, here]
  by_cases fill : ifill i = true
  · replace out := out.trans (if_pos fill)
    by_cases kill : (i.killS2 || (s.flush || i.flush)) = true
    · exact .returnsKilled here fill (Bool.or_eq_true_iff.mp kill) (out.trans (if_pos kill))
    · replace out := out.trans (if_neg kill)
      rw [Bool.not_eq_true, Bool.or_eq_false_iff] at kill
      exact .returns here fill kill.1 kill.2 out
  · replace out := out.trans (if_neg fill)
    have noFill := Bool.not_eq_true _ |>.mp fill
    by_cases kill : (i.killS2 || (s.flush || i.flush)) = true
    · exact .leavesMiss here noFill (Bool.or_eq_true_iff.mp kill) (out.trans (if_pos kill))
    · replace out := out.trans (if_neg kill)
      rw [Bool.not_eq_true, Bool.or_eq_false_iff] at kill
      exact .misses here noFill kill.1 kill.2 out

theorem move : Move s i := by
  cases here : s.state with
  | flush =>
      have out := Eq.refl (ctrl s i)
      conv at out => rhs; simp only [ctrl, here]
      cases done : flushDone s with
      | false => exact .flushing here done (out.trans (if_neg (by rw [done]; decide)))
      | true => exact .flushed here done (out.trans (if_pos done))
  | idle => exact move_idle s i here
  | read => exact move_read s i here
  | miss => exact move_miss s i here
  | killAtrans => exact .killsAtrans here (by rw [ctrl, here])
  | killMiss => exact .killsMiss here (by rw [ctrl, here])

end Moves

/-! ## The memories after a cycle -/

section Memories

variable {s : State cfg} {i : Input cfg} {set : cfg.Index} {k : cfg.Way} {tag : Nat}

theorem tagWords_next (s : State cfg) (i : Input cfg) (set : cfg.Index) (k : cfg.Way) :
    ((next s i).tagSram k).words set =
      if vldReq s i k && vldWe s i && decide (set = vldAddr s i) then
        ((ctrl s i).cacheWren, s.clTag)
      else (s.tagSram k).words set :=
  Sram.words_cycle (s.tagSram k) (tagPort s i k) set

theorem dataWords_next (s : State cfg) (i : Input cfg) (set : cfg.Index) (k : cfg.Way) :
    ((next s i).dataSram k).words set =
      if clReq s i k && (ctrl s i).cacheWren && decide (set = clIndex s i) then i.memRtrn.data
      else (s.dataSram k).words set :=
  Sram.words_cycle (s.dataSram k) (dataPort s i k) set

/-- Without a fill nothing becomes valid. -/
theorem valid_of_next (noWrite : (ctrl s i).cacheWren = false)
    (valid : Valid (next s i) set k tag) :
    Valid s set k tag ∧ (vldReq s i k && vldWe s i && decide (set = vldAddr s i)) = false := by
  rw [Valid, tagWords_next, noWrite] at valid
  split at valid
  · cases valid
  · rename_i kept
    exact ⟨valid, Bool.not_eq_true _ |>.mp kept⟩

/-- What is invalidated is not valid any more. -/
theorem not_valid_of_invalidates (noWrite : (ctrl s i).cacheWren = false)
    (noFlush : (ctrl s i).flushEn = false) (inv : invalidates i set k = true) :
    ¬ Valid (next s i) set k tag := by
  intro valid
  have kept := (valid_of_next noWrite valid).2
  simp only [invalidates, Bool.and_eq_true, decide_eq_true_eq] at inv
  obtain ⟨⟨inv, here⟩, ways⟩ := inv
  have address : vldAddr s i = set := by
    rw [vldAddr, noFlush, inv]
    exact here
  have request : vldReq s i k = true := by
    rw [vldReq, noFlush, inv]
    rcases Bool.or_eq_true_iff.mp ways with all | way
    · simp [all]
    · simp only [Bool.and_true]
      rw [(Bool.and_eq_true_iff.mp way).1, (Bool.and_eq_true_iff.mp way).2]
      simp
  rw [request, vldWe, inv, address] at kept
  simp at kept

theorem not_valid_of_flush (noWrite : (ctrl s i).cacheWren = false)
    (flush : (ctrl s i).flushEn = true) (here : set = s.flushCnt) :
    ¬ Valid (next s i) set k tag := by
  intro valid
  have kept := (valid_of_next noWrite valid).2
  rw [vldReq, vldWe, vldAddr, flush, here] at kept
  simp at kept

theorem data_kept (noWrite : (ctrl s i).cacheWren = false) :
    ((next s i).dataSram k).words set = (s.dataSram k).words set := by
  rw [dataWords_next, noWrite, Bool.and_false, Bool.false_and]
  rfl

end Memories

section Kinds

variable {s : State cfg} {i : Input cfg}

/-- Only a fill writes a line. -/
theorem wren_cases (write : (ctrl s i).cacheWren = true) :
    s.state = .miss ∧ ifill i = true ∧ i.killS2 = false ∧ (s.flush || i.flush) = false ∧
      paddrIsNc s i = false ∧
      ctrl s i = { defaults s i with state := .idle, valid := true, cacheWren := true } := by
  cases move s i with
  | returns here fill noKill noFlush out =>
      have cacheable : paddrIsNc s i = false := by
        rw [out] at write
        exact Bool.not_eq_true' _ |>.mp write
      rw [cacheable] at out
      exact ⟨here, fill, noKill, noFlush, cacheable, out⟩
  | _ =>
      rename_i out
      rw [out] at write
      cases write

theorem cacheWren_false (notMiss : s.state ≠ .miss) : (ctrl s i).cacheWren = false := by
  by_contra write
  exact notMiss (wren_cases (Bool.not_eq_false _ |>.mp write)).1

theorem valid_cases (valid : (ctrl s i).valid = true) :
    i.killS2 = false ∧ (s.flush || i.flush) = false ∧
      (s.state = .read ∧ s.inv = false ∧ i.fetchValid = true ∧ (ctrl s i).fetchReq = true ∧
          (anyHit s i && s.cacheEn || i.fetchException) = true ∨
        s.state = .miss ∧ ifill i = true) := by
  cases move s i with
  | answers here noFlush shown noInv hit out =>
      have noKill : i.killS2 = false := by
        rw [out] at valid
        exact Bool.not_eq_true' _ |>.mp valid
      exact ⟨noKill, noFlush, .inl ⟨here, noInv, shown, by rw [out]; rfl, hit⟩⟩
  | returns here fill noKill noFlush out => exact ⟨noKill, noFlush, .inr ⟨here, fill⟩⟩
  | _ =>
      rename_i out
      rw [out] at valid
      cases valid

theorem flushEn_eq (s : State cfg) (i : Input cfg) :
    (ctrl s i).flushEn = decide (s.state = .flush) := by
  cases move s i <;> simp_all [defaults, reading]

theorem flushD_eq (notFlush : s.state ≠ .flush) :
    (ctrl s i).flushD = (s.flush || i.flush) ∧ (ctrl s i).cacheEnD = (s.cacheEn && i.en) := by
  cases move s i <;> simp_all [defaults, reading]

/-- How the state `READ` is entered or kept. -/
inductive ToRead (s : State cfg) (i : Input cfg) : Prop
  | accept (here : s.state = .idle ∨ s.state = .read) (noFlush : (s.flush || i.flush) = false)
      (accepts : accepts s i = true) (noKill : i.killS1 = false) (free : i.memRtrnVld = false)
      (rden : s.cacheEn = true → (ctrl s i).cacheRden = true)
      (cmpEn : (ctrl s i).cmpEnD = s.cacheEn)
  | sends (here : s.state = .read) (noFlush : (s.flush || i.flush) = false)
      (shown : i.fetchValid = true) (noInv : s.inv = false) (noKill : i.killS2 = false)
      (noHit : (anyHit s i && s.cacheEn) = false) (noException : i.fetchException = false)
      (noAck : i.memDataAck = false)
      (out : ctrl s i = { reading s i with cmpEnD := false, memDataReq := true })
  | waits (here : s.state = .read) (noFlush : (s.flush || i.flush) = false)
      (noKill : i.killS2 = false) (out : ctrl s i = reading s i)

theorem toRead (stays : (ctrl s i).state = .read) : ToRead s i := by
  cases move s i with
  | accepts here noFlush noKill free req out =>
      exact .accept (.inl here) noFlush (by rw [accepts, out, req]; rfl) noKill free
        (fun _ => by rw [out]) (by rw [out])
  | answers here noFlush shown noInv hit out =>
      rw [out] at stays
      dsimp only at stays
      split at stays
      · cases stays
      · rename_i noKill
        split at stays
        · rename_i taken
          obtain ⟨free, req⟩ := Bool.and_eq_true_iff.mp taken
          refine .accept (.inr here) noFlush ?_ (Bool.not_eq_true _ |>.mp noKill)
            (Bool.not_eq_true' _ |>.mp free) (fun enabled => ?_) ?_
          · rw [accepts, out, req, free]
            rfl
          · rw [out]
            exact enabled
          · rw [out]
            rfl
        · cases stays
  | sends here noFlush shown noInv noKill noHit noException out =>
      cases ack : i.memDataAck with
      | true => simp [out, ack] at stays
      | false =>
          refine .sends here noFlush shown noInv noKill noHit noException ack ?_
          rw [out, ack]
          simp [reading, defaults, here]
  | waits here noFlush noKill out => exact .waits here noFlush noKill out
  | killsAtrans here out =>
      rw [out] at stays
      dsimp only at stays
      split at stays <;> cases stays
  | killsMiss here out =>
      rw [out] at stays
      dsimp only at stays
      split at stays <;> cases stays
  | _ => simp_all [defaults, reading]

/-- How the state `MISS` is entered or kept. -/
inductive ToMiss (s : State cfg) (i : Input cfg) : Prop
  | sends (here : s.state = .read) (noFlush : (s.flush || i.flush) = false)
      (shown : i.fetchValid = true) (noInv : s.inv = false) (noKill : i.killS2 = false)
      (noHit : (anyHit s i && s.cacheEn) = false) (noException : i.fetchException = false)
      (ack : i.memDataAck = true)
      (out : ctrl s i =
        { reading s i with cmpEnD := false, memDataReq := true, state := .miss })
  | misses (here : s.state = .miss) (noFill : ifill i = false) (noKill : i.killS2 = false)
      (noFlush : (s.flush || i.flush) = false) (out : ctrl s i = defaults s i)

theorem toMiss (stays : (ctrl s i).state = .miss) : ToMiss s i := by
  cases move s i with
  | sends here noFlush shown noInv noKill noHit noException out =>
      cases ack : i.memDataAck with
      | false => simp [out, ack] at stays
      | true =>
          refine .sends here noFlush shown noInv noKill noHit noException ack ?_
          rw [out, ack]
          rfl
  | misses here noFill noKill noFlush out => exact .misses here noFill noKill noFlush out
  | answers here noFlush shown noInv hit out =>
      rw [out] at stays
      dsimp only at stays
      repeat' split at stays
      all_goals cases stays
  | killsAtrans here out =>
      rw [out] at stays
      dsimp only at stays
      split at stays <;> cases stays
  | killsMiss here out =>
      rw [out] at stays
      dsimp only at stays
      split at stays <;> cases stays
  | _ => simp_all [defaults, reading]

end Kinds


/-! ## The invariant -/

def Absent (s : State cfg) (set : cfg.Index) (tag : Nat) : Prop := ∀ k, ¬ Valid s set k tag

/-- A physical address with the page offset of a virtual one. -/
def OnPage (cfg : IcacheCfg) (vaddr p : Nat) : Prop :=
  p < 2 ^ (cfg.tagWidth + cfg.indexWidth) ∧
    p % 2 ^ cfg.indexWidth = cfg.align vaddr % 2 ^ cfg.indexWidth

/-- The request in the state `READ`.  A comparison that is not repeated has failed. -/
structure Reading (r : Request) (s : State cfg) : Prop where
  vaddr : r.vaddr = s.vaddr
  page : ∀ p ∈ r.paddr, OnPage cfg s.vaddr p
  offset : s.clOffset = offsetOf cfg s.vaddr ∨ cfg.axi = true ∧
    s.clOffset = ncOffset (offsetOf cfg s.vaddr) ∧
    ∃ p ∈ r.paddr, isNc cfg s.cacheEn (tagOf cfg p) = true
  tags : s.cacheEn = true → s.inv = false →
    ∀ k, (s.tagSram k).rdata = (s.tagSram k).words (cfg.index s.vaddr)
  data : s.cacheEn = true → s.inv = false →
    ∀ k, (s.dataSram k).rdata = (s.dataSram k).words (cfg.index s.vaddr)
  failed : s.cacheEn = true → s.inv = false → s.cmpEn = false →
    ∃ p ∈ r.paddr, Absent s (cfg.index s.vaddr) (tagOf cfg p)

/-- The request in the state `MISS` with its fill. -/
structure Missing (epoch : Nat) (r : Request) (sent : Sent) (s : State cfg) : Prop where
  vaddr : r.vaddr = s.vaddr
  owner : sent.owner = r.id
  epoch : sent.epoch = epoch
  paddr : ∃ p ∈ r.paddr, OnPage cfg s.vaddr p ∧ s.clTag = tagOf cfg p
  address : sent.req.paddr = memPaddr cfg sent.req.nc s.clTag s.vaddr
  cacheable : isNc cfg s.cacheEn s.clTag = false →
    sent.req.nc = false ∧ Absent s (cfg.index s.vaddr) s.clTag
  offset : s.clOffset = if cfg.axi && sent.req.nc then ncOffset (offsetOf cfg s.vaddr)
    else offsetOf cfg s.vaddr
  cmpEn : s.cmpEn = false

/-- The line of the memory that a tag and a set stand for. -/
def lineOf (cfg : IcacheCfg) (mem : Nat → BitVec 8) (set : cfg.Index) (tag : Nat) : cfg.Line :=
  fun j => mem (tag * 2 ^ cfg.indexWidth + set.val * cfg.lineBytes + j.val)

/-- A valid line is fresh, cacheable and holds the contents of the memory. -/
structure Backed (mem : Nat → Nat → BitVec 8) (H : History cfg) (s : State cfg)
    (set : cfg.Index) (k : cfg.Way) (tag : Nat) : Prop where
  fresh : H.fresh set k = true
  cacheable : cfg.isInsideCacheableRegions (tag * 2 ^ cfg.indexWidth) = true
  line : (s.dataSram k).words set = lineOf cfg (mem H.epoch) set tag

structure Inv (mem : Nat → Nat → BitVec 8) (H : History cfg) (s : State cfg) : Prop where
  flushCnt : s.state ≠ .flush → s.flushCnt = 0
  noFlush : s.state = .read ∨ s.state = .miss → s.flush = false
  reading : s.state = .read → ∃ r, H.request = some r ∧ Reading r s
  missing : s.state = .miss → ∃ r sent, H.request = some r ∧ H.sent = some sent ∧
    Missing H.epoch r sent s
  noSent : s.state ≠ .miss → s.state ≠ .killMiss → H.sent = none
  ids : ∀ r ∈ H.request, r.id < H.accepted ∧ r.id ∉ H.answered
  known : ∀ id ∈ H.answered, id < H.accepted
  once : H.answered.Nodup
  lines : s.state ≠ .flush → s.flush = false → ∀ set k tag, Valid s set k tag →
    Backed mem H s set k tag
  cleared : s.state = .flush → ∀ set < s.flushCnt, ∀ k tag, ¬ Valid s set k tag
  unique : H.booted = true ∨ s.state ≠ .flush →
    ∀ set k k' tag, Valid s set k tag → Valid s set k' tag → k = k'
  oneWay : ∀ k k', s.replWayOh k = true → s.replWayOh k' = true → k = k'

theorem inv_reset (mem : Nat → Nat → BitVec 8) (tagSram : cfg.Way → Sram cfg.Index (Bool × Nat))
    (dataSram : cfg.Way → Sram cfg.Index cfg.Line) :
    Inv mem {} (reset tagSram dataSram) where
  flushCnt notFlush := (notFlush rfl).elim
  noFlush _ := rfl
  reading here := nomatch here
  missing here := nomatch here
  noSent _ _ := rfl
  ids _ inside := nomatch inside
  known _ inside := nomatch inside
  once := List.nodup_nil
  lines notFlush := (notFlush rfl).elim
  cleared _ set before := absurd before (Fin.not_lt_zero set)
  unique := by rintro (booted | notFlush) <;> contradiction
  oneWay _ _ isSet := nomatch isSet

/-! ## Answers -/

section Answers

variable {mem : Nat → Nat → BitVec 8} {H : History cfg} {s : State cfg} {i : Input cfg}

/-- Only an open request is answered. -/
theorem Inv.request_of_valid (inv : Inv mem H s) (valid : (ctrl s i).valid = true) :
    ∃ r, H.request = some r := by
  have opened : s.state = .read ∨ s.state = .miss :=
    (valid_cases valid).2.2.imp And.left And.left
  rcases opened with here | here
  · obtain ⟨r, request, _⟩ := inv.reading here
    exact ⟨r, request⟩
  · obtain ⟨r, _, request, _⟩ := inv.missing here
    exact ⟨r, request⟩

theorem Inv.once_next (inv : Inv mem H s) : (H.step s i).answered.Nodup ∧
    ∀ id ∈ (H.step s i).answered, id < H.accepted := by
  simp only [History.step]
  split
  · rename_i valid
    obtain ⟨r, request⟩ := inv.request_of_valid valid
    obtain ⟨known, new⟩ := inv.ids r request
    rw [request]
    constructor
    · exact List.nodup_append.mpr ⟨inv.once, List.nodup_singleton _, by
        rintro id inside _ same rfl
        exact new (by rwa [List.mem_singleton.mp same] at inside)⟩
    · intro id inside
      rcases List.mem_append.mp inside with old | last
      · exact inv.known id old
      · rw [List.mem_singleton.mp last]
        exact known
  · exact ⟨inv.once, inv.known⟩

theorem Inv.ids_next (inv : Inv mem H s) : ∀ r ∈ (H.step s i).request,
    r.id < (H.step s i).accepted ∧ r.id ∉ (H.step s i).answered := by
  intro r inside
  have answered := inv.once_next (i := i)
  by_cases accept : accepts s i = true
  · have accepted : (H.step s i).accepted = H.accepted + 1 := by
      simp only [History.step, accept, if_true]
    simp only [History.step, accept, if_true] at inside
    split at inside
    · cases inside
    · cases inside
      rw [accepted]
      exact ⟨Nat.lt_succ_self _, fun old => Nat.lt_irrefl _ (answered.2 _ old)⟩
  · have accepted : (H.step s i).accepted = H.accepted := by
      simp only [History.step, accept]
      rfl
    simp only [History.step, accept, Bool.false_eq_true, if_false] at inside
    split at inside
    · cases inside
    · rename_i still
      rw [Bool.or_eq_true, not_or, Bool.not_eq_true, Bool.not_eq_true] at still
      obtain ⟨old, request, same⟩ := Option.map_eq_some_iff.mp inside
      have same : old.id = r.id := by rw [← same]
      obtain ⟨known, new⟩ := inv.ids old request
      rw [accepted, ← same]
      refine ⟨known, ?_⟩
      simpa only [History.step, still.2, Bool.false_eq_true, if_false] using new

end Answers

end Cva6.Icache
