import RiscvCores.Lib.FirstMax
import RiscvCores.Toooba.Plic

/-!
# The register map of the interrupt controller

The memory map of the manual that the source cites, and what an access to each of its
registers does.  `decoded` is the register that the code's slices and masks give; the
two agree exactly at the offsets that `Decodes` describes.
-/

set_option autoImplicit false

namespace Toooba.Plic

open BitField (pack)

variable {p : Params}

/-- The number of 32-bit words with one bit for each source. -/
def words (p : Params) : Nat := p.nExternalSources / 32 + 1

inductive Register (p : Params)
  | priority (source : Fin p.nExternalSources)
  | pending (word : Fin (words p))
  | enable (t : TargetId p) (word : Fin (words p))
  | threshold (t : TargetId p)
  | claim (t : TargetId p)
  deriving DecidableEq

def Register.offset : Register p → Nat
  | .priority source => 4 * (source.val + 1)
  | .pending word => 0x1000 + 4 * word.val
  | .enable t word => 0x2000 + 0x80 * t.val + 4 * word.val
  | .threshold t => 0x200000 + 0x1000 * t.val
  | .claim t => 0x200000 + 0x1000 * t.val + 4

/-- The register's address in a block that starts at `base`. -/
def Register.At (base addr : Addr) (r : Register p) : Prop :=
  addr.toNat = base.toNat + r.offset

/-! ## What an access does -/

/-- A source that a claim of `t` may return. -/
def Eligible (s : State p) (t : TargetId p) (id : SourceId p) : Prop :=
  id ≠ 0 ∧ s.sourceIp id = true ∧ s.ie t id = true ∧ 0 < s.sourcePrio id

/-- The eligible source of highest priority, of several the lowest, or else 0. -/
def IsClaim (s : State p) (t : TargetId p) (id : SourceId p) : Prop :=
  (id = 0 ∧ ∀ j, ¬ Eligible s t j) ∨
    (Eligible s t id ∧ ∀ j, Eligible s t j → s.sourcePrio j < s.sourcePrio id ∨
      (s.sourcePrio j = s.sourcePrio id ∧ id ≤ j))

/-- One bit for each of the sources `32 k` to `32 k + 31`. -/
def sourceBits (v : SourceId p → Bool) (k : Nat) : BitVec 32 :=
  pack fun b : Fin 32 =>
    if inRange : 32 * k + b.val < p.nExternalSources + 1 then v ⟨32 * k + b.val, inRange⟩
    else false

/-- A claimed source is in service and no longer pending. -/
def taken (now : State p) (id : SourceId p) : State p :=
  if id = 0 then now
  else
    { now with
      sourceIp := Function.update now.sourceIp id false
      sourceBusy := Function.update now.sourceBusy id true }

/-- A read of a register: the word returned and the registers after it.  The word is the
one at the start of the cycle, `s`. -/
def Reads (s now : State p) (data : BitVec 32) (after : State p) : Register p → Prop
  | .priority k => data = (s.sourcePrio k.succ).setWidth 32 ∧ after = now
  | .pending k => data = sourceBits s.sourceIp k ∧ after = now
  | .enable t k => data = sourceBits (s.ie t) k ∧ after = now
  | .threshold t => data = (s.targetThreshold t).setWidth 32 ∧ after = now
  | .claim t => ∃ id, IsClaim s t id ∧ data = BitVec.ofNat 32 id.val ∧ after = taken now id

/-- The registers after a write.  A completion frees the source it names, if the target has
that source enabled. -/
def written (s : State p) (data : BitVec 32) : Register p → State p
  | .priority k =>
      { s with sourcePrio := Function.update s.sourcePrio k.succ (data.setWidth _) }
  | .pending _ => s
  | .enable t k =>
      { s with
        ie := Function.update s.ie t fun id =>
          if id.val / 32 = k.val then data.getLsbD (id.val % 32) else s.ie t id }
  | .threshold t =>
      { s with targetThreshold := Function.update s.targetThreshold t (data.setWidth _) }
  | .claim t =>
      { s with
        sourceBusy := fun id => s.sourceBusy id && !(s.ie t id && id.val == data.toNat) }

/-! ## The register that the code serves -/

theorem sourceIndex_lt {sourceId : BitVec 10}
    (inRange : 0 < sourceId.toNat ∧ sourceId.toNat < p.nExternalSources + 1) :
    sourceId.toNat - 1 < p.nExternalSources := by omega

theorem wordIndex_lt {sourceIdBase : BitVec 10}
    (inRange : sourceIdBase.toNat < p.nExternalSources + 1) :
    sourceIdBase.toNat / 32 < words p := by
  unfold words
  omega

/-- The range checks of the two rules. -/
def Selected.register (p : Params) : Selected → Option (Register p)
  | .priority sourceId =>
      if inRange : 0 < sourceId.toNat ∧ sourceId.toNat < p.nExternalSources + 1 then
        some (.priority ⟨sourceId.toNat - 1, sourceIndex_lt inRange⟩)
      else none
  | .pending sourceIdBase =>
      if inRange : sourceIdBase.toNat < p.nExternalSources + 1 then
        some (.pending ⟨sourceIdBase.toNat / 32, wordIndex_lt inRange⟩)
      else none
  | .enable targetId sourceIdBase =>
      if inRange : sourceIdBase.toNat < p.nExternalSources + 1 ∧ targetId.toNat < p.nTargets then
        some (.enable ⟨targetId.toNat, inRange.2⟩
          ⟨sourceIdBase.toNat / 32, wordIndex_lt inRange.1⟩)
      else none
  | .threshold targetId =>
      if inRange : targetId.toNat < p.nTargets then some (.threshold ⟨targetId.toNat, inRange⟩)
      else none
  | .claim targetId =>
      if inRange : targetId.toNat < p.nTargets then some (.claim ⟨targetId.toNat, inRange⟩)
      else none

def decoded (p : Params) (addrOffset : Addr) : Option (Register p) :=
  (select addrOffset).bind (Selected.register p)

/-! ## The scan over the sources -/

theorem scanSource_eq (s : State p) (t : TargetId p) :
    scanSource s t = FirstMax.scan (fun id => s.sourceIp id && s.ie t id) s.sourcePrio := by
  funext best id
  unfold scanSource FirstMax.scan
  rw [Bool.and_right_comm]

theorem eligible_iff {s : State p} {t : TargetId p} {id : SourceId p} :
    Eligible s t id ↔ id ∈ (List.finRange p.nExternalSources).map Fin.succ ∧
      (s.sourceIp id && s.ie t id) = true ∧ 0 < s.sourcePrio id := by
  rw [Eligible, Bool.and_eq_true, and_assoc]
  refine and_congr_left fun _ => ⟨fun real => ?_, fun member => ?_⟩
  · exact List.mem_map.mpr ⟨id.pred real, List.mem_finRange _, id.succ_pred real⟩
  · obtain ⟨k, -, rfl⟩ := List.mem_map.mp member
    exact Fin.succ_ne_zero k

theorem sources_sorted (n : Nat) : ((List.finRange n).map Fin.succ).Pairwise (· < ·) := by
  rw [List.pairwise_map]
  exact (List.pairwise_lt_finRange n).imp fun smaller => Fin.succ_lt_succ_iff.mpr smaller

/-- What the scan finds: no eligible source, or the one to claim with its priority. -/
theorem max_cases (s : State p) (t : TargetId p) :
    (fnTargetMaxPrioAndMaxId s t = (0, 0) ∧ ∀ j, ¬ Eligible s t j) ∨
      ∃ id, fnTargetMaxPrioAndMaxId s t = (s.sourcePrio id, id) ∧ Eligible s t id ∧
        ∀ j, Eligible s t j → s.sourcePrio j ≤ s.sourcePrio id ∧
          (s.sourcePrio j < s.sourcePrio id ∨ id ≤ j) := by
  unfold fnTargetMaxPrioAndMaxId
  rw [scanSource_eq]
  rcases FirstMax.foldl_scan ((List.finRange p.nExternalSources).map Fin.succ) ((0, 0) :
      Priority p × SourceId p) with ⟨same, bounded⟩ | ⟨id, found, isFirst, positive⟩
  · refine .inl ⟨same, fun j eligible => ?_⟩
    obtain ⟨member, admits, positive⟩ := eligible_iff.mp eligible
    exact Std.not_lt.mpr (bounded j member admits) positive
  · have member : id ∈ (List.finRange p.nExternalSources).map Fin.succ := by
      obtain ⟨-, before, after, split, -⟩ := isFirst
      rw [split]
      exact List.mem_append_right _ List.mem_cons_self
    refine .inr ⟨id, found, eligible_iff.mpr ⟨member, isFirst.1, positive⟩, fun j eligible => ?_⟩
    obtain ⟨member', admits, -⟩ := eligible_iff.mp eligible
    refine ⟨isFirst.largest member' admits, ?_⟩
    rcases isFirst.ties (sources_sorted _) member' admits with smaller | rfl | later
    · exact .inl smaller
    · exact .inr (Fin.le_refl _)
    · exact .inr (Fin.le_of_lt later)

theorem isClaim_maxId (s : State p) (t : TargetId p) :
    IsClaim s t (fnTargetMaxPrioAndMaxId s t).2 := by
  rcases max_cases s t with ⟨found, none⟩ | ⟨id, found, eligible, best⟩
  · rw [found]
    exact .inl ⟨rfl, none⟩
  · rw [found]
    refine .inr ⟨eligible, fun j eligible' => ?_⟩
    obtain ⟨bounded, smaller | first⟩ := best j eligible'
    · exact .inl smaller
    · by_cases equal : s.sourcePrio j = s.sourcePrio id
      · exact .inr ⟨equal, first⟩
      · exact .inl (BitVec.lt_of_le_ne bounded equal)

theorem mEip_iff (s : State p) (t : TargetId p) :
    mEip s t = true ↔ ∃ id, Eligible s t id ∧ s.targetThreshold t < s.sourcePrio id := by
  rw [mEip, decide_eq_true_iff, gt_iff_lt]
  rcases max_cases s t with ⟨found, none⟩ | ⟨id, found, eligible, best⟩
  · rw [found]
    refine ⟨fun above => absurd above (by simp [BitVec.lt_def]), fun ⟨id, eligible, _⟩ => ?_⟩
    exact absurd eligible (none id)
  · rw [found]
    refine ⟨fun above => ⟨id, eligible, above⟩, fun ⟨j, eligible', above⟩ => ?_⟩
    exact Std.lt_of_lt_of_le above (best j eligible').1

/-! ## The code serves the register that it decodes -/

/-- The base of a word of bits is a multiple of 32. -/
def Selected.Whole : Selected → Prop
  | .pending sourceIdBase => 32 ∣ sourceIdBase.toNat
  | .enable _ sourceIdBase => 32 ∣ sourceIdBase.toNat
  | _ => True

theorem toNat_shifted {n : Nat} (x : BitVec n) :
    ((x ++ 0#5).setWidth 10 : BitVec 10).toNat = 32 * x.toNat % 1024 := by
  rw [BitVec.toNat_setWidth, BitVec.toNat_append, BitVec.toNat_ofNat, Nat.zero_mod, Nat.or_zero,
    Nat.shiftLeft_eq, Nat.mul_comm]

theorem select_whole {addrOffset : Addr} {sel : Selected} (selects : select addrOffset = some sel) :
    sel.Whole := by
  have whole {n : Nat} (x : BitVec n) : 32 ∣ ((x ++ 0#5).setWidth 10 : BitVec 10).toNat := by
    rw [toNat_shifted]
    omega
  unfold select at selects
  split_ifs at selects <;> obtain rfl := Option.some.inj selects <;>
    first | exact whole _ | trivial

theorem sourceAt_of_lt {k : Nat} (inRange : k < p.nExternalSources + 1) :
    sourceAt p k = some ⟨k, inRange⟩ := dif_pos inRange

theorem sourceAt_of_ge {k : Nat} (outside : ¬ k < p.nExternalSources + 1) :
    sourceAt p k = none := dif_neg outside

theorem targetAt_of_lt {k : Nat} (inRange : k < p.nTargets) :
    targetAt p k = some ⟨k, inRange⟩ := dif_pos inRange

theorem targetAt_of_ge {k : Nat} (outside : ¬ k < p.nTargets) :
    targetAt p k = none := dif_neg outside

theorem toNat_base_add {base : BitVec 10} (whole : 32 ∣ base.toNat) {k : Nat} (small : k < 32) :
    (base + BitVec.ofNat 10 k).toNat = base.toNat + k := by
  have bound := base.isLt
  rw [BitVec.toNat_add, BitVec.toNat_ofNat]
  omega

theorem word_eq (v : SourceId p → Bool) {base : BitVec 10} (whole : 32 ∣ base.toNat) :
    word v base = sourceBits v (base.toNat / 32) := by
  unfold word sourceBits
  congr 1
  funext k
  rw [toNat_base_add whole k.isLt]
  have start : 32 * (base.toNat / 32) = base.toNat := Nat.mul_div_cancel' whole
  by_cases inRange : base.toNat + k.val < p.nExternalSources + 1
  · have inRange' : 32 * (base.toNat / 32) + k.val < p.nExternalSources + 1 := by omega
    rw [sourceAt_of_lt inRange, dif_pos inRange']
    simp only [start]
  · have outside : ¬ 32 * (base.toNat / 32) + k.val < p.nExternalSources + 1 := by omega
    rw [sourceAt_of_ge inRange, dif_neg outside]

theorem readSelected_none (s now : State p) {sel : Selected} (unmapped : sel.register p = none) :
    readSelected s now sel = none := by
  cases sel with
  | priority sourceId =>
      simp only [Selected.register, dite_eq_right_iff, reduceCtorEq, imp_false] at unmapped
      by_cases inRange : sourceId.toNat < p.nExternalSources + 1
      · have zero : ¬ 0 < sourceId := fun positive => unmapped ⟨positive, inRange⟩
        simp only [readSelected, sourceAt_of_lt inRange, if_neg zero]
      · simp only [readSelected, sourceAt_of_ge inRange]
  | pending sourceIdBase =>
      simp only [Selected.register, dite_eq_right_iff, reduceCtorEq, imp_false] at unmapped
      simp only [readSelected, sourceAt_of_ge unmapped]
  | enable targetId sourceIdBase =>
      simp only [Selected.register, dite_eq_right_iff, reduceCtorEq, imp_false] at unmapped
      by_cases inRange : sourceIdBase.toNat < p.nExternalSources + 1
      · have outside : ¬ targetId.toNat < p.nTargets := fun target => unmapped ⟨inRange, target⟩
        simp only [readSelected, sourceAt_of_lt inRange, targetAt_of_ge outside]
      · simp only [readSelected, sourceAt_of_ge inRange]
  | threshold targetId | claim targetId =>
      simp only [Selected.register, dite_eq_right_iff, reduceCtorEq, imp_false] at unmapped
      simp only [readSelected, targetAt_of_ge unmapped]

/-- A read that the code accepts returns, in its low word, what the manual says. -/
theorem readSelected_some (s now : State p) {sel : Selected} {r : Register p} (whole : sel.Whole)
    (mapped : sel.register p = some r) :
    ∃ after rdata, readSelected s now sel = some (after, rdata) ∧
      Reads s now (rdata.setWidth 32) after r := by
  cases sel with
  | priority sourceId =>
      simp only [Selected.register] at mapped
      split at mapped
      case isFalse => cases mapped
      case isTrue inRange =>
        cases mapped
        have same : (⟨sourceId.toNat, inRange.2⟩ : SourceId p) =
            (⟨sourceId.toNat - 1, by omega⟩ : Fin p.nExternalSources).succ :=
          Fin.ext (by simp only [Fin.val_succ]; omega)
        refine ⟨now, (s.sourcePrio ⟨sourceId.toNat, inRange.2⟩).setWidth 64, ?_, ?_, rfl⟩
        · simp only [readSelected, sourceAt_of_lt inRange.2]
          exact if_pos inRange.1
        · rw [same, BitVec.setWidth_setWidth_of_le _ (by decide)]
  | pending sourceIdBase =>
      simp only [Selected.register] at mapped
      split at mapped
      case isFalse => cases mapped
      case isTrue inRange =>
        cases mapped
        refine ⟨now, (word s.sourceIp sourceIdBase).setWidth 64, ?_, ?_, rfl⟩
        · simp only [readSelected, sourceAt_of_lt inRange]
        · rw [BitVec.setWidth_setWidth_of_le _ (by decide), BitVec.setWidth_eq, word_eq _ whole]
  | enable targetId sourceIdBase =>
      simp only [Selected.register] at mapped
      split at mapped
      case isFalse => cases mapped
      case isTrue inRange =>
        cases mapped
        refine ⟨now, (word (s.ie ⟨targetId.toNat, inRange.2⟩) sourceIdBase).setWidth 64, ?_, ?_,
          rfl⟩
        · simp only [readSelected, sourceAt_of_lt inRange.1, targetAt_of_lt inRange.2]
        · rw [BitVec.setWidth_setWidth_of_le _ (by decide), BitVec.setWidth_eq, word_eq _ whole]
  | threshold targetId =>
      simp only [Selected.register] at mapped
      split at mapped
      case isFalse => cases mapped
      case isTrue inRange =>
        cases mapped
        refine ⟨now, (s.targetThreshold ⟨targetId.toNat, inRange⟩).setWidth 64, ?_, ?_, rfl⟩
        · simp only [readSelected, targetAt_of_lt inRange]
        · rw [BitVec.setWidth_setWidth_of_le _ (by decide)]
  | claim targetId =>
      simp only [Selected.register] at mapped
      split at mapped
      case isFalse => cases mapped
      case isTrue inRange =>
        cases mapped
        have best := isClaim_maxId s ⟨targetId.toNat, inRange⟩
        refine ⟨taken now (fnTargetMaxPrioAndMaxId s ⟨targetId.toNat, inRange⟩).2,
          BitVec.ofNat 64 (fnTargetMaxPrioAndMaxId s ⟨targetId.toNat, inRange⟩).2.val,
          ?_, _, best, ?_, rfl⟩
        · simp only [readSelected, targetAt_of_lt inRange]
          by_cases nothing : (fnTargetMaxPrioAndMaxId s ⟨targetId.toNat, inRange⟩).2 = 0
          · rw [if_neg (not_not.mpr nothing), taken, if_pos nothing, nothing]
            rfl
          · rw [if_pos nothing, taken, if_neg nothing]
        · rw [BitVec.setWidth_ofNat_of_le (by decide)]

theorem writeBit_apply (v : SourceId p → Bool) {base : BitVec 10} (whole : 32 ∣ base.toNat)
    (data : BitVec 32) (id : SourceId p) {k : Nat} (small : k < 32) :
    writeBit base data v k id = if id.val = base.toNat + k then data.getLsbD k else v id := by
  rw [writeBit, toNat_base_add whole small]
  by_cases inRange : base.toNat + k < p.nExternalSources + 1
  · simp only [sourceAt_of_lt inRange, Function.update_apply, Fin.ext_iff]
  · have idBound := id.isLt
    rw [sourceAt_of_ge inRange, if_neg (by omega)]

theorem writeWord_prefix (v : SourceId p → Bool) {base : BitVec 10} (whole : 32 ∣ base.toNat)
    (data : BitVec 32) (id : SourceId p) {n : Nat} (bound : n ≤ 32) :
    (List.range n).foldl (writeBit base data) v id =
      if base.toNat ≤ id.val ∧ id.val < base.toNat + n then data.getLsbD (id.val - base.toNat)
      else v id := by
  induction n with
  | zero =>
      rw [if_neg (by omega)]
      rfl
  | succ n ih =>
      rw [List.range_succ, List.foldl_append, List.foldl_cons, List.foldl_nil,
        writeBit_apply _ whole data id (by omega), ih (by omega)]
      by_cases here : id.val = base.toNat + n
      · rw [if_pos here, if_pos (by omega), here, Nat.add_sub_cancel_left]
      · rw [if_neg here]
        congr 1
        rw [eq_iff_iff]
        omega

theorem writeWord_eq (v : SourceId p → Bool) {base : BitVec 10} (whole : 32 ∣ base.toNat)
    (data : BitVec 32) :
    writeWord v base data = fun id =>
      if id.val / 32 = base.toNat / 32 then data.getLsbD (id.val % 32) else v id := by
  funext id
  rw [writeWord, writeWord_prefix v whole data id (Nat.le_refl 32)]
  by_cases inside : id.val / 32 = base.toNat / 32
  · rw [if_pos inside, if_pos (by omega)]
    congr 1
    omega
  · rw [if_neg inside, if_neg (by omega)]

theorem writeSelected_none (s : State p) (data : BitVec 32) {sel : Selected}
    (unmapped : sel.register p = none) : writeSelected s data sel = none := by
  cases sel with
  | priority sourceId =>
      simp only [Selected.register, dite_eq_right_iff, reduceCtorEq, imp_false] at unmapped
      by_cases inRange : sourceId.toNat < p.nExternalSources + 1
      · have zero : ¬ 0 < sourceId := fun positive => unmapped ⟨positive, inRange⟩
        simp only [writeSelected, sourceAt_of_lt inRange, if_neg zero]
      · simp only [writeSelected, sourceAt_of_ge inRange]
  | pending sourceIdBase =>
      simp only [Selected.register, dite_eq_right_iff, reduceCtorEq, imp_false] at unmapped
      simp only [writeSelected, sourceAt_of_ge unmapped]
  | enable targetId sourceIdBase =>
      simp only [Selected.register, dite_eq_right_iff, reduceCtorEq, imp_false] at unmapped
      by_cases inRange : sourceIdBase.toNat < p.nExternalSources + 1
      · have outside : ¬ targetId.toNat < p.nTargets := fun target => unmapped ⟨inRange, target⟩
        simp only [writeSelected, sourceAt_of_lt inRange, targetAt_of_ge outside]
      · simp only [writeSelected, sourceAt_of_ge inRange]
  | threshold targetId | claim targetId =>
      simp only [Selected.register, dite_eq_right_iff, reduceCtorEq, imp_false] at unmapped
      simp only [writeSelected, targetAt_of_ge unmapped]

/-- The code's completion looks at ten bits of the word written.  They name the same source
unless they name one that the target has enabled and the word names none. -/
def CompletionFits (s : State p) (data : BitVec 32) (r : Register p) : Prop :=
  ∀ t id, r = .claim t → s.ie t id = true → data.toNat % 1024 = id.val → data.toNat < 1024

theorem completion_eq (s : State p) (data : BitVec 32) (t : TargetId p)
    (fits : ∀ id, s.ie t id = true → data.toNat % 1024 = id.val → data.toNat < 1024) :
    (match sourceAt p (data.toNat % 1024) with
      | some id =>
          if s.ie t id then
            some { s with sourceBusy := Function.update s.sourceBusy id false }
          else some s
      | none => some s) = some (written s data (.claim t)) := by
  have sourcesFit := p.sourcesFit
  have unnamed (none : ∀ id, s.ie t id = true → data.toNat ≠ id.val) :
      written s data (.claim t) = s := by
    have unchanged : (fun id => s.sourceBusy id && !(s.ie t id && id.val == data.toNat)) =
        s.sourceBusy := by
      funext id
      cases enabled : s.ie t id with
      | false => simp
      | true =>
          have other : (id.val == data.toNat) = false := by
            simpa using fun same : id.val = data.toNat => none id enabled same.symm
          rw [other, Bool.and_false, Bool.not_false, Bool.and_true]
    simp only [written, unchanged]
  by_cases inRange : data.toNat % 1024 < p.nExternalSources + 1
  · rw [sourceAt_of_lt inRange]
    cases enabled : s.ie t ⟨data.toNat % 1024, inRange⟩ with
    | false =>
        rw [unnamed]
        · simp [enabled]
        · intro id enabled' same
          have idBound := id.isLt
          have here : (⟨data.toNat % 1024, inRange⟩ : SourceId p) = id :=
            Fin.ext (by simp only [same]; omega)
          rw [here, enabled'] at enabled
          cases enabled
    | true =>
        have small := fits _ enabled rfl
        have freed : Function.update s.sourceBusy ⟨data.toNat % 1024, inRange⟩ false =
            fun id => s.sourceBusy id && !(s.ie t id && id.val == data.toNat) := by
          funext id
          by_cases here : id = ⟨data.toNat % 1024, inRange⟩
          · subst here
            have same : (data.toNat % 1024 == data.toNat) = true := by
              rw [beq_iff_eq]
              omega
            rw [Function.update_self, enabled, same]
            simp
          · have other : (id.val == data.toNat) = false := by
              rw [beq_eq_false_iff_ne]
              exact fun same => here (Fin.ext (by simp only [same]; omega))
            rw [Function.update_of_ne here, other]
            simp
        simp only [enabled, if_true, written, freed]
  · rw [sourceAt_of_ge inRange, unnamed]
    intro id _ same
    have idBound := id.isLt
    omega

theorem writeSelected_some (s : State p) (data : BitVec 32) {sel : Selected} {r : Register p}
    (whole : sel.Whole) (mapped : sel.register p = some r) (fits : CompletionFits s data r) :
    writeSelected s data sel = some (written s data r) := by
  cases sel with
  | priority sourceId =>
      simp only [Selected.register] at mapped
      split at mapped
      case isFalse => cases mapped
      case isTrue inRange =>
        cases mapped
        have same : (⟨sourceId.toNat, inRange.2⟩ : SourceId p) =
            (⟨sourceId.toNat - 1, by omega⟩ : Fin p.nExternalSources).succ :=
          Fin.ext (by simp only [Fin.val_succ]; omega)
        simp only [writeSelected, sourceAt_of_lt inRange.2, written, same]
        exact if_pos inRange.1
  | pending sourceIdBase =>
      simp only [Selected.register] at mapped
      split at mapped
      case isFalse => cases mapped
      case isTrue inRange =>
        cases mapped
        simp only [writeSelected, sourceAt_of_lt inRange, written]
  | enable targetId sourceIdBase =>
      simp only [Selected.register] at mapped
      split at mapped
      case isFalse => cases mapped
      case isTrue inRange =>
        cases mapped
        simp only [writeSelected, sourceAt_of_lt inRange.1, targetAt_of_lt inRange.2, written,
          writeWord_eq _ whole]
  | threshold targetId =>
      simp only [Selected.register] at mapped
      split at mapped
      case isFalse => cases mapped
      case isTrue inRange =>
        cases mapped
        simp only [writeSelected, targetAt_of_lt inRange, written]
  | claim targetId =>
      simp only [Selected.register] at mapped
      split at mapped
      case isFalse => cases mapped
      case isTrue inRange =>
        cases mapped
        simp only [writeSelected, targetAt_of_lt inRange, BitVec.toNat_setWidth, Nat.reducePow]
        exact completion_eq s data _ fun id => fits _ id rfl

end Toooba.Plic
