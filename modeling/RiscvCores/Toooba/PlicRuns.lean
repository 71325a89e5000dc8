import RiscvCores.Toooba.PlicDecode

/-!
# Runs of the interrupt controller

What the bus and the targets see of a run in which every access falls where the decoder
and the map agree.
-/

set_option autoImplicit false

namespace Toooba.Plic

variable {p : Params}

/-- The 32 bits of the data channel that a 4-byte access uses. -/
def lane32 (addr : Addr) (data : BitVec p.wdData) : BitVec 32 :=
  if p.wdData = 64 ∧ addr.toNat % 8 = 4 then data.extractLsb' 32 32 else data.extractLsb' 0 32

/-- What the manual has the bus see of a read. -/
structure ReadServed (base : Addr) (s now : State p) (rda : RdAddr) (d : RdData p)
    (after : State p) : Prop where
  rid : d.rid = rda.arid
  mapped : ∀ r : Register p, r.At base rda.araddr →
    d.rresp = .okay ∧ Reads s now (lane32 rda.araddr d.rdata) after r
  unmapped : (∀ r : Register p, ¬ r.At base rda.araddr) → d.rresp ≠ .okay ∧ after = now

structure WriteServed (base : Addr) (s : State p) (wr : WrReq p) (b : WrResp)
    (after : State p) : Prop where
  bid : b.bid = wr.awid
  mapped : ∀ r : Register p, r.At base wr.awaddr →
    b.bresp = .okay ∧ after = written s (lane32 wr.awaddr wr.wdata) r
  unmapped : (∀ r : Register p, ¬ r.At base wr.awaddr) → b.bresp ≠ .okay ∧ after = s

/-- The block starts on a boundary of the bus. -/
def Placed (p : Params) (base : Addr) : Prop := p.wdData / 8 ∣ base.toNat

def DecodesAt (p : Params) (base addr : Addr) : Prop :=
  base.toNat ≤ addr.toNat → Decodes p (addr.toNat - base.toNat)

/-- Both accesses fall where decoder and map agree, and a completion whose ten low bits name
a source that the target has enabled names that source. -/
structure Inputs.Proper (base : Addr) (s : State p) (i : Inputs p) : Prop where
  read : ∀ rda ∈ i.rdAddr, DecodesAt p base rda.araddr
  write : ∀ wr ∈ i.wrReq, DecodesAt p base wr.awaddr
  completion : ∀ wr ∈ i.wrReq, ∀ r : Register p, r.At base wr.awaddr →
    CompletionFits s (lane32 wr.awaddr wr.wdata) r

/-! ## One access -/

section Access

variable {base : Addr}

theorem Placed.four_dvd (placed : Placed p base) : 4 ∣ base.toNat := by
  unfold Placed at placed
  rcases p.bus with bus | bus <;> rw [bus] at placed <;> omega

theorem toNat_sub_base {addr : Addr} (inside : ¬ addr < base) :
    (addr - base).toNat = addr.toNat - base.toNat :=
  BitVec.toNat_sub_of_le (BitVec.not_lt.mp inside)

theorem upperLane_eq (placed : Placed p base) {addr : Addr} (inside : ¬ addr < base) :
    upperLane p (addr - base) = decide (p.wdData = 64 ∧ addr.toNat % 8 = 4) := by
  have inside' : base.toNat ≤ addr.toNat := Nat.not_lt.mp inside
  have low : ((addr - base) &&& 7 == 4) = decide ((addr.toNat - base.toNat) % 8 = 4) := by
    rw [Bool.eq_iff_iff, beq_iff_eq, decide_eq_true_iff, ← BitVec.toNat_inj, BitVec.toNat_and,
      toNat_sub_base inside]
    exact iff_of_eq (congrArg (· = 4) (Nat.and_two_pow_sub_one_eq_mod _ 3))
  rw [upperLane, low, Bool.eq_iff_iff]
  simp only [Bool.and_eq_true, beq_iff_eq, decide_eq_true_eq]
  refine and_congr_right fun bus => ?_
  unfold Placed at placed
  rw [bus] at placed
  omega

/-- The rule puts the word on the lane of the access. -/
theorem lane32_rdata (addr : Addr) (rdata : BitVec 64) :
    lane32 addr ((if decide (p.wdData = 64 ∧ addr.toNat % 8 = 4) then
        rdata.extractLsb' 0 32 ++ 0#32 else rdata).setWidth p.wdData) = rdata.setWidth 32 := by
  have wide : 32 ≤ p.wdData := by
    rcases p.bus with bus | bus <;> omega
  apply BitVec.eq_of_getLsbD_eq
  intro k small
  unfold lane32
  by_cases upper : p.wdData = 64 ∧ addr.toNat % 8 = 4
  · have fits : 32 + k < p.wdData := by omega
    rw [if_pos upper, if_pos (decide_eq_true upper), BitVec.getLsbD_extractLsb',
      BitVec.getLsbD_setWidth, BitVec.getLsbD_append, if_neg (by omega : ¬ 32 + k < 32),
      Nat.add_sub_cancel_left, BitVec.getLsbD_extractLsb', BitVec.getLsbD_setWidth]
    simp [small, fits]
  · have fits : k < p.wdData := by omega
    rw [if_neg upper, if_neg (by simpa using upper), BitVec.getLsbD_extractLsb',
      BitVec.getLsbD_setWidth, BitVec.getLsbD_setWidth]
    simp [small, fits]

/-- An access of the block names the register that the code serves. -/
theorem decoded_iff_at (placed : Placed p base) {addr : Addr} (aligned : 4 ∣ addr.toNat)
    (decodes : DecodesAt p base addr) (inside : ¬ addr < base) (r : Register p) :
    decoded p (addr - base) = some r ↔ r.At base addr := by
  have inside' : base.toNat ≤ addr.toNat := Nat.not_lt.mp inside
  have aligned' : 4 ∣ addr.toNat - base.toNat := Nat.dvd_sub aligned placed.four_dvd
  rw [decoded_iff, toNat_sub_base inside, (decodes inside').served_iff aligned', Register.At]
  omega

theorem not_at_of_lt {addr : Addr} (below : addr < base) (r : Register p) :
    ¬ r.At base addr := by
  have below' : addr.toNat < base.toNat := below
  unfold Register.At
  omega

theorem rlProcessRdReq_served (placed : Placed p base) (s now : State p) {rda : RdAddr}
    (aligned : 4 ∣ rda.araddr.toNat) (decodes : DecodesAt p base rda.araddr) :
    ReadServed base s now rda (rlProcessRdReq base s now rda).2
      (rlProcessRdReq base s now rda).1 := by
  unfold rlProcessRdReq
  by_cases below : rda.araddr < base
  · simp only [if_pos below]
    exact ⟨rfl, fun r located => absurd located (not_at_of_lt below r), fun _ => ⟨nofun, rfl⟩⟩
  · have names := decoded_iff_at placed aligned decodes below
    simp only [if_neg below, upperLane_eq placed below]
    unfold decoded at names
    cases selects : select (rda.araddr - base) with
    | none =>
        have nowhere (r : Register p) : ¬ r.At base rda.araddr := by
          rw [← names, selects]
          nofun
        exact ⟨rfl, fun r located => absurd located (nowhere r), fun _ => ⟨nofun, rfl⟩⟩
    | some sel =>
        rw [selects, Option.bind_some] at names
        rw [Option.bind_some]
        cases registers : sel.register p with
        | none =>
            have nowhere (r : Register p) : ¬ r.At base rda.araddr := by
              rw [← names, registers]
              nofun
            rw [readSelected_none s now registers]
            exact ⟨rfl, fun r located => absurd located (nowhere r), fun _ => ⟨nofun, rfl⟩⟩
        | some r =>
            have here := (names r).mp registers
            obtain ⟨after, rdata, reads, returns⟩ :=
              readSelected_some s now (select_whole selects) registers
            rw [reads]
            refine ⟨rfl, fun r' located => ⟨rfl, ?_⟩, fun nowhere => absurd here (nowhere r)⟩
            obtain rfl : r = r' := Option.some.inj (registers.symm.trans ((names r').mpr located))
            rwa [lane32_rdata]

theorem rlProcessWrReq_served (placed : Placed p base) (s : State p) {wr : WrReq p}
    (aligned : 4 ∣ wr.awaddr.toNat) (decodes : DecodesAt p base wr.awaddr)
    (fits : ∀ r : Register p, r.At base wr.awaddr →
      CompletionFits s (lane32 wr.awaddr wr.wdata) r) :
    WriteServed base s wr (rlProcessWrReq base s wr).2 (rlProcessWrReq base s wr).1 := by
  unfold rlProcessWrReq
  by_cases below : wr.awaddr < base
  · simp only [if_pos below]
    exact ⟨rfl, fun r located => absurd located (not_at_of_lt below r), fun _ => ⟨nofun, rfl⟩⟩
  · have names := decoded_iff_at placed aligned decodes below
    have lane : (if upperLane p (wr.awaddr - base) then wr.wdata.extractLsb' 32 32
        else wr.wdata.extractLsb' 0 32) = lane32 wr.awaddr wr.wdata := by
      rw [upperLane_eq placed below, lane32]
      simp only [decide_eq_true_eq]
    simp only [if_neg below, lane]
    unfold decoded at names
    cases selects : select (wr.awaddr - base) with
    | none =>
        have nowhere (r : Register p) : ¬ r.At base wr.awaddr := by
          rw [← names, selects]
          nofun
        exact ⟨rfl, fun r located => absurd located (nowhere r), fun _ => ⟨nofun, rfl⟩⟩
    | some sel =>
        rw [selects, Option.bind_some] at names
        rw [Option.bind_some]
        cases registers : sel.register p with
        | none =>
            have nowhere (r : Register p) : ¬ r.At base wr.awaddr := by
              rw [← names, registers]
              nofun
            rw [writeSelected_none s _ registers]
            exact ⟨rfl, fun r located => absurd located (nowhere r), fun _ => ⟨nofun, rfl⟩⟩
        | some r =>
            have here := (names r).mp registers
            rw [writeSelected_some s _ (select_whole selects) registers (fits r here)]
            refine ⟨rfl, fun r' located => ⟨rfl, ?_⟩, fun nowhere => absurd here (nowhere r)⟩
            obtain rfl : r = r' := Option.some.inj (registers.symm.trans ((names r').mpr located))
            rfl

end Access

/-! ## One cycle -/

/-- The machine whose accesses are all proper. -/
def properMachine (p : Params) (base : Addr) : Clocked.Machine (State p) (Inputs p) :=
  (machine p base).restrict fun _ s i => i.Proper base s

section Cycle

variable {base : Addr} {s : State p} {i : Inputs p}

theorem read_served (placed : Placed p base) (aligned : i.Aligned) (proper : i.Proper base s)
    {rda : RdAddr} (asked : rda ∈ i.rdAddr) :
    ∃ d ∈ rdData base s i,
      ReadServed base s (interruptReq s i.setNotClear) rda d (afterRead base s i) := by
  have here : i.rdAddr = some rda := asked
  have served := rlProcessRdReq_served placed s (interruptReq s i.setNotClear)
    (aligned.1 rda asked) (proper.read rda asked)
  refine ⟨_, Option.mem_def.mpr (by rw [rdData, here, Option.map_some]), ?_⟩
  rwa [afterRead, here]

theorem write_served (placed : Placed p base) (aligned : i.Aligned) (proper : i.Proper base s)
    (sameIe : (afterRead base s i).ie = s.ie) {wr : WrReq p} (asked : wr ∈ i.wrReq) :
    ∃ b ∈ wrResp base s i, WriteServed base (afterRead base s i) wr b (next base s i) := by
  have here : i.wrReq = some wr := asked
  have fits : ∀ r : Register p, r.At base wr.awaddr →
      CompletionFits (afterRead base s i) (lane32 wr.awaddr wr.wdata) r := by
    intro r located t id isClaim enabled
    exact proper.completion wr asked r located t id isClaim (by rwa [← sameIe])
  have served := rlProcessWrReq_served placed (afterRead base s i) (aligned.2 wr asked)
    (proper.write wr asked) fits
  refine ⟨_, Option.mem_def.mpr (by rw [wrResp, here, Option.map_some]), ?_⟩
  rwa [next, here]

/-- A read of a claim register in which the bus sees `id`. -/
def ClaimReturns (base : Addr) (c : State p × Inputs p) (t : TargetId p) (id : SourceId p) :
    Prop :=
  ∃ rda ∈ c.2.rdAddr, (Register.claim t).At base rda.araddr ∧
    ∃ d ∈ rdData base c.1 c.2, lane32 rda.araddr d.rdata = BitVec.ofNat 32 id.val

/-- A write of `id` to the claim register of a target that has it enabled. -/
def Completes (base : Addr) (c : State p × Inputs p) (id : SourceId p) : Prop :=
  ∃ t, ∃ wr ∈ c.2.wrReq, (Register.claim t).At base wr.awaddr ∧
    (lane32 wr.awaddr wr.wdata).toNat = id.val ∧ c.1.ie t id = true

theorem ofNat_id_inj {id id' : SourceId p}
    (same : BitVec.ofNat 32 id.val = BitVec.ofNat 32 id'.val) : id = id' := by
  have bound := id.isLt
  have bound' := id'.isLt
  have sourcesFit := p.sourcesFit
  have values := congrArg BitVec.toNat same
  rw [BitVec.toNat_ofNat, BitVec.toNat_ofNat] at values
  exact Fin.ext (by omega)

theorem Reads.after_cases {s now after : State p} {data : BitVec 32} {r : Register p}
    (reads : Reads s now data after r) :
    after = now ∨ ∃ t id, r = .claim t ∧ IsClaim s t id ∧ data = BitVec.ofNat 32 id.val ∧
      after = taken now id := by
  cases r with
  | priority k => exact .inl reads.2
  | pending k => exact .inl reads.2
  | enable t k => exact .inl reads.2
  | threshold t => exact .inl reads.2
  | claim t =>
      obtain ⟨id, best, word, after⟩ := reads
      exact .inr ⟨t, id, rfl, best, word, after⟩

/-- All that the read rule can do: nothing, or a claim that the bus sees. -/
theorem afterRead_cases (placed : Placed p base) (aligned : i.Aligned)
    (proper : i.Proper base s) :
    afterRead base s i = interruptReq s i.setNotClear ∨
      ∃ t id, IsClaim s t id ∧ ClaimReturns base (s, i) t id ∧
        afterRead base s i = taken (interruptReq s i.setNotClear) id := by
  cases asked : i.rdAddr with
  | none =>
      left
      rw [afterRead, asked]
  | some rda =>
      obtain ⟨d, answer, served⟩ := read_served placed aligned proper asked
      by_cases located : ∃ r : Register p, r.At base rda.araddr
      · obtain ⟨r, here⟩ := located
        rcases (served.mapped r here).2.after_cases with same | ⟨t, id, rfl, best, word, after⟩
        · exact .inl same
        · exact .inr ⟨t, id, best, ⟨rda, asked, here, d, answer, word⟩, after⟩
      · exact .inl (served.unmapped (not_exists.mp located)).2

/-- A claim that the bus sees did take the source. -/
theorem ClaimReturns.taken {t : TargetId p} {id : SourceId p} (placed : Placed p base)
    (aligned : i.Aligned) (proper : i.Proper base s) (returns : ClaimReturns base (s, i) t id) :
    IsClaim s t id ∧ afterRead base s i = Plic.taken (interruptReq s i.setNotClear) id := by
  obtain ⟨rda, asked, here, d, answer, word⟩ := returns
  obtain ⟨d', answer', served⟩ := read_served placed aligned proper asked
  obtain rfl : d = d' := Option.mem_unique answer answer'
  obtain ⟨id', best, word', after⟩ := (served.mapped _ here).2
  obtain rfl : id = id' := ofNat_id_inj (word.symm.trans word')
  exact ⟨best, after⟩

@[simp] theorem taken_ie (now : State p) (id : SourceId p) : (taken now id).ie = now.ie := by
  unfold taken
  split <;> rfl

theorem afterRead_ie (placed : Placed p base) (aligned : i.Aligned) (proper : i.Proper base s) :
    (afterRead base s i).ie = s.ie := by
  rcases afterRead_cases placed aligned proper with same | ⟨t, id, -, -, after⟩
  · rw [same]
    rfl
  · rw [after, taken_ie]
    rfl

/-- All that the write rule can do. -/
theorem next_cases (placed : Placed p base) (aligned : i.Aligned) (proper : i.Proper base s) :
    next base s i = afterRead base s i ∨
      ∃ wr ∈ i.wrReq, ∃ r : Register p, r.At base wr.awaddr ∧
        next base s i = written (afterRead base s i) (lane32 wr.awaddr wr.wdata) r := by
  cases asked : i.wrReq with
  | none =>
      left
      rw [next, asked]
  | some wr =>
      have sameIe := afterRead_ie placed aligned proper
      obtain ⟨b, -, served⟩ := write_served placed aligned proper sameIe asked
      by_cases located : ∃ r : Register p, r.At base wr.awaddr
      · obtain ⟨r, here⟩ := located
        exact .inr ⟨wr, rfl, r, here, (served.mapped r here).2⟩
      · exact .inl (served.unmapped (not_exists.mp located)).2

/-! ## Pending and in service -/

/-- No source is both pending and in service. -/
def Exclusive (s : State p) : Prop := ∀ id, s.sourceIp id = true → s.sourceBusy id = false

theorem Exclusive.interruptReq (exclusive : Exclusive s)
    (setNotClear : Fin p.nExternalSources → Bool) :
    Exclusive (interruptReq s setNotClear) := by
  intro id
  cases id using Fin.cases with
  | zero => exact exclusive 0
  | succ k =>
      intro pending
      by_contra busy
      have busy' : s.sourceBusy k.succ = true := Bool.not_eq_false _ ▸ busy
      simp only [Plic.interruptReq, Fin.cases_succ, busy', if_true] at pending
      rw [exclusive k.succ pending] at busy'
      cases busy'

theorem Exclusive.taken (exclusive : Exclusive s) (id : SourceId p) : Exclusive (taken s id) := by
  unfold Plic.taken
  split
  · exact exclusive
  · intro id' pending
    by_cases here : id' = id
    · subst here
      simp at pending
    · simp only [Function.update_of_ne here] at pending ⊢
      exact exclusive id' pending

theorem Exclusive.written (exclusive : Exclusive s) (data : BitVec 32) (r : Register p) :
    Exclusive (written s data r) := by
  cases r with
  | claim t =>
      intro id pending
      have free := exclusive id pending
      simp only [Plic.written, free, Bool.false_and]
  | priority k => exact exclusive
  | pending k => exact exclusive
  | enable t k => exact exclusive
  | threshold t => exact exclusive

theorem Exclusive.next (placed : Placed p base) (aligned : i.Aligned) (proper : i.Proper base s)
    (exclusive : Exclusive s) : Exclusive (next base s i) := by
  have sampled := exclusive.interruptReq i.setNotClear
  have read : Exclusive (afterRead base s i) := by
    rcases afterRead_cases placed aligned proper with same | ⟨t, id, -, -, after⟩
    · rwa [same]
    · rw [after]
      exact sampled.taken id
  rcases next_cases placed aligned proper with same | ⟨wr, -, r, -, after⟩
  · rwa [same]
  · rw [after]
    exact read.written _ r

theorem busy_afterRead (placed : Placed p base) (aligned : i.Aligned) (proper : i.Proper base s)
    {id : SourceId p} (busy : s.sourceBusy id = true) :
    (afterRead base s i).sourceBusy id = true := by
  rcases afterRead_cases placed aligned proper with same | ⟨t, other, -, -, after⟩
  · rwa [same]
  · rw [after, taken]
    split
    · exact busy
    · by_cases here : id = other
      · subst here
        exact Function.update_self ..
      · exact (Function.update_of_ne here _ _).trans busy

/-- Only a completion ends the service of a source. -/
theorem busy_next (placed : Placed p base) (aligned : i.Aligned) (proper : i.Proper base s)
    {id : SourceId p} (busy : (afterRead base s i).sourceBusy id = true)
    (uncompleted : ¬ Completes base (s, i) id) : (next base s i).sourceBusy id = true := by
  rcases next_cases placed aligned proper with same | ⟨wr, asked, r, here, after⟩
  · rwa [same]
  · rw [after]
    cases r with
    | claim t =>
        have kept : ((afterRead base s i).ie t id &&
            id.val == (lane32 wr.awaddr wr.wdata).toNat) = false := by
          rw [afterRead_ie placed aligned proper, Bool.and_eq_false_iff, beq_eq_false_iff_ne,
            ← Bool.not_eq_true, ← not_and_or]
          rintro ⟨enabled, named⟩
          exact uncompleted ⟨t, wr, asked, here, named.symm, enabled⟩
        simp only [written, busy, kept, Bool.not_false, Bool.and_true]
    | priority k => exact busy
    | pending k => exact busy
    | enable t k => exact busy
    | threshold t => exact busy

/-! ## Registers that keep what was written -/

/-- What the registers for priorities, enable bits and thresholds hold. -/
def stored (s : State p) : Register p → Option (BitVec 32)
  | .priority k => some ((s.sourcePrio k.succ).setWidth 32)
  | .enable t k => some (sourceBits (s.ie t) k)
  | .threshold t => some ((s.targetThreshold t).setWidth 32)
  | .pending _ | .claim _ => none

theorem sourceBits_congr {v v' : SourceId p → Bool} {k : Nat}
    (same : ∀ id : SourceId p, id.val / 32 = k → v id = v' id) :
    sourceBits v k = sourceBits v' k := by
  unfold sourceBits
  congr 1
  funext b
  split
  · exact same _ (by simp only; omega)
  · rfl

theorem stored_written (s : State p) (data : BitVec 32) {r r' : Register p} (other : r ≠ r') :
    stored (written s data r') r = stored s r := by
  cases r' with
  | pending k => rfl
  | claim t => rfl
  | priority k =>
      cases r with
      | priority k' =>
          have apart : k'.succ ≠ k.succ :=
            fun same => other (congrArg Register.priority (Fin.succ_inj.mp same))
          simp only [stored, written, Function.update_of_ne apart]
      | pending k' => rfl
      | enable t k' => rfl
      | threshold t => rfl
      | claim t => rfl
  | threshold t =>
      cases r with
      | threshold t' =>
          have apart : t' ≠ t := fun same => other (congrArg Register.threshold same)
          simp only [stored, written, Function.update_of_ne apart]
      | priority k' => rfl
      | pending k' => rfl
      | enable t k' => rfl
      | claim t => rfl
  | enable t k =>
      cases r with
      | enable t' k' =>
          by_cases same : t' = t
          · subst same
            have apart : k'.val ≠ k.val := by
              intro equal
              exact other (congrArg (Register.enable t') (Fin.ext equal))
            simp only [stored, written, Function.update_self]
            rw [sourceBits_congr]
            intro id inWord
            rw [if_neg (by omega)]
          · simp only [stored, written, Function.update_of_ne same]
      | priority k' => rfl
      | pending k' => rfl
      | threshold t' => rfl
      | claim t' => rfl

theorem stored_next (placed : Placed p base) (aligned : i.Aligned) (proper : i.Proper base s)
    (r : Register p) :
    stored (next base s i) r = stored s r ∨ ∃ wr ∈ i.wrReq, r.At base wr.awaddr := by
  have read : stored (afterRead base s i) r = stored s r := by
    rcases afterRead_cases placed aligned proper with same | ⟨t, id, -, -, after⟩
    · rw [same]
      cases r <;> rfl
    · rw [after, taken]
      split <;> cases r <;> rfl
  rcases next_cases placed aligned proper with same | ⟨wr, asked, r', here, after⟩
  · left
    rw [same, read]
  · by_cases equal : r = r'
    · subst equal
      exact .inr ⟨wr, asked, here⟩
    · left
      rw [after, stored_written _ _ equal, read]

end Cycle

/-! ## Runs -/

abbrev History (p : Params) := List (State p × Inputs p)

/-- What the interrupt controller promises of the run `cycles` that ends in `s`. -/
structure Conforms (base : Addr) (cycles : History p) (s : State p) : Prop where
  exclusive : ∀ id, ¬ (s.sourceIp id = true ∧ s.sourceBusy id = true)
  notAgain : ∀ before first during later after t t' id,
    cycles = before ++ first :: (during ++ later :: after) → id ≠ 0 →
    ClaimReturns base first t id → ClaimReturns base later t' id →
    ∃ c ∈ first :: during, Completes base c id
  claim : ∀ c ∈ cycles, ∀ t, ∀ rda ∈ c.2.rdAddr, (Register.claim t).At base rda.araddr →
    ∃ id, IsClaim c.1 t id ∧ ClaimReturns base c t id
  eip : ∀ t, mEip s t = true ↔ ∃ id, Eligible s t id ∧ s.targetThreshold t < s.sourcePrio id
  read : ∀ c ∈ cycles, ∀ rda ∈ c.2.rdAddr, ∃ d ∈ rdData base c.1 c.2,
    ReadServed base c.1 (interruptReq c.1 c.2.setNotClear) rda d (afterRead base c.1 c.2)
  write : ∀ c ∈ cycles, ∀ wr ∈ c.2.wrReq, ∃ b ∈ wrResp base c.1 c.2,
    WriteServed base (afterRead base c.1 c.2) wr b (next base c.1 c.2)
  enables : ∀ c ∈ cycles, ∀ wr ∈ c.2.wrReq, ∀ t k, (Register.enable t k).At base wr.awaddr →
    ∀ id, id.val / 32 = k.val →
      (next base c.1 c.2).ie t id = (lane32 wr.awaddr wr.wdata).getLsbD (id.val % 32)
  apart : ∀ c ∈ cycles, ∀ r : Register p, stored (next base c.1 c.2) r = stored c.1 r ∨
    ∃ wr ∈ c.2.wrReq, r.At base wr.awaddr

section Runs

variable {base : Addr} {cycles : History p} {s : State p}

theorem exclusive_run (placed : Placed p base) (run : (properMachine p base).Run cycles s) :
    Exclusive s := by
  induction run with
  | reset =>
      intro id pending
      cases pending
  | cycle _ allowed ih => exact ih.next placed allowed.1 allowed.2

/-- A cycle of the run is one of the machine with proper accesses. -/
theorem proper_of_mem (run : (properMachine p base).Run cycles s) {c : State p × Inputs p}
    (member : c ∈ cycles) : c.2.Aligned ∧ c.2.Proper base c.1 := by
  obtain ⟨before, after, rfl⟩ := List.append_of_mem member
  exact run.at_cycle.2

theorem not_again_of_run (placed : Placed p base)
    {before during after : History p} {first later : State p × Inputs p}
    (run : (properMachine p base).Run (before ++ first :: (during ++ later :: after)) s)
    {t t' : TargetId p} {id : SourceId p} (real : id ≠ 0)
    (claimed : ClaimReturns base first t id) (again : ClaimReturns base later t' id) :
    ∃ c ∈ first :: during, Completes base c id := by
  by_contra none
  have uncompleted : ∀ c ∈ first :: during, ¬ Completes base c id :=
    fun c member completes => none ⟨c, member, completes⟩
  obtain ⟨-, alignedFirst, properFirst⟩ := run.at_cycle
  have split : before ++ first :: (during ++ later :: after) =
      (before ++ first :: during) ++ later :: after := by simp
  rw [split] at run
  obtain ⟨earlier, alignedLater, properLater⟩ := run.at_cycle
  have start : (next base first.1 first.2).sourceBusy id = true := by
    refine busy_next placed alignedFirst properFirst ?_ (uncompleted first List.mem_cons_self)
    rw [(claimed.taken placed alignedFirst properFirst).2, taken, if_neg real]
    exact Function.update_self ..
  have busy : later.1.sourceBusy id = true := by
    refine earlier.lasts (fun s => s.sourceBusy id = true) (fun c => Completes base c id)
      (fun _ c _ allowed held goes => ?_) start
      fun c member => uncompleted c (List.mem_cons_of_mem _ member)
    exact busy_next placed allowed.1 allowed.2 (busy_afterRead placed allowed.1 allowed.2 held)
      goes
  have pending : later.1.sourceIp id = true := by
    rcases (again.taken placed alignedLater properLater).1 with ⟨zero, -⟩ | ⟨eligible, -⟩
    · exact absurd zero real
    · exact eligible.2.1
  rw [exclusive_run placed earlier id pending] at busy
  cases busy

theorem claim_of_mem (placed : Placed p base) (run : (properMachine p base).Run cycles s)
    {c : State p × Inputs p} (member : c ∈ cycles) {t : TargetId p} {rda : RdAddr}
    (asked : rda ∈ c.2.rdAddr) (located : (Register.claim t).At base rda.araddr) :
    ∃ id, IsClaim c.1 t id ∧ ClaimReturns base c t id := by
  obtain ⟨aligned, proper⟩ := proper_of_mem run member
  obtain ⟨d, answer, served⟩ := read_served placed aligned proper asked
  obtain ⟨id, best, word, -⟩ := (served.mapped _ located).2
  exact ⟨id, best, rda, asked, located, d, answer, word⟩

theorem write_of_mem (placed : Placed p base) (run : (properMachine p base).Run cycles s)
    {c : State p × Inputs p} (member : c ∈ cycles) {wr : WrReq p} (asked : wr ∈ c.2.wrReq) :
    ∃ b ∈ wrResp base c.1 c.2,
      WriteServed base (afterRead base c.1 c.2) wr b (next base c.1 c.2) := by
  obtain ⟨aligned, proper⟩ := proper_of_mem run member
  exact write_served placed aligned proper (afterRead_ie placed aligned proper) asked

/-- The interrupt controller keeps its promises in every run of proper accesses. -/
theorem conforms_of_run (placed : Placed p base) (run : (properMachine p base).Run cycles s) :
    Conforms base cycles s where
  exclusive id both := by
    have free := exclusive_run placed run id both.1
    rw [both.2] at free
    cases free
  notAgain before first during later after t t' id split real claimed again := by
    subst split
    exact not_again_of_run placed run real claimed again
  claim c member t rda asked located := claim_of_mem placed run member asked located
  eip t := mEip_iff s t
  read c member rda asked := by
    obtain ⟨aligned, proper⟩ := proper_of_mem run member
    exact read_served placed aligned proper asked
  write c member wr asked := write_of_mem placed run member asked
  enables c member wr asked t k located id inWord := by
    obtain ⟨b, -, served⟩ := write_of_mem placed run member asked
    rw [(served.mapped _ located).2]
    simp only [written, Function.update_self, if_pos inWord]
  apart c member r := by
    obtain ⟨aligned, proper⟩ := proper_of_mem run member
    exact stored_next placed aligned proper r

end Runs

/-! ## Two configurations -/

/-- A controller on a 64-bit bus. -/
def sized (nExternalSources : Nat) (fits : nExternalSources + 1 ≤ 2 ^ 10) : Params where
  nExternalSources := nExternalSources
  nTargets := 2
  maxPriority := 7
  wdData := 64
  sourcesFit := fits
  someTarget := by decide
  targetsFit := by decide
  prioritiesFit := by decide
  bus := .inr rfl

def block : Addr := 0x0C000000#64

/-- Enabling source 1 for target 0, then a claim of target 0 with the source at work. -/
def enableThenClaim : List (Inputs (sized 16 (by decide))) :=
  [{ setNotClear := fun _ => false
     rdAddr := none
     wrReq := some { awid := 0, awaddr := 0x0C002000#64, wdata := 2#64 } },
   { setNotClear := fun _ => true
     rdAddr := some { arid := 0, araddr := 0x0C200004#64 }
     wrReq := none }]

theorem enableThenClaim_conforms :
    Conforms block ((properMachine (sized 16 (by decide)) block).cyclesOf (reset _) enableThenClaim)
      ((properMachine (sized 16 (by decide)) block).after (reset _) enableThenClaim) := by
  have placed : Placed (sized 16 (by decide)) block := by
    unfold Placed
    decide
  have decodes (r : Register (sized 16 (by decide))) : Decodes (sized 16 (by decide)) r.offset :=
    decodes_offset (by decide) (by decide) r
  refine conforms_of_run placed (Clocked.Machine.run_of_accepts _ ⟨?_, ?_, trivial⟩)
  · refine ⟨⟨by rintro _ ⟨⟩, ?_⟩, ⟨by rintro _ ⟨⟩, ?_, ?_⟩⟩
    · rintro wr ⟨⟩
      decide
    · rintro wr ⟨⟩ -
      have here : (0x0C002000#64 : Addr).toNat - block.toNat = 0x2000 := by decide
      rw [here]
      exact decodes (.enable ⟨0, by decide⟩ ⟨0, by decide⟩)
    · rintro wr ⟨⟩ r located t id rfl
      simp only [Register.At, Register.offset, block, BitVec.toNat_ofNat] at located
      omega
  · refine ⟨⟨?_, by rintro _ ⟨⟩⟩, ⟨?_, by rintro _ ⟨⟩, by rintro _ ⟨⟩⟩⟩
    · rintro rda ⟨⟩
      decide
    · rintro rda ⟨⟩ -
      have here : (0x0C200004#64 : Addr).toNat - block.toNat = 0x200004 := by decide
      rw [here]
      exact decodes (.claim ⟨0, by decide⟩)

/-- Source 32 of a controller with 32 sources cannot be enabled at the address of its bit. -/
def enableSource32 : Inputs (sized 32 (by decide)) where
  setNotClear _ := false
  rdAddr := none
  wrReq := some { awid := 0, awaddr := 0x0C002004#64, wdata := 0x100000000#64 }

theorem source32_not_enabled :
    ∃ cycles s, (machine (sized 32 (by decide)) block).Run cycles s ∧
      ¬ Conforms block cycles s := by
  have aligned : enableSource32.Aligned := by
    refine ⟨nofun, ?_⟩
    rintro wr ⟨⟩
    decide
  refine ⟨_, _, Clocked.Machine.Run.reset.cycle aligned, fun conforms => ?_⟩
  have enabled := conforms.enables (reset _, enableSource32) List.mem_cons_self _ rfl
    ⟨0, by decide⟩ ⟨1, by decide⟩ (by rfl) ⟨32, by decide⟩ (by rfl)
  revert enabled
  decide

end Toooba.Plic
