import RiscvCores.Cva6.IcacheInvariant

/-!
# The instruction cache is sound

Every cycle keeps the invariant, and what the cache answers, installs and hits is what the
history promises.
-/

set_option autoImplicit false

namespace Cva6.Icache

open CommonCells TechCells
open AxiAdapter (IReq)

variable {cfg : IcacheCfg} {mem : Nat → Nat → BitVec 8} {H : History cfg} {s : State cfg}
  {i : Input cfg}

/-! ## Addresses -/

theorem isNc_mono {tag : Nat} (en : Bool) (nc : isNc cfg s.cacheEn tag = true) :
    isNc cfg (s.cacheEn && en) tag = true := by
  cases en with
  | true => rwa [Bool.and_true]
  | false => rw [Bool.and_false, isNc, Bool.not_false, Bool.true_or]

theorem ncOffset_twice (offset : Nat) : ncOffset (ncOffset offset) = ncOffset offset := by
  unfold ncOffset
  omega

theorem index_val (cfg : IcacheCfg) (vaddr : Nat) :
    (cfg.index vaddr).val = vaddr % 2 ^ cfg.indexWidth / cfg.lineBytes := by
  have split : 2 ^ cfg.indexWidth =
      2 ^ cfg.offsetWidth * 2 ^ (cfg.indexWidth - cfg.offsetWidth) := by
    rw [← Nat.pow_add, Nat.add_sub_cancel' cfg.lineInIndex]
  rw [IcacheCfg.index, Fin.val_ofNat, IcacheCfg.numWords, IcacheCfg.lineBytes, split,
    Nat.mod_mul_right_div_self]

/-- The address of a line is that of its tag and its set. -/
theorem memPaddr_line (cfg : IcacheCfg) (tag vaddr : Nat) :
    memPaddr cfg false tag vaddr =
      tag * 2 ^ cfg.indexWidth + (cfg.index vaddr).val * cfg.lineBytes := by
  rw [index_val]
  rfl

theorem paddr_split {vaddr p : Nat} (page : OnPage cfg vaddr p) :
    p = tagOf cfg p * 2 ^ cfg.indexWidth + cfg.align vaddr % 2 ^ cfg.indexWidth := by
  obtain ⟨bound, offset⟩ := page
  rw [Nat.pow_add, Nat.mul_comm] at bound
  rw [tagOf, Nat.mod_eq_of_lt (Nat.div_lt_of_lt_mul bound), ← offset, Nat.div_add_mod']

theorem align_mod (cfg : IcacheCfg) (vaddr : Nat) :
    cfg.align vaddr % 2 ^ cfg.indexWidth =
      vaddr % 2 ^ cfg.indexWidth / cfg.fetchBytes * cfg.fetchBytes := by
  have small : cfg.fetchAlignBits ≤ cfg.indexWidth := by
    have line := cfg.doubleInLine
    have inIndex := cfg.lineInIndex
    rcases cfg.fetchAlign with word | ⟨_, double⟩ <;> omega
  have split : 2 ^ cfg.indexWidth =
      2 ^ cfg.fetchAlignBits * 2 ^ (cfg.indexWidth - cfg.fetchAlignBits) := by
    rw [← Nat.pow_add, Nat.add_sub_cancel' small]
  rw [IcacheCfg.align, IcacheCfg.fetchBytes, split, Nat.mod_mul_right_div_self,
    Nat.mul_comm (vaddr / _), Nat.mul_mod_mul_left, Nat.mul_comm]

theorem offsetOf_eq (cfg : IcacheCfg) (vaddr : Nat) :
    offsetOf cfg vaddr = cfg.align vaddr % cfg.lineBytes := by
  unfold offsetOf
  split
  · rfl
  · rename_i l15
    rcases cfg.fetchAlign with word | ⟨axi, _⟩
    · rw [IcacheCfg.align, word]
      rfl
    · exact (l15 axi).elim

/-- The aligned address is that of its line and its offset there. -/
theorem align_line (cfg : IcacheCfg) (vaddr : Nat) :
    cfg.align vaddr % 2 ^ cfg.indexWidth =
      (cfg.index vaddr).val * cfg.lineBytes + offsetOf cfg vaddr := by
  have small : cfg.fetchAlignBits ≤ cfg.offsetWidth := by
    have line := cfg.doubleInLine
    rcases cfg.fetchAlign with word | ⟨_, double⟩ <;> omega
  have inLine : cfg.lineBytes = cfg.fetchBytes * 2 ^ (cfg.offsetWidth - cfg.fetchAlignBits) := by
    rw [IcacheCfg.lineBytes, IcacheCfg.fetchBytes, ← Nat.pow_add, Nat.add_sub_cancel' small]
  have inIndex : cfg.lineBytes ∣ 2 ^ cfg.indexWidth := Nat.pow_dvd_pow 2 cfg.lineInIndex
  have set : cfg.align vaddr % 2 ^ cfg.indexWidth / cfg.lineBytes = (cfg.index vaddr).val := by
    rw [index_val, align_mod, inLine, ← Nat.div_div_eq_div_mul,
      Nat.mul_div_cancel _ (show 0 < cfg.fetchBytes from Nat.two_pow_pos _),
      Nat.div_div_eq_div_mul]
  have offset : cfg.align vaddr % 2 ^ cfg.indexWidth % cfg.lineBytes = offsetOf cfg vaddr := by
    rw [Nat.mod_mod_of_dvd _ inIndex, offsetOf_eq]
  rw [← set, ← offset, Nat.div_add_mod']

theorem fetchBytes_cases (cfg : IcacheCfg) :
    cfg.fetchBytes = 4 ∨ cfg.axi = true ∧ cfg.fetchBytes = 8 := by
  unfold IcacheCfg.fetchBytes
  rcases cfg.fetchAlign with word | ⟨axi, double⟩
  · exact .inl (by rw [word]; rfl)
  · exact .inr ⟨axi, by rw [double]; rfl⟩

theorem eight_dvd_line (cfg : IcacheCfg) : 8 ∣ cfg.lineBytes :=
  Nat.pow_dvd_pow 2 cfg.doubleInLine

/-- The offset in terms of the aligned address below the tag. -/
theorem offset_spec (cfg : IcacheCfg) (vaddr : Nat) : ∃ c,
    vaddr % 2 ^ cfg.indexWidth / cfg.fetchBytes * cfg.fetchBytes =
      8 * c + offsetOf cfg vaddr := by
  obtain ⟨m, line⟩ := eight_dvd_line cfg
  refine ⟨(cfg.index vaddr).val * m, ?_⟩
  rw [← align_mod, align_line, line, Nat.mul_left_comm]

/-- The bytes of an access lie in its line. -/
theorem offset_lt (cfg : IcacheCfg) (vaddr : Nat) {j : Nat} (bound : j < cfg.fetchBytes) :
    offsetOf cfg vaddr + j < cfg.lineBytes := by
  obtain ⟨c, offset⟩ := offset_spec cfg vaddr
  obtain ⟨m, line⟩ := eight_dvd_line cfg
  have inside : offsetOf cfg vaddr < cfg.lineBytes := by
    rw [offsetOf_eq]
    exact Nat.mod_lt _ (Nat.two_pow_pos _)
  rcases fetchBytes_cases cfg with word | ⟨_, double⟩
  · rw [word] at offset bound
    omega
  · rw [double] at offset bound
    omega

/-- Half a double word that is fetched uncached lies in the answer. -/
theorem ncOffset_lt (cfg : IcacheCfg) (vaddr : Nat) {j : Nat} (bound : j < cfg.fetchBytes) :
    ncOffset (offsetOf cfg vaddr) + j < 8 := by
  obtain ⟨c, offset⟩ := offset_spec cfg vaddr
  unfold ncOffset
  rcases fetchBytes_cases cfg with word | ⟨_, double⟩
  · rw [word] at offset bound
    omega
  · rw [double] at offset bound
    omega

/-- The bytes of an access in the double word that is fetched uncached. -/
theorem memPaddr_double {vaddr p : Nat} (axi : cfg.axi = true) (page : OnPage cfg vaddr p) :
    memPaddr cfg true (tagOf cfg p) vaddr + ncOffset (offsetOf cfg vaddr) = p := by
  obtain ⟨c, offset⟩ := offset_spec cfg vaddr
  have split := paddr_split page
  rw [align_mod] at split
  unfold memPaddr ncOffset
  simp only [axi, if_true]
  rcases fetchBytes_cases cfg with word | ⟨_, double⟩
  · rw [word] at offset split
    omega
  · rw [double] at offset split
    omega

theorem memPaddr_word {vaddr p : Nat} (l15 : cfg.axi = false) (page : OnPage cfg vaddr p) :
    memPaddr cfg true (tagOf cfg p) vaddr = p ∧ cfg.fetchBytes = 4 ∧
      offsetOf cfg vaddr % 4 = 0 := by
  obtain ⟨c, offset⟩ := offset_spec cfg vaddr
  have split := paddr_split page
  rw [align_mod] at split
  rcases fetchBytes_cases cfg with word | ⟨axi, _⟩
  · rw [word] at offset split
    refine ⟨?_, word, by omega⟩
    unfold memPaddr
    simp only [l15, Bool.false_eq_true, if_false, if_true]
    exact split.symm
  · rw [l15] at axi
    cases axi

/-! ## The state `READ` -/

section Reading

/-- A lookup without a write reads what the memories hold. -/
theorem lookup_next (rden : (ctrl s i).cacheRden = true) (noFlush : (ctrl s i).flushEn = false)
    (noWrite : (ctrl s i).cacheWren = false) (noInv : invEn i = false) (k : cfg.Way) :
    ((next s i).tagSram k).rdata = ((next s i).tagSram k).words (cfg.index (next s i).vaddr) ∧
      ((next s i).dataSram k).rdata =
        ((next s i).dataSram k).words (cfg.index (next s i).vaddr) := by
  have noTags : vldWe s i = false := by
    rw [vldWe, noWrite, noInv, noFlush]
    rfl
  have address : vldAddr s i = clIndex s i := by
    rw [vldAddr, noFlush, noInv]
    rfl
  have tagReq : vldReq s i k = true := by
    rw [vldReq, rden, Bool.or_true, if_pos rfl]
  have dataReq : clReq s i k = true := by
    rw [clReq, rden, if_pos rfl]
  constructor
  · simp only [next]
    rw [Sram.rdata_of_read (s.tagSram k) (tagPort s i k) tagReq noTags,
      Sram.words_of_no_write (s.tagSram k) (tagPort s i k) noTags]
    exact congrArg _ address
  · simp only [next]
    rw [Sram.rdata_of_read (s.dataSram k) (dataPort s i k) dataReq noWrite,
      Sram.words_of_no_write (s.dataSram k) (dataPort s i k) noWrite]
    rfl

theorem shown_some {p : Nat} (inside : p ∈ shown s i) :
    i.fetchValid = true ∧ i.fetchException = false ∧ p = i.fetchPaddr := by
  unfold shown at inside
  split at inside
  · rename_i given
    simp only [Bool.and_eq_true, Bool.not_eq_true'] at given
    exact ⟨given.1.2, given.2, (Option.some.inj inside).symm⟩
  · cases inside

/-- What the history knows of a request after a cycle in which it stays. -/
theorem current_spec {r : Request} (request : H.request = some r) :
    H.current s i = some { r with paddr := r.paddr.or (shown s i) } := by
  rw [History.current, request]
  rfl

theorem page_current (env : Environment mem H s i) {r : Request} (reading : Reading r s) :
    ∀ p ∈ r.paddr.or (shown s i), OnPage cfg s.vaddr p := by
  intro p inside
  rcases Option.or_eq_some_iff.mp inside with old | ⟨_, new⟩
  · exact reading.page p old
  · exact env.page p new

/-- The address that is shown is the address of the request. -/
theorem paddr_shown (env : Environment mem H s i) {r : Request} (request : H.request = some r)
    (given : shown s i = some i.fetchPaddr) : r.paddr.or (shown s i) = some i.fetchPaddr := by
  cases known : r.paddr with
  | none => rw [Option.none_or, given]
  | some q =>
      have same := env.stable _ given r request q known
      rw [Option.some_or, same]

/-- The offset of a request whose address is cacheable. -/
theorem Reading.offset_cacheable {r : Request} (reading : Reading r s) {p : Nat}
    (translated : ∀ q ∈ r.paddr, q = p) (cacheable : isNc cfg s.cacheEn (tagOf cfg p) = false) :
    s.clOffset = offsetOf cfg s.vaddr := by
  rcases reading.offset with whole | ⟨_, _, q, known, nc⟩
  · exact whole
  · rw [translated q known, cacheable] at nc
    cases nc

/-- A comparison that fails finds no line. -/
theorem Reading.absent {r : Request} (reading : Reading r s) (enabled : s.cacheEn = true)
    (noInv : s.inv = false) (noHit : (anyHit s i && s.cacheEn) = false) :
    Absent s (cfg.index s.vaddr) (clTagD s i) := by
  intro k valid
  have hit : clHit s i k = true := by
    rw [clHit, vldRdata, reading.tags enabled noInv k, show _ = _ from valid]
    simp
  have any : anyHit s i = true := decide_eq_true ⟨k, hit⟩
  rw [any, enabled] at noHit
  cases noHit

theorem Absent.next {set : cfg.Index} {tag : Nat} (absent : Absent s set tag)
    (noWrite : (ctrl s i).cacheWren = false) : Absent (next s i) set tag :=
  fun k valid => absent k (valid_of_next noWrite valid).1

theorem Inv.reading_accept (accept : accepts s i = true) (noKill : i.killS1 = false)
    (free : i.memRtrnVld = false) (rden : s.cacheEn = true → (ctrl s i).cacheRden = true)
    (cmpEn : (ctrl s i).cmpEnD = s.cacheEn) (notFlush : s.state ≠ .flush)
    (notMiss : s.state ≠ .miss) :
    ∃ r, (H.step s i).request = some r ∧ Reading r (next s i) := by
  have vaddr : (next s i).vaddr = i.vaddr := by
    simp only [Icache.next, vaddrD, accept, if_true]
  have noInv : invEn i = false := by
    rw [invEn, free]
    rfl
  have noFlush : (ctrl s i).flushEn = false := by
    rw [flushEn_eq]
    exact decide_eq_false notFlush
  have enabled : (Icache.next s i).cacheEn = true → s.cacheEn = true := by
    intro on
    have same : (Icache.next s i).cacheEn = (s.cacheEn && i.en) := (flushD_eq notFlush).2
    rw [same] at on
    exact (Bool.and_eq_true_iff.mp on).1
  have noWrite := cacheWren_false (i := i) notMiss
  refine ⟨⟨H.accepted, i.vaddr, none⟩, ?_, ?_⟩
  · simp only [History.step, accept, noKill, if_true, Bool.false_eq_true, if_false]
  · exact {
      vaddr := vaddr.symm
      page := fun _ inside => by cases inside
      offset := by
        refine .inl ?_
        rw [vaddr]
        simp only [Icache.next, clOffsetD, accept, if_true]
      tags := fun on _ k => (lookup_next (rden (enabled on)) noFlush noWrite noInv k).1
      data := fun on _ k => (lookup_next (rden (enabled on)) noFlush noWrite noInv k).2
      failed := by
        intro on _ off
        have same : (Icache.next s i).cmpEn = s.cacheEn := cmpEn
        rw [same, enabled on] at off
        cases off }

/-- A cycle of `READ` in which nothing is accepted, answered or killed. -/
structure Stays (s : State cfg) (i : Input cfg) : Prop where
  here : s.state = .read
  ready : (ctrl s i).ready = false
  valid : (ctrl s i).valid = false
  noKill : i.killS2 = false
  fetchReq : (ctrl s i).fetchReq = true
  rden : (ctrl s i).cacheRden = s.cacheEn

theorem Stays.vaddr (stays : Stays s i) : (next s i).vaddr = s.vaddr := by
  simp only [Icache.next, vaddrD, accepts, stays.ready, Bool.false_and, Bool.false_eq_true,
    if_false]

theorem Stays.request (stays : Stays s i) {r : Request} (request : H.request = some r) :
    (H.step s i).request = some { r with paddr := r.paddr.or (shown s i) } := by
  simp only [History.step, accepts, stays.ready, stays.valid, stays.noKill, Bool.false_and,
    Bool.or_self, Bool.false_eq_true, if_false]
  exact current_spec request

theorem Stays.cacheEn (stays : Stays s i) : (next s i).cacheEn = (s.cacheEn && i.en) :=
  (flushD_eq (by rw [stays.here]; decide)).2

theorem Stays.lookup (stays : Stays s i) (on : (next s i).cacheEn = true)
    (noInv : invEn i = false) (k : cfg.Way) :
    ((next s i).tagSram k).rdata = ((next s i).tagSram k).words (cfg.index (next s i).vaddr) ∧
      ((next s i).dataSram k).rdata =
        ((next s i).dataSram k).words (cfg.index (next s i).vaddr) := by
  rw [stays.cacheEn] at on
  refine lookup_next ?_ ?_ ?_ noInv k
  · rw [stays.rden]
    exact (Bool.and_eq_true_iff.mp on).1
  · rw [flushEn_eq, stays.here]
    rfl
  · exact cacheWren_false (by rw [stays.here]; decide)

/-- The offset while a request waits for its address. -/
theorem Stays.offset_kept (stays : Stays s i)
    (noSend : (ctrl s i).memDataReq = false) : (next s i).clOffset = s.clOffset := by
  simp only [Icache.next, clOffsetD, accepts, stays.ready, noSend, Bool.false_and, Bool.and_false,
    Bool.false_eq_true, if_false]

theorem Inv.reading_waits (inv : Inv mem H s) (env : Environment mem H s i) (stays : Stays s i)
    (noSend : (ctrl s i).memDataReq = false) (cmpEn : (ctrl s i).cmpEnD = s.cacheEn) :
    ∃ r, (H.step s i).request = some r ∧ Reading r (next s i) := by
  obtain ⟨r, request, reading⟩ := inv.reading stays.here
  refine ⟨_, stays.request request, ?_⟩
  exact {
    vaddr := by rw [stays.vaddr, ← reading.vaddr]
    page := by
      rw [stays.vaddr]
      exact page_current env reading
    offset := by
      rw [stays.offset_kept noSend, stays.vaddr, stays.cacheEn]
      rcases reading.offset with whole | ⟨axi, reduced, p, known, nc⟩
      · exact .inl whole
      · refine .inr ⟨axi, reduced, p, ?_, isNc_mono i.en nc⟩
        exact Option.or_eq_some_iff.mpr (.inl known)
    tags := fun on noInv k => (stays.lookup on noInv k).1
    data := fun on noInv k => (stays.lookup on noInv k).2
    failed := by
      intro on _ off
      have same : (Icache.next s i).cmpEn = s.cacheEn := cmpEn
      rw [stays.cacheEn] at on
      rw [same, (Bool.and_eq_true_iff.mp on).1] at off
      cases off }

/-! ### Sending a fill -/

/-- The offset that is used for a fill. -/
theorem Reading.offset_sent {r : Request} (reading : Reading r s) (env : Environment mem H s i)
    (request : H.request = some r) (stays : Stays s i)
    (given : shown s i = some i.fetchPaddr) (send : (ctrl s i).memDataReq = true) :
    (next s i).clOffset = if cfg.axi && paddrIsNc s i then ncOffset (offsetOf cfg s.vaddr)
      else offsetOf cfg s.vaddr := by
  have valid := (shown_some given).1
  have tag : clTagD s i = tagOf cfg i.fetchPaddr := by
    rw [clTagD, valid, if_pos rfl]
  simp only [Icache.next, clOffsetD, accepts, stays.ready, send, Bool.false_and, Bool.and_true,
    Bool.false_eq_true, if_false]
  cases axi : cfg.axi with
  | false =>
      simp only [Bool.false_and, Bool.false_eq_true, if_false]
      rcases reading.offset with whole | ⟨axi', _⟩
      · exact whole
      · rw [axi] at axi'
        cases axi'
  | true =>
      cases nc : paddrIsNc s i with
      | true =>
          simp only [Bool.and_self, if_true]
          rcases reading.offset with whole | ⟨_, reduced, _⟩
          · rw [whole]
          · rw [reduced, ncOffset_twice]
      | false =>
          simp only [Bool.and_false, Bool.false_eq_true, if_false]
          rw [paddrIsNc, tag] at nc
          refine reading.offset_cacheable (fun q known => ?_) nc
          exact (env.stable _ given r request q known).symm

theorem Inv.reading_sends (inv : Inv mem H s) (env : Environment mem H s i) (stays : Stays s i)
    (given : shown s i = some i.fetchPaddr) (send : (ctrl s i).memDataReq = true)
    (noInv : s.inv = false) (noHit : (anyHit s i && s.cacheEn) = false) :
    ∃ r, (H.step s i).request = some r ∧ Reading r (next s i) := by
  obtain ⟨r, request, reading⟩ := inv.reading stays.here
  have paddr := paddr_shown env request given
  have tag : clTagD s i = tagOf cfg i.fetchPaddr := by
    rw [clTagD, (shown_some given).1, if_pos rfl]
  refine ⟨_, stays.request request, ?_⟩
  exact {
    vaddr := by rw [stays.vaddr, ← reading.vaddr]
    page := by
      rw [stays.vaddr]
      exact page_current env reading
    offset := by
      rw [reading.offset_sent env request stays given send, stays.vaddr, stays.cacheEn]
      split
      · rename_i reduced
        obtain ⟨axi, nc⟩ := Bool.and_eq_true_iff.mp reduced
        rw [paddrIsNc, tag] at nc
        exact .inr ⟨axi, rfl, _, paddr, isNc_mono i.en nc⟩
      · exact .inl rfl
    tags := fun on noInv' k => (stays.lookup on noInv' k).1
    data := fun on noInv' k => (stays.lookup on noInv' k).2
    failed := by
      intro on _ _
      rw [stays.cacheEn] at on
      refine ⟨_, paddr, ?_⟩
      rw [stays.vaddr, ← tag]
      exact (reading.absent (Bool.and_eq_true_iff.mp on).1 noInv noHit).next
        (cacheWren_false (by rw [stays.here]; decide)) }

theorem Inv.reading_next (inv : Inv mem H s) (env : Environment mem H s i)
    (stays : (next s i).state = .read) :
    ∃ r, (H.step s i).request = some r ∧ Reading r (next s i) := by
  cases toRead stays with
  | accept here noFlush accepts noKill free rden cmpEn =>
      refine Inv.reading_accept accepts noKill free rden cmpEn ?_ ?_ <;>
        rcases here with here | here <;> rw [here] <;> decide
  | sends here noFlush shown noInv noKill noHit noException noAck out =>
      have given : Icache.shown s i = some i.fetchPaddr := by
        rw [Icache.shown, out, shown, noException]
        rfl
      refine inv.reading_sends env ⟨here, ?_, ?_, noKill, ?_, ?_⟩ given ?_ noInv noHit <;>
        rw [out] <;> rfl
  | waits here noFlush noKill out =>
      refine inv.reading_waits env ⟨here, ?_, ?_, noKill, ?_, ?_⟩ ?_ ?_ <;> rw [out] <;> rfl

end Reading

/-! ## The state `MISS` -/

section Missing

/-- The tag of a fill does not change while it is waited for. -/
theorem tag_of_miss (env : Environment mem H s i) (here : s.state = .miss) :
    clTagD s i = s.clTag := by
  have noShown : i.fetchValid = false := by
    by_contra valid
    exact env.asked (Bool.not_eq_false _ |>.mp valid) here
  rw [clTagD, noShown, if_neg Bool.false_ne_true]

theorem epoch_next (noFlush : (s.flush || i.flush) = false) : (H.step s i).epoch = H.epoch := by
  simp only [History.step, (Bool.or_eq_false_iff.mp noFlush).2, Bool.false_eq_true, if_false]

theorem Inv.missing_sends (inv : Inv mem H s) (env : Environment mem H s i) (stays : Stays s i)
    (given : shown s i = some i.fetchPaddr) (send : (ctrl s i).memDataReq = true)
    (ack : i.memDataAck = true) (cmpEn : (ctrl s i).cmpEnD = false)
    (noFlush : (s.flush || i.flush) = false) (noInv : s.inv = false)
    (noHit : (anyHit s i && s.cacheEn) = false) :
    ∃ r sent, (H.step s i).request = some r ∧ (H.step s i).sent = some sent ∧
      Missing (H.step s i).epoch r sent (next s i) := by
  obtain ⟨r, request, reading⟩ := inv.reading stays.here
  have paddr := paddr_shown env request given
  have tag : clTagD s i = tagOf cfg i.fetchPaddr := by
    rw [clTagD, (shown_some given).1, if_pos rfl]
  have tag' : (next s i).clTag = clTagD s i := rfl
  refine ⟨_, ⟨r.id, H.epoch, memData s i⟩, stays.request request, ?_, ?_⟩
  · simp only [History.step, send, ack, Bool.and_self, if_true, request, Option.map_some]
  · exact {
      vaddr := by rw [stays.vaddr, ← reading.vaddr]
      owner := rfl
      epoch := (epoch_next noFlush).symm
      paddr := by
        refine ⟨_, paddr, ?_, tag'.trans tag⟩
        rw [stays.vaddr]
        exact page_current env reading _ paddr
      address := by
        rw [tag', stays.vaddr]
        rfl
      cacheable := by
        intro cacheable
        rw [tag', stays.cacheEn] at cacheable
        have nc : paddrIsNc s i = false := by
          by_contra nc
          rw [isNc_mono i.en (Bool.not_eq_false _ |>.mp nc)] at cacheable
          cases cacheable
        have enabled : s.cacheEn = true := by
          rw [paddrIsNc, isNc, Bool.or_eq_false_iff, Bool.not_eq_false'] at nc
          exact nc.1
        refine ⟨nc, ?_⟩
        rw [stays.vaddr, tag']
        exact (reading.absent enabled noInv noHit).next
          (cacheWren_false (by rw [stays.here]; decide))
      offset := by
        rw [reading.offset_sent env request stays given send, stays.vaddr]
        rfl
      cmpEn := cmpEn }

theorem Inv.missing_stays (inv : Inv mem H s) (env : Environment mem H s i)
    (here : s.state = .miss) (noFill : ifill i = false) (noKill : i.killS2 = false)
    (noFlush : (s.flush || i.flush) = false) (out : ctrl s i = defaults s i) :
    ∃ r sent, (H.step s i).request = some r ∧ (H.step s i).sent = some sent ∧
      Missing (H.step s i).epoch r sent (next s i) := by
  obtain ⟨r, sent, request, owed, missing⟩ := inv.missing here
  have tag : (next s i).clTag = s.clTag := tag_of_miss env here
  have vaddr : (next s i).vaddr = s.vaddr := by
    simp only [Icache.next, vaddrD, accepts, out, defaults, Bool.false_and, Bool.false_eq_true,
      if_false]
  have cacheEn : (next s i).cacheEn = (s.cacheEn && i.en) := by
    simp only [Icache.next, out, defaults]
  have kept : (H.step s i).request = some r := by
    have none : shown s i = none := by
      rw [shown, out]
      rfl
    simp only [History.step, accepts, out, defaults, noKill, Bool.false_and, Bool.or_self,
      Bool.false_eq_true, if_false]
    rw [current_spec request, none, Option.or_none]
  refine ⟨r, sent, kept, ?_, ?_⟩
  · simp only [History.step, out, defaults, noFill, Bool.false_and, Bool.false_eq_true, if_false]
    exact owed
  · exact {
      vaddr := by rw [vaddr, missing.vaddr]
      owner := missing.owner
      epoch := by rw [epoch_next noFlush, missing.epoch]
      paddr := by
        rw [vaddr, tag]
        exact missing.paddr
      address := by
        rw [vaddr, tag]
        exact missing.address
      cacheable := by
        intro cacheable
        rw [tag, cacheEn] at cacheable
        have before : isNc cfg s.cacheEn s.clTag = false := by
          by_contra nc
          rw [isNc_mono i.en (Bool.not_eq_false _ |>.mp nc)] at cacheable
          cases cacheable
        obtain ⟨line, absent⟩ := missing.cacheable before
        rw [vaddr, tag]
        exact ⟨line, absent.next (by rw [out]; rfl)⟩
      offset := by
        have offset : (next s i).clOffset = s.clOffset := by
          simp only [Icache.next, clOffsetD, accepts, out, defaults, Bool.false_and,
            Bool.and_false, Bool.false_eq_true, if_false]
        rw [offset, vaddr]
        exact missing.offset
      cmpEn := by
        simp only [Icache.next, out, defaults] }

theorem Inv.missing_next (inv : Inv mem H s) (env : Environment mem H s i)
    (stays : (next s i).state = .miss) :
    ∃ r sent, (H.step s i).request = some r ∧ (H.step s i).sent = some sent ∧
      Missing (H.step s i).epoch r sent (next s i) := by
  cases toMiss stays with
  | sends here noFlush shown noInv noKill noHit noException ack out =>
      have given : Icache.shown s i = some i.fetchPaddr := by
        rw [Icache.shown, out, shown, noException]
        rfl
      refine inv.missing_sends env ⟨here, ?_, ?_, noKill, ?_, ?_⟩ given ?_ ack ?_ noFlush noInv
        noHit <;> rw [out] <;> rfl
  | misses here noFill noKill noFlush out =>
      exact inv.missing_stays env here noFill noKill noFlush out

end Missing

/-! ## The lines -/

section Lines

theorem invEn_of_ifill (fill : ifill i = true) : invEn i = false := by
  unfold ifill at fill
  unfold invEn
  cases kind : i.memRtrn.rtype with
  | invReq => rw [kind] at fill; simp at fill
  | ifillAck => exact Bool.and_false _

theorem clIndex_of_wren (write : (ctrl s i).cacheWren = true) :
    clIndex s i = cfg.index s.vaddr := by
  obtain ⟨_, _, _, _, _, out⟩ := wren_cases write
  simp only [clIndex, vaddrD, accepts, out, defaults, Bool.false_and, Bool.false_eq_true,
    if_false]

/-- What a fill leaves in the memories. -/
theorem written_of_wren (write : (ctrl s i).cacheWren = true) {set : cfg.Index} {k : cfg.Way}
    {tag : Nat} (valid : Valid (next s i) set k tag) :
    (set = cfg.index s.vaddr ∧ s.replWayOh k = true ∧ tag = s.clTag ∧
        ((next s i).dataSram k).words set = i.memRtrn.data) ∨
      (Valid s set k tag ∧ ((next s i).dataSram k).words set = (s.dataSram k).words set) := by
  obtain ⟨here, fill, _, _, _, out⟩ := wren_cases write
  have noInv := invEn_of_ifill fill
  have index := clIndex_of_wren write
  have address : vldAddr s i = cfg.index s.vaddr := by
    rw [vldAddr, noInv, index, out]
    rfl
  have request : vldReq s i k = s.replWayOh k := by
    rw [vldReq, noInv, out]
    simp [defaults]
  have dataReq : clReq s i k = s.replWayOh k := by
    rw [clReq, out]
    simp [defaults]
  have we : vldWe s i = true := by
    rw [vldWe, write]
    rfl
  rw [Valid, tagWords_next, request, we, address, write, Bool.and_true] at valid
  rw [dataWords_next, dataReq, write, index, Bool.and_true]
  split at valid
  · rename_i new
    obtain ⟨way, atSet⟩ := Bool.and_eq_true_iff.mp new
    exact .inl ⟨of_decide_eq_true atSet, way, (congrArg Prod.snd valid).symm, if_pos new⟩
  · rename_i old
    exact .inr ⟨valid, if_neg old⟩

/-- Nothing is valid when the last set has been cleared. -/
theorem Inv.flushed (inv : Inv mem H s) (here : s.state = .flush) (done : flushDone s = true)
    {set : cfg.Index} {k : cfg.Way} {tag : Nat} : ¬ Valid (next s i) set k tag := by
  have noWrite : (ctrl s i).cacheWren = false := cacheWren_false (by rw [here]; decide)
  have clears : (ctrl s i).flushEn = true := by
    rw [flushEn_eq, here]
    rfl
  intro valid
  have last : s.flushCnt.val = cfg.numWords - 1 := of_decide_eq_true done
  have inside := set.isLt
  rcases (by omega : set.val < s.flushCnt.val ∨ set.val = s.flushCnt.val) with before | at_
  · exact inv.cleared here set before k tag (valid_of_next noWrite valid).1
  · exact not_valid_of_flush noWrite clears (Fin.ext at_) valid

theorem Inv.flush_leaves (inv : Inv mem H s) (here : s.state = .flush)
    (leaves : (next s i).state ≠ .flush) {set : cfg.Index} {k : cfg.Way} {tag : Nat} :
    ¬ Valid (next s i) set k tag := by
  cases move s i with
  | flushing at_ notYet out =>
      refine (leaves ?_).elim
      change (ctrl s i).state = .flush
      rw [out]
      exact here
  | flushed at_ done out => exact inv.flushed here done
  | _ => simp_all

/-- A line that is kept is still backed. -/
theorem Backed.next {set : cfg.Index} {k : cfg.Way} {tag : Nat}
    (backed : Backed mem H s set k tag) (noFlush : i.flush = false)
    (noInv : invalidates i set k = false)
    (same : ((next s i).dataSram k).words set = (s.dataSram k).words set) :
    Backed mem (H.step s i) (next s i) set k tag where
  fresh := by
    simp only [History.step, noFlush, noInv, backed.fresh, Bool.or_self, Bool.or_true,
      Bool.false_eq_true, if_false]
  cacheable := backed.cacheable
  line := by
    have epoch : (H.step s i).epoch = H.epoch := by
      simp only [History.step, noFlush, Bool.false_eq_true, if_false]
    rw [same, backed.line, epoch]

/-- The line that a fill writes. -/
theorem Inv.backed_of_fill (inv : Inv mem H s) (env : Environment mem H s i)
    (write : (ctrl s i).cacheWren = true) {k : cfg.Way} (way : s.replWayOh k = true)
    (data : ((next s i).dataSram k).words (cfg.index s.vaddr) = i.memRtrn.data) :
    Backed mem (H.step s i) (next s i) (cfg.index s.vaddr) k s.clTag := by
  obtain ⟨here, fill, _, noFlush, nc, out⟩ := wren_cases write
  obtain ⟨r, sent, request, owed, missing⟩ := inv.missing here
  rw [paddrIsNc, tag_of_miss env here] at nc
  obtain ⟨line, _⟩ := missing.cacheable nc
  obtain ⟨sent', owed', fills⟩ := env.fill fill
  obtain rfl : sent' = sent := by
    rw [owed] at owed'
    exact (Option.some.inj owed').symm
  have bytes := fills missing.epoch
  have noFill := invEn_of_ifill fill
  have index := clIndex_of_wren write
  constructor
  · have installed : installs s i (cfg.index s.vaddr) k = true := by
      rw [installs, write, index, way]
      simp
    simp only [History.step, invalidates, (Bool.or_eq_false_iff.mp noFlush).2, noFill, installed,
      Bool.false_and, Bool.or_self, Bool.true_or, Bool.false_eq_true, if_false]
  · rw [isNc, Bool.or_eq_false_iff, Bool.not_eq_false', Bool.not_eq_false'] at nc
    exact nc.2
  · rw [data, epoch_next noFlush]
    funext j
    have byte := bytes j
    simp only [line, Bool.false_eq_true, if_false] at byte
    rw [byte, missing.address, line, memPaddr_line]
    rfl

theorem Inv.lines_next (inv : Inv mem H s) (env : Environment mem H s i)
    (notFlush : (next s i).state ≠ .flush) (quiet : (next s i).flush = false)
    {set : cfg.Index} {k : cfg.Way} {tag : Nat} (valid : Valid (next s i) set k tag) :
    Backed mem (H.step s i) (next s i) set k tag := by
  by_cases here : s.state = .flush
  · exact (inv.flush_leaves here notFlush valid).elim
  · have flushD : (next s i).flush = (s.flush || i.flush) := (flushD_eq here).1
    rw [flushD, Bool.or_eq_false_iff] at quiet
    cases write : (ctrl s i).cacheWren with
    | false =>
        obtain ⟨old, _⟩ := valid_of_next write valid
        refine (inv.lines here quiet.1 set k tag old).next quiet.2 ?_ (data_kept write)
        by_contra inval
        exact not_valid_of_invalidates write (by rw [flushEn_eq]; exact decide_eq_false here)
          (Bool.not_eq_false _ |>.mp inval) valid
    | true =>
        rcases written_of_wren write valid with ⟨rfl, way, rfl, data⟩ | ⟨old, same⟩
        · exact inv.backed_of_fill env write way data
        · have noInv : invalidates i set k = false := by
            rw [invalidates, invEn_of_ifill (wren_cases write).2.1]
            rfl
          exact (inv.lines here quiet.1 set k tag old).next quiet.2 noInv same

theorem Inv.unique_next (inv : Inv mem H s) (env : Environment mem H s i)
    (started : (H.step s i).booted = true ∨ (next s i).state ≠ .flush) (set : cfg.Index)
    (k k' : cfg.Way) (tag : Nat) (valid : Valid (next s i) set k tag)
    (valid' : Valid (next s i) set k' tag) : k = k' := by
  by_cases booted : H.booted = true ∨ s.state ≠ .flush
  · cases write : (ctrl s i).cacheWren with
    | false =>
        exact inv.unique booted set k k' tag (valid_of_next write valid).1
          (valid_of_next write valid').1
    | true =>
        obtain ⟨here, _, _, _, nc, _⟩ := wren_cases write
        obtain ⟨r, sent, _, _, missing⟩ := inv.missing here
        rw [paddrIsNc, tag_of_miss env here] at nc
        obtain ⟨_, absent⟩ := missing.cacheable nc
        rcases written_of_wren write valid with ⟨atSet, way, new, _⟩ | ⟨old, _⟩
        · rcases written_of_wren write valid' with ⟨_, way', _⟩ | ⟨old', _⟩
          · exact inv.oneWay k k' way way'
          · rw [atSet, new] at old'
            exact (absent k' old').elim
        · rcases written_of_wren write valid' with ⟨atSet, _, new, _⟩ | ⟨old', _⟩
          · rw [atSet, new] at old
            exact (absent k old).elim
          · exact inv.unique booted set k k' tag old old'
  · rw [not_or, not_not] at booted
    rcases started with booted' | leaves
    · simp [History.step, booted.1, booted.2] at booted'
    · exact (inv.flush_leaves booted.2 leaves valid).elim

theorem Inv.cleared_next (inv : Inv mem H s) (set : cfg.Index)
    (before : set < (next s i).flushCnt) (k : cfg.Way) (tag : Nat) :
    ¬ Valid (next s i) set k tag := by
  by_cases here : s.state = .flush
  · have noWrite : (ctrl s i).cacheWren = false := cacheWren_false (by rw [here]; decide)
    have clears : (ctrl s i).flushEn = true := by
      rw [flushEn_eq, here]
      rfl
    cases done : flushDone s with
    | true => exact inv.flushed here done
    | false =>
        have more : s.flushCnt.val ≠ cfg.numWords - 1 := of_decide_eq_false done
        have count : (next s i).flushCnt.val = s.flushCnt.val + 1 := by
          simp only [Icache.next, done, clears, Bool.false_eq_true, if_false, if_true]
          exact Fin.val_add_one_of_lt' (by have inside := s.flushCnt.isLt; omega)
        intro valid
        have old : set.val < s.flushCnt.val + 1 := count ▸ before
        rcases (by omega : set.val < s.flushCnt.val ∨ set.val = s.flushCnt.val) with less | last
        · exact inv.cleared here set less k tag (valid_of_next noWrite valid).1
        · exact not_valid_of_flush noWrite clears (Fin.ext last) valid
  · have count : (next s i).flushCnt = 0 := by
      simp only [Icache.next, flushEn_eq, here, decide_false, Bool.false_eq_true, if_false,
        inv.flushCnt here, ite_self]
    rw [count] at before
    exact absurd before (Fin.not_lt_zero set)

end Lines

/-! ## Runs -/

section Runs

theorem Inv.flushCnt_next (inv : Inv mem H s) (leaves : (next s i).state ≠ .flush) :
    (next s i).flushCnt = 0 := by
  cases move s i with
  | flushing here notYet out =>
      refine (leaves ?_).elim
      change (ctrl s i).state = .flush
      rw [out]
      exact here
  | flushed here done out => simp only [Icache.next, done, if_true]
  | _ =>
      have notFlush : s.state ≠ .flush := by simp_all
      simp only [Icache.next, flushEn_eq, notFlush, decide_false, Bool.false_eq_true, if_false,
        inv.flushCnt notFlush, ite_self]

theorem noFlush_next (opened : (next s i).state = .read ∨ (next s i).state = .miss) :
    (next s i).flush = false := by
  rcases opened with opened | opened
  · cases toRead opened with
    | accept here noFlush =>
        have notFlush : s.state ≠ .flush := by
          rcases here with here | here <;> rw [here] <;> decide
        exact (flushD_eq notFlush).1.trans noFlush
    | sends here noFlush => exact (flushD_eq (by rw [here]; decide)).1.trans noFlush
    | waits here noFlush => exact (flushD_eq (by rw [here]; decide)).1.trans noFlush
  · cases toMiss opened with
    | sends here noFlush => exact (flushD_eq (by rw [here]; decide)).1.trans noFlush
    | misses here noFill noKill noFlush =>
        exact (flushD_eq (by rw [here]; decide)).1.trans noFlush

theorem Inv.noSent_next (inv : Inv mem H s) (notMiss : (next s i).state ≠ .miss)
    (notKilled : (next s i).state ≠ .killMiss) : (H.step s i).sent = none := by
  have noAck : ((ctrl s i).memDataReq && i.memDataAck) = false := by
    by_contra sent
    obtain ⟨req, ack⟩ := Bool.and_eq_true_iff.mp (Bool.not_eq_false _ |>.mp sent)
    refine notMiss ?_
    change (ctrl s i).state = .miss
    cases move s i with
    | sends here noFlush shown noInv noKill noHit noException out =>
        rw [out, ack]
        rfl
    | _ =>
        rename_i out
        rw [out] at req
        cases req
  simp only [History.step, noAck, Bool.false_eq_true, if_false]
  split
  · rfl
  · rename_i noFill
    refine inv.noSent (fun here => ?_) (fun here => ?_)
    · have moves := move s i
      have state : (next s i).state = (ctrl s i).state := rfl
      cases moves with
      | leavesMiss here' noFill' kill out => exact notKilled (by rw [state, out])
      | misses here' noFill' noKill noFlush out => exact notMiss (by rw [state, out]; exact here)
      | _ => simp_all
    · have state : (next s i).state = (ctrl s i).state := rfl
      cases move s i with
      | killsMiss here' out => exact notKilled (by rw [state, out]; exact if_neg noFill)
      | _ => simp_all

theorem Inv.oneWay_next (inv : Inv mem H s) (k k' : cfg.Way)
    (isSet : (next s i).replWayOh k = true) (isSet' : (next s i).replWayOh k' = true) :
    k = k' := by
  simp only [Icache.next, replWayOhD] at isSet isSet'
  split at isSet
  · rename_i compares
    rw [if_pos compares] at isSet'
    exact Fin.ext ((of_decide_eq_true isSet).trans (of_decide_eq_true isSet').symm)
  · rename_i keeps
    rw [if_neg keeps] at isSet'
    exact inv.oneWay k k' isSet isSet'

theorem Inv.next (inv : Inv mem H s) (env : Environment mem H s i) :
    Inv mem (H.step s i) (next s i) where
  flushCnt := inv.flushCnt_next
  noFlush := noFlush_next
  reading := inv.reading_next env
  missing := inv.missing_next env
  noSent := inv.noSent_next
  ids := inv.ids_next
  known id inside := by
    refine Nat.lt_of_lt_of_le (inv.once_next.2 id inside) ?_
    simp only [History.step]
    split <;> omega
  once := inv.once_next.1
  lines notFlush quiet _ _ _ valid := inv.lines_next env notFlush quiet valid
  cleared _ := inv.cleared_next
  unique := inv.unique_next env
  oneWay := inv.oneWay_next

theorem inv_of_run {tagSram : cfg.Way → Sram cfg.Index (Bool × Nat)}
    {dataSram : cfg.Way → Sram cfg.Index cfg.Line} {cycles : List (Cycle cfg)} {s : State cfg}
    (run : (machine mem tagSram dataSram).Run cycles s) : Inv mem (history cycles) s := by
  refine run.invariant (fun cycles => Inv mem (history cycles)) (inv_reset mem _ _) ?_
  intro cycles s i _ inv env
  rw [history_concat]
  exact inv.next env

end Runs

/-! ## What is answered -/

section Answers

theorem select_val (line : cfg.Line) {offset : Nat} (j : Fin cfg.fetchBytes)
    (inside : offset + j.val < cfg.lineBytes) :
    select line offset j = line ⟨offset + j.val, inside⟩ :=
  dif_pos inside

theorem hitIdx_spec (any : anyHit s i = true) :
    ∃ inside : hitIdx s i < cfg.setAssoc, clHit s i ⟨hitIdx s i, inside⟩ = true := by
  obtain ⟨k, hit⟩ := of_decide_eq_true any
  have isSet : bits (clHit s i) k.val = true := by
    rw [bits, dif_pos k.isLt]
    exact hit
  obtain ⟨inside, found, _⟩ := lzcCnt_of_set cfg.setAssoc (bits (clHit s i)) k.val k.isLt isSet
  refine ⟨inside, ?_⟩
  rw [bits, dif_pos inside] at found
  exact found

/-- A way that hits holds the line of the address. -/
theorem Inv.hit_line (inv : Inv mem H s) {r : Request} (reading : Reading r s)
    (here : s.state = .read) (noFlush : s.flush = false) (noInv : s.inv = false)
    (enabled : s.cacheEn = true) {k : cfg.Way} (hit : clHit s i k = true) :
    Valid s (cfg.index s.vaddr) k (clTagD s i) ∧
      Backed mem H s (cfg.index s.vaddr) k (clTagD s i) ∧
      (s.dataSram k).rdata = lineOf cfg (mem H.epoch) (cfg.index s.vaddr) (clTagD s i) := by
  obtain ⟨tag, valid⟩ := Bool.and_eq_true_iff.mp hit
  have present : Valid s (cfg.index s.vaddr) k (clTagD s i) := by
    rw [Valid, ← reading.tags enabled noInv k]
    exact Prod.ext valid (beq_iff_eq.mp tag)
  have backed := inv.lines (by rw [here]; decide) noFlush _ _ _ present
  exact ⟨present, backed, by rw [reading.data enabled noInv k, backed.line]⟩

/-- The bytes of an access in the line of its address. -/
theorem lineOf_access {bytes : Nat → BitVec 8} {vaddr p : Nat} (page : OnPage cfg vaddr p)
    (j : Fin cfg.fetchBytes) :
    select (lineOf cfg bytes (cfg.index vaddr) (tagOf cfg p)) (offsetOf cfg vaddr) j =
      bytes (p + j.val) := by
  rw [select_val _ j (offset_lt cfg vaddr j.isLt), lineOf]
  refine congrArg bytes ?_
  have split := paddr_split page
  rw [align_line] at split
  dsimp only
  omega

/-- A hit answers with the bytes at the physical address. -/
theorem Inv.answer_hit (inv : Inv mem H s) (env : Environment mem H s i)
    (here : s.state = .read) (noFlush : s.flush = false) (noInv : s.inv = false)
    (shown' : shown s i = some i.fetchPaddr) (hit : (anyHit s i && s.cacheEn) = true) :
    ∃ r ∈ H.current s i, r.vaddr = s.vaddr ∧ ∃ p ∈ r.paddr,
      ∀ j : Fin cfg.fetchBytes, dreqData s i j = mem H.epoch (p + j.val) := by
  obtain ⟨r, request, reading⟩ := inv.reading here
  obtain ⟨any, enabled⟩ := Bool.and_eq_true_iff.mp hit
  obtain ⟨inside, way⟩ := hitIdx_spec any
  have paddr := paddr_shown env request shown'
  have page := page_current env reading _ paddr
  have tag : clTagD s i = tagOf cfg i.fetchPaddr := by
    rw [clTagD, (shown_some shown').1, if_pos rfl]
  obtain ⟨present, backed, line⟩ := inv.hit_line reading here noFlush noInv enabled way
  have compares : s.cmpEn = true := by
    by_contra off
    obtain ⟨q, known, absent⟩ := reading.failed enabled noInv (Bool.not_eq_true _ |>.mp off)
    have same := env.stable _ shown' r request q known
    rw [tag, same] at present
    exact absent _ present
  refine ⟨_, current_spec request, reading.vaddr, _, paddr, fun j => ?_⟩
  have nc : isNc cfg s.cacheEn (tagOf cfg i.fetchPaddr) = false := by
    rw [isNc, enabled, ← tag, backed.cacheable]
    rfl
  have offset := reading.offset_cacheable
    (fun q known => (env.stable _ shown' r request q known).symm) nc
  rw [dreqData, compares, if_pos rfl, dif_pos inside, clSel, line, offset, tag]
  exact lineOf_access page j

/-- A fill answers with the bytes at the physical address. -/
theorem Inv.answer_fill (inv : Inv mem H s) (env : Environment mem H s i)
    (here : s.state = .miss) (fill : ifill i = true) :
    ∃ r ∈ H.current s i, r.vaddr = s.vaddr ∧ ∃ p ∈ r.paddr,
      ∀ j : Fin cfg.fetchBytes, dreqData s i j = mem H.epoch (p + j.val) := by
  obtain ⟨r, sent, request, owed, missing⟩ := inv.missing here
  obtain ⟨p, known, page, tag⟩ := missing.paddr
  obtain ⟨sent', owed', fills⟩ := env.fill fill
  obtain rfl : sent' = sent := by
    rw [owed] at owed'
    exact (Option.some.inj owed').symm
  have bytes := fills missing.epoch
  have paddr : r.paddr.or (shown s i) = some p := by
    rw [show r.paddr = some p from known]
    rfl
  refine ⟨_, current_spec request, missing.vaddr, p, paddr, fun j => ?_⟩
  have address := missing.address
  have offset := missing.offset
  rw [tag] at address
  rw [dreqData, missing.cmpEn, if_neg Bool.false_ne_true, offset]
  cases nc : sent'.req.nc with
  | false =>
      have line : i.memRtrn.data =
          lineOf cfg (mem H.epoch) (cfg.index s.vaddr) (tagOf cfg p) := by
        funext k
        have byte := bytes k
        simp only [nc, Bool.false_eq_true, if_false] at byte
        rw [byte, address, nc, memPaddr_line]
        rfl
      rw [Bool.and_false, if_neg Bool.false_ne_true, line]
      exact lineOf_access page j
  | true =>
      rw [nc] at address
      cases axi : cfg.axi with
      | true =>
          have half := ncOffset_lt cfg s.vaddr j.isLt
          have inLine := Nat.le_of_dvd (Nat.two_pow_pos _) (eight_dvd_line cfg)
          have inside : ncOffset (offsetOf cfg s.vaddr) + j.val < cfg.lineBytes :=
            Nat.lt_of_lt_of_le half inLine
          have byte := bytes ⟨_, inside⟩
          simp only [nc, axi, if_true] at byte
          rw [Bool.and_self, if_pos rfl, select_val _ j inside, byte half, address,
            ← Nat.add_assoc, memPaddr_double axi page]
      | false =>
          obtain ⟨same, width, aligned⟩ := memPaddr_word axi page
          have inside := offset_lt cfg s.vaddr j.isLt
          have bound := j.isLt
          have byte := bytes ⟨_, inside⟩
          simp only [nc, axi, Bool.false_eq_true, if_false, if_true] at byte
          have last : (offsetOf cfg s.vaddr + j.val) % 4 = j.val := by omega
          rw [Bool.false_and, if_neg Bool.false_ne_true, select_val _ j inside, byte, address,
            same, last]

theorem Inv.answer (inv : Inv mem H s) (env : Environment mem H s i)
    (valid : (ctrl s i).valid = true) : i.killS2 = false ∧ ∃ r ∈ H.current s i,
      r.vaddr = s.vaddr ∧ (i.fetchException = false → ∃ p ∈ r.paddr,
        ∀ j : Fin cfg.fetchBytes, dreqData s i j = mem H.epoch (p + j.val)) := by
  obtain ⟨noKill, noFlush, from_⟩ := valid_cases valid
  refine ⟨noKill, ?_⟩
  rcases from_ with ⟨here, noInv, given, asks, hit⟩ | ⟨here, fill⟩
  · cases exception : i.fetchException with
    | true =>
        obtain ⟨r, request, reading⟩ := inv.reading here
        exact ⟨_, current_spec request, reading.vaddr, fun none => by cases none⟩
    | false =>
        have shown' : shown s i = some i.fetchPaddr := by
          rw [shown, asks, given, exception]
          rfl
        rw [exception, Bool.or_false] at hit
        obtain ⟨r, open', vaddr, bytes⟩ :=
          inv.answer_hit env here (Bool.or_eq_false_iff.mp noFlush).1 noInv shown' hit
        exact ⟨r, open', vaddr, fun _ => bytes⟩
  · obtain ⟨r, open', vaddr, bytes⟩ := inv.answer_fill env here fill
    exact ⟨r, open', vaddr, fun _ => bytes⟩

theorem Inv.filled (inv : Inv mem H s) (env : Environment mem H s i) (fill : ifill i = true)
    (used : (ctrl s i).valid = true ∨ (ctrl s i).cacheWren = true) :
    i.killS2 = false ∧ ∃ sent ∈ H.sent, ∃ r ∈ H.request, sent.owner = r.id := by
  have waits : i.killS2 = false ∧ s.state = .miss := by
    rcases used with valid | write
    · obtain ⟨noKill, _, from_⟩ := valid_cases valid
      refine ⟨noKill, ?_⟩
      rcases from_ with ⟨here, _⟩ | ⟨here, _⟩
      · obtain ⟨sent, owed, _⟩ := env.fill fill
        rw [inv.noSent (by rw [here]; decide) (by rw [here]; decide)] at owed
        cases owed
      · exact here
    · obtain ⟨here, _, noKill, _⟩ := wren_cases write
      exact ⟨noKill, here⟩
  obtain ⟨r, sent, request, owed, missing⟩ := inv.missing waits.2
  exact ⟨waits.1, sent, owed, r, request, missing.owner⟩

theorem Inv.hits_fresh (inv : Inv mem H s) (valid : (ctrl s i).valid = true)
    (here : s.state = .read) (noException : i.fetchException = false) : anyHit s i = true ∧
      ∀ k, clHit s i k = true → H.fresh (cfg.index s.vaddr) k = true := by
  obtain ⟨_, noFlush, from_⟩ := valid_cases valid
  rcases from_ with ⟨_, noInv, _, _, hit⟩ | ⟨here', _⟩
  · rw [noException, Bool.or_false, Bool.and_eq_true_iff] at hit
    obtain ⟨r, _, reading⟩ := inv.reading here
    exact ⟨hit.1, fun k way => (inv.hit_line reading here
      (Bool.or_eq_false_iff.mp noFlush).1 noInv hit.2 way).2.1.fresh⟩
  · rw [here] at here'
    cases here'

/-- In every cycle of every run the cache keeps its promises. -/
theorem icache_sound {tagSram : cfg.Way → Sram cfg.Index (Bool × Nat)}
    {dataSram : cfg.Way → Sram cfg.Index cfg.Line} {cycles : List (Cycle cfg)} {s : State cfg}
    (run : (machine mem tagSram dataSram).Run cycles s) {i : Input cfg}
    (env : Environment mem (history cycles) s i) : Sound mem (history cycles) s i := by
  have inv := inv_of_run run
  exact {
    answer := inv.answer env
    once := inv.once_next.1
    filled := inv.filled env
    unique := inv.unique
    fresh := inv.hits_fresh }

end Answers

/-! ## A fill and a hit -/

section Example

instance decidableFills (bytes : Nat → BitVec 8) (req : IReq) (data : cfg.Line) :
    Decidable (Fills cfg bytes req data) :=
  inferInstanceAs (Decidable (∀ k : Fin cfg.lineBytes,
    if req.nc then
      if cfg.axi then k.val < 8 → data k = bytes (req.paddr + k.val)
      else data k = bytes (req.paddr + k.val % 4)
    else data k = bytes (req.paddr + k.val)))

instance decidableEnvironment (mem : Nat → Nat → BitVec 8) (H : History cfg) (s : State cfg)
    (i : Input cfg) : Decidable (Environment mem H s i) :=
  decidable_of_iff
    ((i.fetchValid = true → s.state ≠ .miss) ∧
      (∀ p ∈ shown s i, p < 2 ^ (cfg.tagWidth + cfg.indexWidth) ∧
        p % 2 ^ cfg.indexWidth = fetchVaddr s % 2 ^ cfg.indexWidth) ∧
      (∀ p ∈ shown s i, ∀ r ∈ H.request, ∀ q ∈ r.paddr, p = q) ∧
      (ifill i = true → ∃ sent ∈ H.sent,
        sent.epoch = H.epoch → Fills cfg (mem H.epoch) sent.req i.memRtrn.data) ∧
      (i.flush = true → i.killS2 = true))
    ⟨fun ⟨asked, page, stable, fill, killed⟩ => ⟨asked, page, stable, fill, killed⟩,
      fun ⟨asked, page, stable, fill, killed⟩ => ⟨asked, page, stable, fill, killed⟩⟩

instance decidableAllowed (mem : Nat → Nat → BitVec 8)
    (tagSram : cfg.Way → Sram cfg.Index (Bool × Nat)) (dataSram : cfg.Way → Sram cfg.Index cfg.Line)
    (cycles : List (Cycle cfg)) (s : State cfg) (i : Input cfg) :
    Decidable ((machine mem tagSram dataSram).allowed cycles s i) :=
  inferInstanceAs (Decidable (Environment mem (history cycles) s i))

private theorem line_inside : 3 ≤ 4 := by decide

/-- Two sets of two ways with lines of eight bytes. -/
def twoSets : IcacheCfg where
  tagWidth := 4
  indexWidth := 4
  offsetWidth := 3
  setAssoc := 2
  fetchAlignBits := 2
  axi := true
  nonIdemPotenceEn := false
  isInsideCacheableRegions _ := true
  isInsideNonidempotentRegions _ := false
  rdTxId := 0
  doubleInLine := by decide
  lineInIndex := line_inside
  fetchAlign := .inl rfl

/-- Each byte holds its address. -/
def addresses (_ : Nat) (a : Nat) : BitVec 8 := BitVec.ofNat 8 a

def anyTags (_ : twoSets.Way) : Sram twoSets.Index (Bool × Nat) :=
  ⟨fun _ => (true, 1), 0, (true, 1)⟩

def anyLines (_ : twoSets.Way) : Sram twoSets.Index twoSets.Line :=
  ⟨fun _ _ => 0, 0, fun _ => 0⟩

/-- The sets are cleared, a line is filled, and it is requested again. -/
def fillRun : List (Input twoSets) :=
  let fetch : Input twoSets := { en := true, req := true, vaddr := 4 }
  [{ en := true }, { en := true }, fetch,
    { en := true, fetchValid := true, fetchPaddr := 0x14, memDataAck := true },
    { en := true, memRtrnVld := true,
      memRtrn := { rtype := .ifillAck, data := fun j => BitVec.ofNat 8 (0x10 + j.val) } },
    fetch]

theorem icache_sound_fillRun :
    let m := machine addresses anyTags anyLines
    let cycles := m.cyclesOf m.reset fillRun
    let s := m.after m.reset fillRun
    let i : Input twoSets := { en := true, fetchValid := true, fetchPaddr := 0x14 }
    ((ctrl s i).valid = true ∧ anyHit s i = true ∧
      dreqData s i ⟨0, by decide⟩ = 0x14) ∧ Sound addresses (history cycles) s i :=
  ⟨by decide +kernel, icache_sound (Clocked.Machine.run_of_accepts
    (m := machine addresses anyTags anyLines) fillRun (by decide +kernel)) (by decide +kernel)⟩

end Example

end Cva6.Icache
