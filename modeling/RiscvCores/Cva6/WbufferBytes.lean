import RiscvCores.Cva6.WtDcacheWbuffer

/-!
# No store byte is lost

Every byte of the buffer is free, waits, is in flight, or both.  What becomes of the last
value stored to a byte is followed through the transactions and their acknowledges.
-/

set_option autoImplicit false

namespace Cva6.Wbuffer

open CommonCells

variable {cfg : DcacheCfg}

/-! ## The bytes of a transaction -/

section Transfer

theorem anyByte_iff {mask : cfg.Mask} : anyByte mask = true ↔ ∃ l, mask l = true :=
  decide_eq_true_iff

theorem bits_lanesFrom (lo n k : Nat) (inside : k < cfg.bytes) :
    RrState.bits (lanesFrom lo n : cfg.Mask) k = decide (lo ≤ k ∧ k < lo + n) :=
  dif_pos inside

/-- The first of some lanes is counted. -/
theorem lzcCnt_lanesFrom {lo n : Nat} (some : 0 < n) (inside : lo < cfg.bytes) :
    lzcCnt cfg.bytes (RrState.bits (lanesFrom lo n : cfg.Mask)) = lo := by
  have set : RrState.bits (lanesFrom lo n : cfg.Mask) lo = true := by
    rw [bits_lanesFrom lo n lo inside, decide_eq_true_iff]
    omega
  obtain ⟨below, counted, least⟩ := lzcCnt_of_set _ _ lo inside set
  rw [bits_lanesFrom lo n _ below, decide_eq_true_iff] at counted
  by_contra other
  have clear := least lo (by omega)
  rw [set] at clear
  cases clear

/-- A transfer of `2 ^ size` lanes from `off` on is aligned and sends set lanes only. -/
structure Transfers (mask : cfg.Mask) (off size : Nat) : Prop where
  aligned : off % 2 ^ size = 0
  inside : off + 2 ^ size ≤ cfg.bytes
  set : ∀ l : cfg.Lane, off ≤ l.val → l.val < off + 2 ^ size → mask l = true

theorem transfers_lanesFrom (lo size : Nat) (aligned : lo % 2 ^ size = 0)
    (inside : lo + 2 ^ size ≤ cfg.bytes) :
    Transfers (lanesFrom lo (2 ^ size) : cfg.Mask)
      (lzcCnt cfg.bytes (RrState.bits (lanesFrom lo (2 ^ size) : cfg.Mask))) size := by
  have some := Nat.two_pow_pos size
  rw [lzcCnt_lanesFrom some (by omega)]
  exact ⟨aligned, inside, fun l low high => decide_eq_true ⟨low, high⟩⟩

theorem transfers_byte {mask : cfg.Mask} (some : anyByte mask = true) :
    Transfers mask (lzcCnt cfg.bytes (RrState.bits mask)) 0 := by
  obtain ⟨l, set⟩ := anyByte_iff.mp some
  have set' : RrState.bits mask l.val = true := by rwa [RrState.bits_fin]
  obtain ⟨inside, counted, _⟩ := lzcCnt_of_set _ _ l.val l.isLt set'
  refine ⟨Nat.mod_one _, inside, fun l' low high => ?_⟩
  have same : l'.val = lzcCnt cfg.bytes (RrState.bits mask) := by omega
  rwa [← same, RrState.bits_fin] at counted

theorem toSize64_transfers (wide : cfg.xlen64 = true) {mask : cfg.Mask}
    (some : anyByte mask = true) :
    Transfers mask (lzcCnt cfg.bytes (RrState.bits mask)) (toSize64 mask) := by
  have bytes : cfg.bytes = 8 := by simp [DcacheCfg.bytes, DcacheCfg.xlenAlignBytes, wide]
  unfold toSize64
  split_ifs with dword word hword
  · rw [dword]
    exact transfers_lanesFrom 0 3 rfl (by omega)
  · rcases word with same | same
    · rw [same]
      exact transfers_lanesFrom 0 2 rfl (by omega)
    · rw [same]
      exact transfers_lanesFrom 4 2 rfl (by omega)
  · rcases hword with same | same | same | same
    · rw [same]
      exact transfers_lanesFrom 6 1 rfl (by omega)
    · rw [same]
      exact transfers_lanesFrom 4 1 rfl (by omega)
    · rw [same]
      exact transfers_lanesFrom 2 1 rfl (by omega)
    · rw [same]
      exact transfers_lanesFrom 0 1 rfl (by omega)
  · exact transfers_byte some

theorem toSize32_transfers (narrow : cfg.xlen64 = false) {mask : cfg.Mask}
    (some : anyByte mask = true) :
    Transfers mask (lzcCnt cfg.bytes (RrState.bits mask)) (toSize32 mask) := by
  have bytes : cfg.bytes = 4 := by simp [DcacheCfg.bytes, DcacheCfg.xlenAlignBytes, narrow]
  unfold toSize32
  split_ifs with word hword
  · rw [word]
    exact transfers_lanesFrom 0 2 rfl (by omega)
  · rcases hword with same | same
    · rw [same]
      exact transfers_lanesFrom 2 1 rfl (by omega)
    · rw [same]
      exact transfers_lanesFrom 0 1 rfl (by omega)
  · exact transfers_byte some

variable {s : State cfg}

/-- What the selected word transfers. -/
theorem missSize_transfers (some : dirty s (dirtyPtr s) = true) :
    Transfers (bdirty s (dirtyPtr s)) (bdirtyOff s) (missSize s) := by
  unfold missSize bdirtyOff
  cases wide : cfg.xlen64 with
  | true => exact toSize64_transfers wide some
  | false => exact toSize32_transfers wide some

/-- The byte enables of a transfer are its lanes. -/
theorem Transfers.byteEnable {mask : cfg.Mask} {off size : Nat}
    (transfers : Transfers mask off size) (l : cfg.Lane) :
    (if cfg.xlen64 then toByteEnable8 off size else toByteEnable4 off size) l = true ↔
      off ≤ l.val ∧ l.val < off + 2 ^ size := by
  have inside := transfers.inside
  have bound := l.isLt
  cases wide : cfg.xlen64 with
  | true =>
      have bytes : cfg.bytes = 8 := by simp [DcacheCfg.bytes, DcacheCfg.xlenAlignBytes, wide]
      rw [if_pos rfl]
      match size with
      | 0 | 1 | 2 => exact decide_eq_true_iff
      | n + 3 =>
          have large : 2 ^ (n + 3) = 2 ^ n * 8 := Nat.pow_add 2 n 3
          have positive := Nat.two_pow_pos n
          exact ⟨fun _ => by omega, fun _ => rfl⟩
  | false =>
      have bytes : cfg.bytes = 4 := by simp [DcacheCfg.bytes, DcacheCfg.xlenAlignBytes, wide]
      rw [if_neg Bool.false_ne_true]
      match size with
      | 0 | 1 => exact decide_eq_true_iff
      | n + 2 =>
          have large : 2 ^ (n + 2) = 2 ^ n * 4 := Nat.pow_add 2 n 2
          have positive := Nat.two_pow_pos n
          exact ⟨fun _ => by omega, fun _ => rfl⟩

theorem byteAt_lane (data : cfg.Word) {n : Nat} {l : cfg.Lane} (same : n = l.val) :
    byteAt data n = data l := by
  subst same
  exact dif_pos l.isLt

/-- The lanes of a transfer carry the bytes of the word. -/
theorem Transfers.repData {mask : cfg.Mask} {off size : Nat} (transfers : Transfers mask off size)
    (data : cfg.Word) {l : cfg.Lane} (low : off ≤ l.val) (high : l.val < off + 2 ^ size) :
    (if cfg.xlen64 then repData64 data off size else repData32 data off size) l = data l := by
  have aligned := transfers.aligned
  split
  · match size with
    | 0 => exact byteAt_lane data (by omega)
    | 1 => exact byteAt_lane data (by omega)
    | 2 => exact byteAt_lane data (by omega)
    | _ + 3 => rfl
  · match size with
    | 0 => exact byteAt_lane data (by omega)
    | 1 => exact byteAt_lane data (by omega)
    | _ + 2 => rfl

theorem txBe_iff (some : dirty s (dirtyPtr s) = true) (l : cfg.Lane) :
    txBe s l = true ↔ bdirtyOff s ≤ l.val ∧ l.val < bdirtyOff s + 2 ^ missSize s := by
  rw [← (missSize_transfers some).byteEnable l, txBe]

/-- Sent bytes are dirty and not in flight. -/
theorem bdirty_of_txBe (some : dirty s (dirtyPtr s) = true) {l : cfg.Lane}
    (sends : txBe s l = true) : bdirty s (dirtyPtr s) l = true := by
  obtain ⟨low, high⟩ := (txBe_iff some l).mp sends
  exact (missSize_transfers some).set l low high

theorem anyByte_txBe (some : dirty s (dirtyPtr s) = true) : anyByte (txBe s) = true := by
  have inside := (missSize_transfers some).inside
  have positive := Nat.two_pow_pos (missSize s)
  refine anyByte_iff.mpr ⟨⟨bdirtyOff s, by omega⟩, (txBe_iff some _).mpr ⟨Nat.le_refl _, ?_⟩⟩
  simp only
  omega

theorem missWdata_of_txBe (some : dirty s (dirtyPtr s) = true) {l : cfg.Lane}
    (sends : txBe s l = true) : missWdata s l = (s.wbuffer (dirtyPtr s)).data l := by
  obtain ⟨low, high⟩ := (txBe_iff some l).mp sends
  have carried := (missSize_transfers some).repData (s.wbuffer (dirtyPtr s)).data low high
  rw [← carried, missWdata, Wbuffer.repData]

end Transfer

/-! ## What a cycle does to an entry -/

section Cycle

variable (s : State cfg) (i : Input cfg)

/-- The strobes of `evictBlock`, `sendBlock` and `storeBlock`. -/
def leaves (k : cfg.Ptr) : Bool := strobe (evict s i) (rtrnPtr s) k

def sends (k : cfg.Ptr) : Bool := strobe (dirtyRdEn s i) (dirtyPtr s) k

def stores (k : cfg.Ptr) : Bool := strobe (dataGnt s i) (wrPtr s i) k

theorem wbufferD_wtag (k : cfg.Ptr) :
    (wbufferD s i k).wtag = if stores s i k then reqWtag i else (s.wbuffer k).wtag := by
  change (if stores s i k then _ else _ : Entry cfg).wtag = _
  simp only [sendBlock, evictBlock, invalBlock, checkBlock, release, Buffer.modify,
    apply_ite Entry.wtag, ite_self]

theorem wbufferD_dirty (k : cfg.Ptr) (l : cfg.Lane) :
    (wbufferD s i k).dirty l =
      ((s.wbuffer k).dirty l && !(sends s i k && txBe s l) || stores s i k && i.dataBe l) := by
  simp only [wbufferD, storeBlock, sendBlock, evictBlock, invalBlock, checkBlock, release,
    Buffer.modify, sends, stores, apply_ite Entry.dirty, ite_self]
  cases strobe (dirtyRdEn s i) (dirtyPtr s) k <;>
    cases strobe (dataGnt s i) (wrPtr s i) k <;> simp

theorem wbufferD_txblock (k : cfg.Ptr) (l : cfg.Lane) :
    (wbufferD s i k).txblock l =
      ((s.wbuffer k).txblock l && !(leaves s i k && (s.txStat (rtrnId s)).be l) ||
        sends s i k && txBe s l) := by
  simp only [wbufferD, storeBlock, sendBlock, evictBlock, invalBlock, checkBlock, release,
    Buffer.modify, sends, leaves, apply_ite Entry.txblock, ite_self]
  cases strobe (evict s i) (rtrnPtr s) k <;>
    cases strobe (dirtyRdEn s i) (dirtyPtr s) k <;> simp

theorem wbufferD_valid (k : cfg.Ptr) (l : cfg.Lane) :
    (wbufferD s i k).valid l =
      ((s.wbuffer k).valid l && !(leaves s i k && (s.txStat (rtrnId s)).be l &&
        !(s.wbuffer k).dirty l) || stores s i k && i.dataBe l) := by
  simp only [wbufferD, storeBlock, sendBlock, evictBlock, invalBlock, checkBlock, release,
    Buffer.modify, stores, leaves, apply_ite Entry.valid, ite_self]
  cases gone : strobe (evict s i) (rtrnPtr s) k with
  | false => cases strobe (dataGnt s i) (wrPtr s i) k <;> simp
  | true =>
      have here : k = rtrnPtr s := of_decide_eq_true (Bool.and_eq_true_iff.mp gone).2
      rw [← here]
      cases strobe (dataGnt s i) (wrPtr s i) k <;> simp

theorem wbufferD_data (k : cfg.Ptr) (l : cfg.Lane) :
    (wbufferD s i k).data l =
      if stores s i k && i.dataBe l then i.dataWdata l else (s.wbuffer k).data l := by
  change (if stores s i k then _ else _ : Entry cfg).data l = _
  simp only [sendBlock, evictBlock, invalBlock, checkBlock, release, Buffer.modify,
    apply_ite Entry.data, ite_self]
  cases stores s i k with
  | true => rfl
  | false => rfl

end Cycle

end Cva6.Wbuffer
