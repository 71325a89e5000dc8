import RiscvCores.Lib.SmallFin
import RiscvCores.Lib.ReadCache
import RiscvCores.Toooba.TlbTypes

/-!
# The arrays of the second-level TLB

The set-associative array of 4KB pages, the fully associative array of mega and giga pages
and the split translation cache.  Which entry gives way to a new one is left open: the
replacement state is not modelled and a victim is given from outside.
-/

set_option autoImplicit false

namespace Toooba.Tlb

/-! ## `FullAssocTlb` -/

section FullAssoc

variable {n : Nat}

def FullAssoc.isMatch (vpn : Vpn) (asid : Asid) (entry : TlbEntry) : Bool :=
  (entry.asid == asid || entry.pteType.global) && getMaskedVpn vpn entry.level == entry.vpn

def FullAssoc.translate (c : Fin n → Option TlbEntry) (vpn : Vpn) (asid : Asid) :
    Option TlbEntry :=
  ReadCache.lookup (FullAssoc.isMatch vpn asid) c

def FullAssoc.sameEntry (x en : TlbEntry) : Bool :=
  en.vpn == x.vpn && en.level == x.level && en.asid == x.asid &&
    en.pteType.global == x.pteType.global

/-- An empty slot is taken first.  `victim` is where the LRU bits point; there is none when the
random index is beyond the last slot. -/
def FullAssoc.addEntry (c : Fin n → Option TlbEntry) (x : TlbEntry) (victim : Option (Fin n)) :
    Fin n → Option TlbEntry :=
  ReadCache.insert (FullAssoc.sameEntry x) ((ReadCache.firstEmpty c).or victim) x c

end FullAssoc

/-! ## `SetAssocTlb` -/

inductive SetAssocTlbReq
  | translate (vpn : Vpn) (asid : Asid)
  | refill (entry : TlbEntry)

def SetAssocTlbReq.vpn : SetAssocTlbReq → Vpn
  | .translate vpn _ => vpn
  | .refill entry => entry.vpn

inductive SetAssocTlbState
  | flush
  | ready
deriving DecidableEq

/-- `pendReq` is kept with the row of the RAM read for it. -/
structure SetAssocTlb (lgSetNum wayNum : Nat) where
  tlbRam : BitVec lgSetNum → Fin wayNum → Option TlbEntry
  pendReq : Option (SetAssocTlbReq × (Fin wayNum → Option TlbEntry))
  flushIdx : BitVec lgSetNum
  state : SetAssocTlbState

namespace SetAssocTlb

variable {lgSetNum wayNum : Nat} (t : SetAssocTlb lgSetNum wayNum)

def getIndex (vpn : Vpn) : BitVec lgSetNum := vpn.setWidth lgSetNum

def doFlush : Option (SetAssocTlb lgSetNum wayNum) :=
  if t.state = .flush then
    some
      { t with
        tlbRam := Function.update t.tlbRam t.flushIdx fun _ => none
        flushIdx := t.flushIdx + 1
        state := if t.flushIdx = BitVec.allOnes lgSetNum then .ready else .flush }
  else none

def sameEntry (newEn en : TlbEntry) : Bool :=
  en.vpn == newEn.vpn && en.asid == newEn.asid && en.pteType.global == newEn.pteType.global

def doAddEntry (addWay : Fin wayNum) : Option (SetAssocTlb lgSetNum wayNum) :=
  match t.state, t.pendReq with
  | .ready, some (.refill newEn, row) =>
      let idx := getIndex newEn.vpn
      some
        { t with
          pendReq := none
          tlbRam :=
            if ReadCache.present (sameEntry newEn) row then t.tlbRam
            else
              Function.update t.tlbRam idx
                (ReadCache.put (some addWay) newEn (t.tlbRam idx)) }
  | _, _ => none

def flush : Option (SetAssocTlb lgSetNum wayNum) :=
  if t.state = .ready ∧ t.pendReq.isNone then some { t with state := .flush, flushIdx := 0 }
  else none

def req (r : SetAssocTlbReq) : Option (SetAssocTlb lgSetNum wayNum) :=
  if t.state = .ready ∧ t.pendReq.isNone then
    some { t with pendReq := some (r, t.tlbRam (getIndex r.vpn)) }
  else none

def entryHit (vpn : Vpn) (asid : Asid) (en : TlbEntry) : Bool :=
  (en.asid == asid || en.pteType.global) && en.vpn == vpn

/-- The hit, if any, of the translation under way; it has no value without one. -/
def resp : Option (Option TlbEntry) :=
  match t.state, t.pendReq with
  | .ready, some (.translate vpn asid, row) => some (ReadCache.lookup (entryHit vpn asid) row)
  | _, _ => none

def deqResp : SetAssocTlb lgSetNum wayNum := { t with pendReq := none }

/-- All entries that can be read are good: those of the rows once they are flushed, those of the
row read for a request, and the entry on its way into the array. -/
structure Sound (good : TlbEntry → Prop) (t : SetAssocTlb lgSetNum wayNum) : Prop where
  rows : t.state = .ready → ∀ idx, ReadCache.Holds good (t.tlbRam idx)
  flushed : t.state = .flush →
    t.pendReq = none ∧ ∀ idx, idx < t.flushIdx → ∀ way, t.tlbRam idx way = none
  row : ∀ r row, t.pendReq = some (r, row) → ReadCache.Holds good row
  refill : ∀ entry row, t.pendReq = some (.refill entry, row) → good entry

section Sound

variable {t} {t' : SetAssocTlb lgSetNum wayNum} {good : TlbEntry → Prop}

theorem Sound.doFlush (sound : Sound good t) (fires : t.doFlush = some t') : Sound good t' := by
  obtain ⟨flushing, rfl⟩ : t.state = .flush ∧ _ = t' := by
    simpa only [SetAssocTlb.doFlush, Option.ite_none_right_eq_some, Option.some_inj] using fires
  obtain ⟨idle, below⟩ := sound.flushed flushing
  have cleared : ∀ idx, idx ≤ t.flushIdx → ∀ way,
      Function.update t.tlbRam t.flushIdx (fun _ => none) idx way = none := by
    intro idx le way
    by_cases here : idx = t.flushIdx
    · rw [here, Function.update_self]
    · rw [Function.update_of_ne here]
      exact below idx (by bv_omega) way
  constructor
  · intro ready idx way entry member
    have last : t.flushIdx = BitVec.allOnes lgSetNum := by
      by_contra more
      simp [more] at ready
    have all : idx ≤ t.flushIdx := by
      rw [last, BitVec.le_def, BitVec.toNat_allOnes]
      have bound := idx.isLt
      omega
    cases (cleared idx all way).symm.trans member
  · intro more
    refine ⟨idle, fun idx small way => cleared idx ?_ way⟩
    have notLast : t.flushIdx ≠ BitVec.allOnes lgSetNum := by
      intro last
      simp [last] at more
    have room : t.flushIdx.toNat ≠ 2 ^ lgSetNum - 1 := by
      intro last
      exact notLast (BitVec.eq_of_toNat_eq (by rw [last, BitVec.toNat_allOnes]))
    have bound := t.flushIdx.isLt
    have sets : 1 < 2 ^ lgSetNum := by omega
    have one : (1 : BitVec lgSetNum).toNat = 1 := Nat.mod_eq_of_lt sets
    have next : (t.flushIdx + 1).toNat = t.flushIdx.toNat + 1 := by
      rw [← one]
      exact BitVec.toNat_add_of_lt (by rw [one]; omega)
    rw [BitVec.lt_def, next] at small
    rw [BitVec.le_def]
    omega
  · intro r row pending
    rw [idle] at pending
    cases pending
  · intro entry row pending
    rw [idle] at pending
    cases pending

theorem Sound.doAddEntry (sound : Sound good t) {way : Fin wayNum}
    (fires : t.doAddEntry way = some t') : Sound good t' := by
  unfold SetAssocTlb.doAddEntry at fires
  split at fires
  next newEn row ready pending =>
    obtain rfl := Option.some_inj.mp fires
    have added := sound.refill newEn row pending
    constructor
    · intro _ idx
      dsimp only
      split
      · exact sound.rows ready idx
      · by_cases here : idx = getIndex newEn.vpn
        · subst here
          rw [Function.update_self]
          exact (sound.rows ready _).put added
        · rw [Function.update_of_ne here]
          exact sound.rows ready idx
    · intro flushing
      cases ready.symm.trans flushing
    · exact nofun
    · exact nofun
  next => cases fires

theorem doFlush_pendReq (fires : t.doFlush = some t') : t'.pendReq = t.pendReq := by
  obtain ⟨-, rfl⟩ : t.state = .flush ∧ _ = t' := by
    simpa only [SetAssocTlb.doFlush, Option.ite_none_right_eq_some, Option.some_inj] using fires
  rfl

theorem doAddEntry_pendReq {way : Fin wayNum} (fires : t.doAddEntry way = some t') :
    t'.pendReq = none ∧ ∃ entry row, t.pendReq = some (.refill entry, row) := by
  unfold SetAssocTlb.doAddEntry at fires
  split at fires
  next newEn row _ pending =>
    obtain rfl := Option.some_inj.mp fires
    exact ⟨rfl, newEn, row, pending⟩
  next => cases fires

theorem flush_some (fires : t.flush = some t') :
    t.pendReq = none ∧ t' = { t with state := .flush, flushIdx := 0 } := by
  obtain ⟨⟨-, idle⟩, rfl⟩ : (t.state = .ready ∧ t.pendReq.isNone) ∧ _ = t' := by
    simpa only [SetAssocTlb.flush, Option.ite_none_right_eq_some, Option.some_inj] using fires
  exact ⟨Option.isNone_iff_eq_none.mp idle, rfl⟩

theorem sound_of_flush (good : TlbEntry → Prop) (fires : t.flush = some t') : Sound good t' := by
  obtain ⟨idle, rfl⟩ := flush_some fires
  constructor
  · exact nofun
  · exact fun _ => ⟨idle, fun idx small => absurd small (BitVec.not_lt_zero)⟩
  · intro r row pending
    cases idle.symm.trans pending
  · intro entry row pending
    cases idle.symm.trans pending

theorem req_some {r : SetAssocTlbReq} (fires : t.req r = some t') :
    t.state = .ready ∧ t.pendReq = none ∧
      t' = { t with pendReq := some (r, t.tlbRam (getIndex r.vpn)) } := by
  obtain ⟨⟨ready, idle⟩, rfl⟩ : (t.state = .ready ∧ t.pendReq.isNone) ∧ _ = t' := by
    simpa only [SetAssocTlb.req, Option.ite_none_right_eq_some, Option.some_inj] using fires
  exact ⟨ready, Option.isNone_iff_eq_none.mp idle, rfl⟩

theorem Sound.req (sound : Sound good t) {r : SetAssocTlbReq}
    (refill : ∀ entry, r = .refill entry → good entry) (fires : t.req r = some t') :
    Sound good t' := by
  obtain ⟨ready, -, rfl⟩ := req_some fires
  constructor
  · exact sound.rows
  · intro flushing
    cases ready.symm.trans flushing
  · rintro r' row pending
    cases pending
    exact sound.rows ready _
  · rintro entry row pending
    cases pending
    exact refill entry rfl

theorem Sound.deqResp (sound : Sound good t) : Sound good t.deqResp where
  rows := sound.rows
  flushed flushing := ⟨rfl, (sound.flushed flushing).2⟩
  row := nofun
  refill := nofun

/-- A hit is a good entry for the page asked for. -/
theorem Sound.resp (sound : Sound good t) {hit : Option TlbEntry} (fires : t.resp = some hit) :
    ∃ vpn asid row, t.pendReq = some (.translate vpn asid, row) ∧
      ∀ entry ∈ hit, good entry ∧ entry.vpn = vpn := by
  unfold SetAssocTlb.resp at fires
  split at fires
  next vpn asid row _ pending =>
    refine ⟨vpn, asid, row, pending, fun entry member => ?_⟩
    obtain rfl := Option.some_inj.mp fires
    obtain ⟨sound, matched⟩ := (sound.row _ row pending).lookup member
    refine ⟨sound, ?_⟩
    simp only [entryHit, Bool.and_eq_true, beq_iff_eq] at matched
    exact matched.2
  next => cases fires

end Sound

end SetAssocTlb

/-! ## `TranslationCache` -/

structure TranslationCacheResp where
  startLevel : PageWalkLevel
  ppn : Ppn

/-- A page-table pointer kept for the virtual page numbers that take it. -/
structure TransEntry where
  vpn : Vpn
  ppn : Ppn
  asid : Asid

def TransEntry.hit (level : PageWalkLevel) (vpn : Vpn) (asid : Asid) (e : TransEntry) : Bool :=
  getMaskedVpn vpn level == getMaskedVpn e.vpn level && asid == e.asid

/-- `caches i` keeps the pointers read at level `i + 1`. -/
structure TranslationCache (size : Nat) where
  caches : Fin 2 → Fin size → Option TransEntry
  respQ : Option TranslationCacheResp

namespace TranslationCache

variable {size : Nat} (t : TranslationCache size)

def cacheLevel (i : Fin 2) : PageWalkLevel := BitVec.ofNat 2 (i.val + 1)

def hits (vpn : Vpn) (asid : Asid) (i : Fin 2) : Option Ppn :=
  (ReadCache.lookup (TransEntry.hit (cacheLevel i) vpn asid) (t.caches i)).map TransEntry.ppn

/-- A hit in the lower level has priority.  On a miss the code leaves `ppn` open. -/
def answer (vpn : Vpn) (asid : Asid) : TranslationCacheResp :=
  match t.hits vpn asid 0, t.hits vpn asid 1 with
  | some ppn, _ => { startLevel := 0, ppn }
  | none, some ppn => { startLevel := 1, ppn }
  | none, none => { startLevel := maxPageWalkLevel, ppn := 0 }

def req (vpn : Vpn) (asid : Asid) : Option (TranslationCache size) :=
  if t.respQ.isNone then some { t with respQ := some (t.answer vpn asid) } else none

def deqResp : TranslationCache size := { t with respQ := none }

def addEntry (vpn : Vpn) (level : PageWalkLevel) (ppn : Ppn) (asid : Asid)
    (victim : Option (Fin size)) : Option (TranslationCache size) :=
  if t.respQ.isNone then
    some
      { t with
        caches := fun i =>
          if cacheLevel i = level then
            ReadCache.insert (TransEntry.hit level vpn asid)
              ((ReadCache.firstEmpty (t.caches i)).or victim) ⟨vpn, ppn, asid⟩ (t.caches i)
          else t.caches i }
  else none

def flush : TranslationCache size := { t with caches := fun _ _ => none }

def Sound (good : Fin 2 → TransEntry → Prop) (t : TranslationCache size) : Prop :=
  ∀ i, ReadCache.Holds (good i) (t.caches i)

section Sound

variable {t} {t' : TranslationCache size} {good : Fin 2 → TransEntry → Prop} {vpn : Vpn}
  {asid : Asid}

theorem Sound.hits (sound : Sound good t) {i : Fin 2} {ppn : Ppn}
    (found : t.hits vpn asid i = some ppn) :
    ∃ entry, good i entry ∧ entry.ppn = ppn ∧
      getMaskedVpn vpn (cacheLevel i) = getMaskedVpn entry.vpn (cacheLevel i) := by
  obtain ⟨entry, hit, ppn⟩ := Option.map_eq_some_iff.mp found
  obtain ⟨kept, matched⟩ := (sound i).lookup hit
  simp only [TransEntry.hit, Bool.and_eq_true, beq_iff_eq] at matched
  exact ⟨entry, kept, ppn, matched.1⟩

/-- An answer starts at the root or with the pointer of a good entry. -/
theorem Sound.answer (sound : Sound good t) (vpn : Vpn) (asid : Asid) :
    (t.answer vpn asid).startLevel = maxPageWalkLevel ∨
      ∃ i entry, good i entry ∧
        getMaskedVpn vpn (cacheLevel i) = getMaskedVpn entry.vpn (cacheLevel i) ∧
        (t.answer vpn asid).startLevel = BitVec.ofNat 2 i.val ∧
        (t.answer vpn asid).ppn = entry.ppn := by
  unfold TranslationCache.answer
  split
  next ppn _ found =>
    obtain ⟨entry, kept, rfl, matched⟩ := sound.hits found
    exact .inr ⟨0, entry, kept, matched, rfl, rfl⟩
  next ppn _ found =>
    obtain ⟨entry, kept, rfl, matched⟩ := sound.hits found
    exact .inr ⟨1, entry, kept, matched, rfl, rfl⟩
  next => exact .inl rfl

theorem req_some (fires : t.req vpn asid = some t') :
    t.respQ = none ∧ t' = { t with respQ := some (t.answer vpn asid) } := by
  obtain ⟨idle, rfl⟩ : t.respQ.isNone ∧ _ = t' := by
    simpa only [TranslationCache.req, Option.ite_none_right_eq_some, Option.some_inj] using fires
  exact ⟨Option.isNone_iff_eq_none.mp idle, rfl⟩

theorem Sound.addEntry (sound : Sound good t) {level : PageWalkLevel} {ppn : Ppn}
    {victim : Option (Fin size)}
    (added : ∀ i, cacheLevel i = level → good i ⟨vpn, ppn, asid⟩)
    (fires : t.addEntry vpn level ppn asid victim = some t') :
    Sound good t' ∧ t.respQ = none ∧ t'.respQ = none := by
  obtain ⟨idle, rfl⟩ : t.respQ.isNone ∧ _ = t' := by
    simpa only [TranslationCache.addEntry, Option.ite_none_right_eq_some, Option.some_inj]
      using fires
  rw [Option.isNone_iff_eq_none] at idle
  refine ⟨fun i => ?_, idle, idle⟩
  dsimp only
  split
  next here => exact (sound i).insert (added i here)
  · exact sound i

end Sound

end TranslationCache

end Toooba.Tlb
