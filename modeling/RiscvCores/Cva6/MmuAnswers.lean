import RiscvCores.Cva6.MmuPermissions

/-!
# Answers to data requests

`data_interface` registers a request with its look-up and answers it in the next
cycle.  An answer belongs to the request when it is a function of the request, of
its translation and of the mode of the hart.
-/

set_option autoImplicit false

namespace Cva6.Mmu

open BitField Pmp

variable {m : MmuCfg}

/-! ## The answer of a request -/

/-- A request of the load/store unit. -/
structure LsuRequest (m : MmuCfg) where
  lsuVaddr : VAddr m.scheme
  lsuIsStore : Bool
  misalignedEx : MmuException m

/-- What the buffer and the walker found. -/
structure Translation (m : MmuCfg) where
  hit : Bool
  pte : Pte m.scheme
  isPage : BitVec (m.tlb.ptLevels - 1)
  walked : Option (VAddr m.scheme)
  ptwError : Bool
  ptwAccessException : Bool

/-- The mode in which loads and stores are made. -/
structure LsuMode where
  enLdStTranslation : Bool
  ldStPrivLvl : PrivLvl
  sum : Bool

/-- What the load/store unit sees of an exception. -/
def MmuException.seen (e : MmuException m) : Option (Nat × VAddr m.scheme) :=
  if e.valid then some (e.cause, e.tval) else none

/-- What the load/store unit sees of an answer. -/
def LsuAnswer.seen (a : LsuAnswer m) : Option (PAddr m.scheme × Option (Nat × VAddr m.scheme)) :=
  if a.lsuValid then some (a.lsuPaddr, a.lsuException.seen) else none

/-- The user flag forbids the access. -/
def LsuMode.refuses (mode : LsuMode) (pte : Pte m.scheme) : Bool :=
  mode.ldStPrivLvl == .s && !mode.sum && pte.u || mode.ldStPrivLvl == .u && !pte.u

/-- The entry or the address forbids the access. -/
def forbidden (mode : LsuMode) (r : LsuRequest m) (pte : Pte m.scheme) : Bool :=
  mode.refuses pte || (r.lsuIsStore && (!pte.w || !pte.d))

/-- The answer to a request: a fault of its own look-up or of its own walk, with
the cause of its own kind. -/
def ownAnswer (mode : LsuMode) (r : LsuRequest m) (x : Translation m) : LsuAnswer m :=
  if mode.enLdStTranslation && !r.misalignedEx.valid then
    let lsuPaddr := translated x.pte r.lsuVaddr x.isPage
    if x.hit then
      { lsuValid := true
        lsuPaddr
        lsuException :=
          if forbidden mode r x.pte || !canonical r.lsuVaddr then
            raise (if r.lsuIsStore then storePageFault else loadPageFault) r.lsuVaddr
          else noException }
    else
      { lsuValid := x.walked == some r.lsuVaddr && (x.ptwError || x.ptwAccessException)
        lsuPaddr
        lsuException :=
          if x.ptwAccessException then
            raise (if r.lsuIsStore then stAccessFault else ldAccessFault) r.lsuVaddr
          else raise (if r.lsuIsStore then storePageFault else loadPageFault) r.lsuVaddr }
  else
    { lsuValid := true
      lsuPaddr := r.lsuVaddr.setWidth _
      lsuException := r.misalignedEx }

/-- The page number of a physical address. -/
def pageNumber (paddr : PAddr m.scheme) : Ppn m.scheme := field paddr 12 _

section Cycle

variable (memory : PAddr m.scheme → Pte m.scheme) (s : State m) (r i : Input m)

def requestOf : LsuRequest m := ⟨r.lsuVaddr, r.lsuIsStore, r.misalignedEx⟩

def lsuModeOf : LsuMode := ⟨i.enLdStTranslation, i.ldStPrivLvl, i.sum⟩

/-- The look-up of the request `r` in `s`, and the walker one cycle later. -/
def translationOf : Translation m :=
  let t := next memory s r
  let d := walkerDrive memory t i
  { hit := dtlbLuHit s r
    pte := dtlbContent s r
    isPage := dtlbIsPage s r
    walked :=
      if Ptw.ptwActive t.walker.ptw && !Ptw.walkingInstr t.walker.ptw then
        some t.walker.ptw.vaddr
      else none
    ptwError := d.ptwError
    ptwAccessException := d.ptwAccessException }

/-- The request `r` is answered as if `i` presented no other one. -/
def AnsweredAsOwn : Prop :=
  r.lsuReq = true →
    (dataInterface memory (next memory s r) i).seen =
        (ownAnswer (lsuModeOf i) (requestOf r) (translationOf memory s r i)).seen ∧
      ((dataInterface memory (next memory s r) i).lsuValid = true →
        lsuDtlbPpn s r = pageNumber (dataInterface memory (next memory s r) i).lsuPaddr)

/-- A translated request is answered: its look-up hits, or a walk for data reports. -/
def found : Bool :=
  let x := translationOf memory s r i
  x.hit || (x.walked.isSome && (x.ptwError || x.ptwAccessException))

/-- The request is translated. -/
def translates : Bool := i.enLdStTranslation && !r.misalignedEx.valid

/-- What has to hold of two consecutive cycles for that. -/
structure Undisturbed : Prop where
  -- the misaligned exception is not registered
  misaligned : i.misalignedEx.seen = r.misalignedEx.seen
  -- neither is the check of the address
  address : translates r i = true → dtlbLuHit s r = true →
    forbidden (lsuModeOf i) (requestOf r) (dtlbContent s r) = true ∨
      canonicalAddrCheck i = !canonical r.lsuVaddr
  -- a walk is answered to whoever asks
  walk : translates r i = true → dtlbLuHit s r = false → found memory s r i = true →
    (translationOf memory s r i).walked = some r.lsuVaddr
  -- with two levels a store gets the cause of a load
  storeFault : translates r i = true → dtlbLuHit s r = false → found memory s r i = true →
    r.lsuIsStore = true → (translationOf memory s r i).ptwAccessException = true →
    m.scheme.ptLevels = 3
  mode : i.enLdStTranslation = r.enLdStTranslation
  -- the page number takes the flags of the cycle before, at other bits
  pages : translates r i = true → found memory s r i = true →
    splice (dtlbContent s r).ppn r.lsuVaddr s.dtlbIsPageQ = (dtlbContent s r).ppn ∧
      translated (dtlbContent s r) r.lsuVaddr (dtlbIsPage s r) =
        translated (dtlbContent s r) r.lsuVaddr 0

end Cycle

/-! ## Two consecutive cycles -/

theorem valid_of_seen {e e' : MmuException m} (same : e.seen = e'.seen) : e.valid = e'.valid := by
  unfold MmuException.seen at same
  cases one : e.valid <;> cases other : e'.valid <;> simp_all

@[simp]
theorem noException_seen : (noException : MmuException m).seen = none := rfl

theorem seen_of_invalid {e : MmuException m} (invalid : e.valid = false) : e.seen = none := by
  rw [MmuException.seen, invalid, if_neg Bool.false_ne_true]

/-- Without a superpage the page number is that of the entry. -/
theorem pageNumber_translated (pte : Pte m.scheme) (vaddr : VAddr m.scheme) :
    pageNumber (translated pte vaddr 0) = pte.ppn := by
  have plain : translated pte vaddr (0 : BitVec (m.tlb.ptLevels - 1)) =
      (pte.ppn ++ field vaddr 0 12).setWidth (m.scheme.pmpWidth + 2) := by
    unfold translated splice
    simp
  rw [plain, pageNumber]
  apply BitVec.eq_of_getLsbD_eq
  intro k bound
  have inside : 12 + k < m.scheme.pmpWidth + 2 := by
    cases scheme : m.scheme <;> rw [scheme] at bound <;> simp only [Scheme.ppnw] at bound <;>
      simp only [Scheme.pmpWidth] <;> omega
  rw [getLsbD_field, BitVec.getLsbD_setWidth, BitVec.getLsbD_append]
  have above : ¬ 12 + k < 12 := by omega
  simp [bound, inside, above]

theorem pageNumber_untranslated (vaddr : VAddr m.scheme) :
    pageNumber (vaddr.setWidth (m.scheme.pmpWidth + 2) : PAddr m.scheme) =
      (vaddr >>> 12).setWidth m.scheme.ppnw := by
  rw [pageNumber]
  apply BitVec.eq_of_getLsbD_eq
  intro k bound
  have inside : 12 + k < m.scheme.pmpWidth + 2 := by
    cases scheme : m.scheme <;> rw [scheme] at bound <;> simp only [Scheme.ppnw] at bound <;>
      simp only [Scheme.pmpWidth] <;> omega
  rw [getLsbD_field, BitVec.getLsbD_setWidth, BitVec.getLsbD_setWidth, BitVec.getLsbD_ushiftRight]
  simp [bound, inside]

section Cycle

variable {memory : PAddr m.scheme → Pte m.scheme} {s : State m} {r i : Input m}

/-- The code's answer to a hit. -/
theorem data_hit (request : r.lsuReq = true) (on : i.enLdStTranslation = true)
    (aligned : i.misalignedEx.valid = false) (hit : dtlbLuHit s r = true) :
    dataInterface memory (next memory s r) i =
      { lsuValid := true
        lsuPaddr := translated (dtlbContent s r) r.lsuVaddr (dtlbIsPage s r)
        lsuException :=
          if forbidden (lsuModeOf i) (requestOf r) (dtlbContent s r) || canonicalAddrCheck i then
            raise (if r.lsuIsStore then storePageFault else loadPageFault) r.lsuVaddr
          else i.misalignedEx } := by
  have found : ((next memory s r).dtlbHitQ && (next memory s r).lsuReqQ) = true := by
    rw [show (next memory s r).dtlbHitQ = true from hit,
      show (next memory s r).lsuReqQ = true from request]
    rfl
  have refuses : daccessErr (next memory s r) i = (lsuModeOf i).refuses (dtlbContent s r) := by
    rw [daccessErr, on, Bool.true_and]
    rfl
  have kind : (next memory s r).lsuIsStoreQ = r.lsuIsStore := rfl
  have asked : (requestOf r).lsuIsStore = r.lsuIsStore := rfl
  have entry : (next memory s r).dtlbPteQ = dtlbContent s r := rfl
  have address : (next memory s r).lsuVaddrQ = r.lsuVaddr := rfl
  have pages : (next memory s r).dtlbIsPageQ = dtlbIsPage s r := rfl
  unfold dataInterface forbidden
  rw [on, aligned, found, refuses, kind, entry, address, pages, asked]
  cases r.lsuIsStore with
  | false => simp
  | true =>
      cases (dtlbContent s r).w <;> cases (dtlbContent s r).d <;>
        cases (lsuModeOf i).refuses (dtlbContent s r) <;> cases canonicalAddrCheck i <;> simp

/-- The code's answer to a miss. -/
theorem data_miss (on : i.enLdStTranslation = true)
    (aligned : i.misalignedEx.valid = false) (miss : dtlbLuHit s r = false) :
    (dataInterface memory (next memory s r) i).seen =
      if (translationOf memory s r i).walked.isSome &&
          ((translationOf memory s r i).ptwError ||
            (translationOf memory s r i).ptwAccessException) then
        some (translated (dtlbContent s r) r.lsuVaddr (dtlbIsPage s r),
          (raise (if (translationOf memory s r i).ptwAccessException then
              if r.lsuIsStore && m.scheme.ptLevels == 3 then stAccessFault else ldAccessFault
            else if r.lsuIsStore then storePageFault else loadPageFault)
            (next memory s r).walker.ptw.vaddr : MmuException m).seen)
      else none := by
  have absent : ((next memory s r).dtlbHitQ && (next memory s r).lsuReqQ) = false := by
    rw [show (next memory s r).dtlbHitQ = false from miss]
    rfl
  have kind : (next memory s r).lsuIsStoreQ = r.lsuIsStore := rfl
  have entry : (next memory s r).dtlbPteQ = dtlbContent s r := rfl
  have address : (next memory s r).lsuVaddrQ = r.lsuVaddr := rfl
  have pages : (next memory s r).dtlbIsPageQ = dtlbIsPage s r := rfl
  have error : (translationOf memory s r i).ptwError =
    (walkerDrive memory (next memory s r) i).ptwError := rfl
  have access : (translationOf memory s r i).ptwAccessException =
    (walkerDrive memory (next memory s r) i).ptwAccessException := rfl
  have walked : (translationOf memory s r i).walked =
    if Ptw.ptwActive (next memory s r).walker.ptw && !Ptw.walkingInstr (next memory s r).walker.ptw
    then some (next memory s r).walker.ptw.vaddr else none := rfl
  unfold dataInterface
  rw [on, aligned, absent, kind, entry, address, pages, error, access, walked]
  cases Ptw.ptwActive (next memory s r).walker.ptw &&
      !Ptw.walkingInstr (next memory s r).walker.ptw with
  | false => simp [LsuAnswer.seen]
  | true =>
      generalize walkerDrive memory (next memory s r) i = d
      cases error : d.ptwError <;> cases access : d.ptwAccessException <;>
        simp [LsuAnswer.seen, error, access]

theorem Undisturbed.answer (apart : Undisturbed memory s r i) (request : r.lsuReq = true) :
    (dataInterface memory (next memory s r) i).seen =
      (ownAnswer (lsuModeOf i) (requestOf r) (translationOf memory s r i)).seen := by
  have valid := valid_of_seen apart.misaligned
  by_cases translated' : i.enLdStTranslation = true ∧ r.misalignedEx.valid = false
  · obtain ⟨on, aligned⟩ := translated'
    have silent := seen_of_invalid (valid.trans aligned)
    have translating : ((lsuModeOf i).enLdStTranslation && !(requestOf r).misalignedEx.valid) =
        true := by
      rw [show (lsuModeOf i).enLdStTranslation = true from on,
        show (requestOf r).misalignedEx.valid = false from aligned]
      rfl
    have isOn : translates r i = true := by rw [translates, on, aligned]; rfl
    unfold ownAnswer
    rw [if_pos translating]
    cases hit : dtlbLuHit s r with
    | true =>
        have found : (translationOf memory s r i).hit = true := hit
        rw [data_hit request on (valid.trans aligned) hit, if_pos found]
        have same : (forbidden (lsuModeOf i) (requestOf r) (dtlbContent s r) ||
            canonicalAddrCheck i) =
            (forbidden (lsuModeOf i) (requestOf r) (dtlbContent s r) || !canonical r.lsuVaddr) := by
          rcases apart.address isOn hit with refused | agree
          · rw [refused, Bool.true_or, Bool.true_or]
          · rw [agree]
        rw [same]
        have address : (requestOf r).lsuVaddr = r.lsuVaddr := rfl
        have kind : (requestOf r).lsuIsStore = r.lsuIsStore := rfl
        have entry : (translationOf memory s r i).pte = dtlbContent s r := rfl
        have pages : (translationOf memory s r i).isPage = dtlbIsPage s r := rfl
        rw [address, kind, entry, pages]
        cases forbidden (lsuModeOf i) (requestOf r) (dtlbContent s r) || !canonical r.lsuVaddr with
        | true => rfl
        | false => simp [LsuAnswer.seen, silent]
    | false =>
        have absent : (translationOf memory s r i).hit = false := hit
        rw [data_miss on (valid.trans aligned) hit, absent, if_neg Bool.false_ne_true]
        have address : (requestOf r).lsuVaddr = r.lsuVaddr := rfl
        have kind : (requestOf r).lsuIsStore = r.lsuIsStore := rfl
        have entry : (translationOf memory s r i).pte = dtlbContent s r := rfl
        have pages : (translationOf memory s r i).isPage = dtlbIsPage s r := rfl
        rw [address, kind, entry, pages]
        have walk := apart.walk isOn hit
        have storeFault := apart.storeFault isOn hit
        have walker : (translationOf memory s r i).walked = none ∨
            (translationOf memory s r i).walked =
              some (next memory s r).walker.ptw.vaddr := by
          unfold translationOf
          simp only []
          split
          · exact .inr rfl
          · exact .inl rfl
        rcases walker with idle | walks
        · rw [idle]
          simp [LsuAnswer.seen]
        · have isFound : found memory s r i = ((translationOf memory s r i).ptwError ||
              (translationOf memory s r i).ptwAccessException) := by
            rw [found, absent, walks]
            rfl
          rw [isFound, walks] at walk
          rw [isFound] at storeFault
          rw [walks]
          cases reports : ((translationOf memory s r i).ptwError ||
              (translationOf memory s r i).ptwAccessException) with
          | false => simp [LsuAnswer.seen]
          | true =>
              have own := Option.some.inj (walk reports)
              rw [own]
              cases access : (translationOf memory s r i).ptwAccessException with
              | false => simp [LsuAnswer.seen]
              | true =>
                  cases store : r.lsuIsStore with
                  | false => simp [LsuAnswer.seen]
                  | true =>
                      have levels := storeFault reports store access
                      simp [LsuAnswer.seen, levels]
  · have off : (i.enLdStTranslation && !r.misalignedEx.valid) = false := by
      cases on : i.enLdStTranslation with
      | false => rfl
      | true =>
          cases aligned : r.misalignedEx.valid with
          | true => rfl
          | false => exact absurd ⟨on, aligned⟩ translated'
    have own : ((lsuModeOf i).enLdStTranslation && !(requestOf r).misalignedEx.valid) = false := off
    have requested : (next memory s r).lsuReqQ = true := request
    unfold dataInterface ownAnswer
    rw [own, valid, off, requested]
    change some (_, i.misalignedEx.seen) = some (_, r.misalignedEx.seen)
    rw [apart.misaligned]
    rfl

/-- The page number of the request cycle is the one of the answer. -/
theorem Undisturbed.page (apart : Undisturbed memory s r i)
    (answered : (dataInterface memory (next memory s r) i).lsuValid = true) :
    lsuDtlbPpn s r = pageNumber (dataInterface memory (next memory s r) i).lsuPaddr := by
  have valid := valid_of_seen apart.misaligned
  unfold lsuDtlbPpn
  cases isOn : r.enLdStTranslation && !r.misalignedEx.valid with
  | true =>
      have translating : translates r i = true := by rw [translates, apart.mode, isOn]
      obtain ⟨on, aligned⟩ := (Bool.and_eq_true _ _).mp isOn
      have isFound : found memory s r i = true := by
        cases hit : dtlbLuHit s r with
        | true =>
            have isHit : (translationOf memory s r i).hit = true := hit
            rw [found, isHit, Bool.true_or]
        | false =>
            have absent : (translationOf memory s r i).hit = false := hit
            have off : i.misalignedEx.valid = false := valid.trans (by simpa using aligned)
            rw [found, absent, Bool.false_or]
            by_contra unanswered
            have silent : (dataInterface memory (next memory s r) i).seen = none := by
              rw [data_miss (apart.mode.trans on) off hit, if_neg unanswered]
            rw [LsuAnswer.seen, if_pos answered] at silent
            exact absurd silent (Option.some_ne_none _)
      obtain ⟨early, late⟩ := apart.pages translating isFound
      have paddr : (dataInterface memory (next memory s r) i).lsuPaddr =
          translated (dtlbContent s r) r.lsuVaddr (dtlbIsPage s r) := by
        unfold dataInterface
        rw [apart.mode, valid, isOn, if_pos rfl]
        simp only []
        split
        · rfl
        · split <;> rfl
      rw [if_pos rfl, paddr, early, late, pageNumber_translated]
  | false =>
      have paddr : (dataInterface memory (next memory s r) i).lsuPaddr =
          r.lsuVaddr.setWidth (m.scheme.pmpWidth + 2) := by
        unfold dataInterface
        rw [apart.mode, valid, isOn]
        rfl
      rw [if_neg Bool.false_ne_true, paddr, pageNumber_untranslated]

end Cycle

/-- In every run a request that the next cycle does not disturb is answered as its own. -/
theorem answers_own_of_run {memories : SharedTlb.PowerOn m.tlb}
    {memory : PAddr m.scheme → Pte m.scheme} {satpPpn : Ppn m.scheme} {before after : History m}
    {s t last : State m} {r i : Input m}
    (run : (machine memories memory satpPpn).Run (before ++ (s, r) :: (t, i) :: after) last)
    (apart : Undisturbed memory s r i) :
    t = next memory s r ∧ AnsweredAsOwn memory s r i :=
  ⟨run.adjacent, fun request => ⟨apart.answer request, apart.page⟩⟩

/-! ## A superpage -/

/-- The superpage is in the buffer. -/
def resident : State small := afterInputs (walked ++ [loads, loads])

theorem resident_run : ∃ cycles : History small,
    (machine zeros readOnly 1).Run cycles resident :=
  ⟨_, Clocked.Machine.run_of_accepts (m := machine zeros readOnly 1) (walked ++ [loads, loads])
    (by repeat' constructor)⟩

/-- A load of the second page of the superpage. -/
def secondPage : Input small := { loads with lsuVaddr := 0x401000#32 }

theorem resident_facts :
    dtlbLuHit resident loads = true ∧
      (splice (dtlbContent resident loads).ppn loads.lsuVaddr resident.dtlbIsPageQ =
          (dtlbContent resident loads).ppn ∧
        translated (dtlbContent resident loads) loads.lsuVaddr (dtlbIsPage resident loads) =
          translated (dtlbContent resident loads) loads.lsuVaddr 0) ∧
      (dataInterface readOnly (next readOnly resident secondPage) quiet).lsuValid = true ∧
      (lsuDtlbPpn resident secondPage).toNat = 0x400 ∧
      (pageNumber (dataInterface readOnly (next readOnly resident secondPage) quiet).lsuPaddr).toNat
        = 0x401 := by
  decide +kernel

/-- A load of the first page of the superpage is answered as its own. -/
theorem answers_own_of_loads :
    dtlbLuHit resident loads = true ∧ AnsweredAsOwn readOnly resident loads quiet := by
  obtain ⟨hit, pages, -⟩ := resident_facts
  obtain ⟨cycles, run⟩ := resident_run
  have two := (run.cycle (i := loads) rfl).cycle (i := quiet) rfl
  rw [List.append_assoc] at two
  have apart : Undisturbed readOnly resident loads quiet := by
    refine ⟨rfl, fun _ _ => .inr (by decide), fun _ miss => ?_, fun _ _ _ store => ?_, rfl,
      fun _ _ => pages⟩
    · exact Bool.noConfusion (hit.symm.trans miss)
    · exact Bool.noConfusion store
  exact ⟨hit, (answers_own_of_run two apart).2⟩

/-- The page number leaves out the second page, the answer does not. -/
theorem ppn_of_secondPage :
    (∃ cycles : History small, (machine zeros readOnly 1).Run cycles resident) ∧
      (dataInterface readOnly (next readOnly resident secondPage) quiet).lsuValid = true ∧
      (lsuDtlbPpn resident secondPage).toNat = 0x400 ∧
      (pageNumber (dataInterface readOnly (next readOnly resident secondPage) quiet).lsuPaddr).toNat
        = 0x401 ∧
      ¬ AnsweredAsOwn readOnly resident secondPage quiet := by
  obtain ⟨-, -, valid, early, late⟩ := resident_facts
  refine ⟨resident_run, valid, early, late, fun own => ?_⟩
  have same := congrArg BitVec.toNat ((own rfl).2 valid)
  rw [early, late] at same
  exact absurd same (by decide)

end Cva6.Mmu
