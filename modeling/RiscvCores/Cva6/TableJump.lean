import RiscvCores.Cva6.ZcmtDecoder
import RiscvCores.Lib.BitField

/-!
# What a table jump reads and where it goes

`zcmt_decoder` sees neither whether the fetch entry is valid nor a flush, does not look at
the grant and does not stall the fetch queue while it waits for the data.  The cycles in
which none of this matters are `Orderly`; in a run of such cycles each table jump performs
one load of its own entry and is handed on with the data.
-/

set_option autoImplicit false

namespace Cva6.Zcmt

/-- The address of an entry of the jump table. -/
def entryAddress (jvtBase : BitVec 26) (index : BitVec 8) : BitVec 32 :=
  BitVec.ofNat 32 (jvtBase.toNat * 64 + 4 * index.toNat)

/-! ## The history of a run -/

/-- A flush has come since the read that the decoder waits for was requested. -/
def flushedSince (cycles : List (IdRegs × IdIn)) : Bool :=
  cycles.foldl
    (fun flushed now => now.2.flush || flushed && now.1.decoder == .tableJump) false

/-- The read performed in a cycle, with the base it was requested under. -/
def loadsIn (s : IdRegs) (i : IdIn) : List (BitVec 26 × DcacheReq) :=
  if granted s i then [(i.jvtBase, (decoderOut s i).req)] else []

/-- The reads performed since the last entry was taken or flushed. -/
def loads (cvxifEn : Bool) (cycles : List (IdRegs × IdIn)) : List (BitVec 26 × DcacheReq) :=
  cycles.foldl
    (fun xs now =>
      if now.2.flush || fetchEntryReady cvxifEn now.1 now.2 then []
      else xs ++ loadsIn now.1 now.2) []

/-- The loads of the entry at the port up to the end of a cycle. -/
def loadsUpTo (cvxifEn : Bool) (before : List (IdRegs × IdIn)) (s : IdRegs) (i : IdIn) :
    List (BitVec 26 × DcacheReq) :=
  loads cvxifEn before ++ loadsIn s i

/-- What a cycle that follows `before` does for the entry at the port. -/
structure Handed (cvxifEn : Bool) (table : BitVec 32 → BitVec 32)
    (before : List (IdRegs × IdIn)) (s : IdRegs) (i : IdIn) : Prop where
  /-- A table jump leaves with the data of its one load, which returns in that cycle. -/
  jump : i.isZcmt = true → i.flush = false → fetchEntryReady cvxifEn s i = true →
    ∃ base req, loadsUpTo cvxifEn before s i = [(base, req)] ∧
      req.dataWe = false ∧ req.dataSize = 2#2 ∧
      req.address = entryAddress base (tableIndex i.fetchInstr) ∧
      s.pending = [req.address] ∧ i.dataRvalid = true ∧
      (next cvxifEn s i).issueValid = true ∧ (next cvxifEn s i).issue.illegal = false ∧
      (next cvxifEn s i).issue.linkAndTarget =
        some (if tableIndex i.fetchInstr < 32 then 0 else 1, table req.address)
  /-- It is not handed on while it stays in the fetch queue. -/
  held : i.isZcmt = true → takes s i = true → fetchEntryReady cvxifEn s i = false →
    (next cvxifEn s i).issueValid = false
  /-- It leaves when the data of its load return. -/
  leaves : i.isZcmt = true → i.fetchValid = true → i.flush = false → i.dataRvalid = true →
    loadsUpTo cvxifEn before s i ≠ [] → fetchEntryReady cvxifEn s i = true
  /-- No other instruction performs a load. -/
  other : i.isZcmt = false → i.flush = false → fetchEntryReady cvxifEn s i = true →
    loadsUpTo cvxifEn before s i = []

/-- The decoder waits only while its one read is under way. -/
structure Waits (s : IdRegs) : Prop where
  idle : s.decoder = .idle → s.pending = []
  tableJump : s.decoder = .tableJump → ∃ address, s.pending = [address]

/-- A request is for an entry of the fetch queue, is granted at once and has an index the
address is right for.  The data return in the first cycle in which the ID/ISSUE register
is free; and no table jump finds it free while a read from before a flush is under way. -/
structure Orderly (before : List (IdRegs × IdIn)) (s : IdRegs) (i : IdIn) : Prop where
  request : s.decoder = .idle → i.isZcmt = true →
    i.fetchValid = true ∧ i.dataGnt = true ∧ tableIndex i.fetchInstr < 64
  wait : s.decoder = .tableJump → i.isZcmt = true → i.fetchValid = true → i.flush = false →
    free s i = (!flushedSince before && i.dataRvalid)

/-! ## The address -/

@[simp] theorem tableReq_address (address : BitVec 32) : (tableReq address).address = address := by
  apply BitVec.eq_of_toNat_eq
  have split := BitField.toNat_append_add (address.extractLsb' 10 22) (address.extractLsb' 0 10)
  rw [BitVec.extractLsb'_toNat, BitVec.extractLsb'_toNat, Nat.shiftRight_eq_div_pow,
    Nat.shiftRight_eq_div_pow] at split
  have inside := address.isLt
  change (address.extractLsb' 10 22 ++ address.extractLsb' 0 10).toNat = address.toNat
  omega

theorem tableIndex_toNat (instr : BitVec 32) :
    (tableIndex instr).toNat = instr.toNat / 4 % 256 := by
  simp [tableIndex, BitVec.extractLsb'_toNat, Nat.shiftRight_eq_div_pow]

/-- Six of the eight bits of the index reach the address. -/
theorem tableAddress_toNat (jvtBase : BitVec 26) (instr : BitVec 32) :
    (tableAddress jvtBase instr).toNat =
      (jvtBase.toNat * 64 + 4 * ((tableIndex instr).toNat % 64)) % 2 ^ 32 := by
  have base := BitField.toNat_append_add jvtBase 0#6
  have offset : (0#24 ++ instr.extractLsb' 2 6 ++ 0#2).toNat = 4 * (instr.toNat / 4 % 64) := by
    rw [BitField.toNat_append_add, BitField.toNat_append_add, BitVec.extractLsb'_toNat,
      Nat.shiftRight_eq_div_pow]
    simp [Nat.mul_comm]
  rw [tableAddress, BitVec.toNat_add, base, offset, tableIndex_toNat, BitVec.toNat_ofNat]
  omega

/-- The address is the entry's if and only if the index is below 64. -/
theorem tableAddress_eq_iff (jvtBase : BitVec 26) (instr : BitVec 32) :
    tableAddress jvtBase instr = entryAddress jvtBase (tableIndex instr) ↔
      tableIndex instr < 64 := by
  have base := jvtBase.isLt
  have index := (tableIndex instr).isLt
  rw [← BitVec.toNat_inj, tableAddress_toNat, entryAddress, BitVec.toNat_ofNat, BitVec.lt_def]
  change _ ↔ (tableIndex instr).toNat < 64
  omega

/-! ## One cycle -/

section Cycle

variable {cvxifEn : Bool} {s : IdRegs} {i : IdIn}

theorem decoderOut_legal (jump : i.isZcmt = true) : (decoderOut s i).illegal = false := by
  unfold decoderOut zcmtDecoder
  cases s.decoder with
  | idle => simp [decoderIn, jump]
  | tableJump =>
      dsimp only
      split_ifs <;> rfl

theorem driven_of_jump (jump : i.isZcmt = true) :
    driven cvxifEn s i = ((decoderOut s i).instr, false, (decoderOut s i).isCompressed,
      (decoderOut s i).fetchStall) := by
  simp [driven, selected, jump, decoderOut_legal jump]

theorem fetchEntryReady_of_jump (jump : i.isZcmt = true) :
    fetchEntryReady cvxifEn s i = (takes s i && !(decoderOut s i).fetchStall) := by
  rw [fetchEntryReady, stallInstrFetch, driven_of_jump jump]

theorem decodedInstructionValid_of_jump (jump : i.isZcmt = true) :
    decodedInstructionValid cvxifEn s i = !(decoderOut s i).fetchStall := by
  simp [decodedInstructionValid, selected, jump, decoderOut_legal jump]

/-- A table jump at the idle decoder requests its entry and stalls. -/
theorem idle_jump (idle : s.decoder = .idle) (jump : i.isZcmt = true) :
    (decoderOut s i).fetchStall = true ∧
      (decoderOut s i).req = tableReq (tableAddress i.jvtBase i.fetchInstr) ∧
      (zcmtDecoder s.decoder (decoderIn i)).2 = .tableJump := by
  simp [decoderOut, zcmtDecoder, idle, decoderIn, jump]

theorem idle_other (idle : s.decoder = .idle) (other : i.isZcmt = false) :
    loadsIn s i = [] ∧ (zcmtDecoder s.decoder (decoderIn i)).2 = .idle := by
  simp [loadsIn, granted, decoderOut, zcmtDecoder, idle, decoderIn, other, noReq]

theorem zcmtDecoder_tableJump (d : DecoderIn) :
    (zcmtDecoder .tableJump d).1.req = noReq ∧ (zcmtDecoder .tableJump d).1.fetchStall = false ∧
      (zcmtDecoder .tableJump d).2 = if d.dataRvalid then .idle else .tableJump := by
  unfold zcmtDecoder
  dsimp only
  split_ifs <;> exact ⟨rfl, rfl, rfl⟩

/-- The waiting decoder neither requests nor stalls, and returns with the data. -/
theorem tableJump_cycle (waits : s.decoder = .tableJump) :
    loadsIn s i = [] ∧ (decoderOut s i).fetchStall = false ∧
      (zcmtDecoder s.decoder (decoderIn i)).2 = if i.dataRvalid then .idle else .tableJump := by
  obtain ⟨req, stall, state⟩ := zcmtDecoder_tableJump (decoderIn i)
  refine ⟨?_, ?_, ?_⟩
  · simp [loadsIn, granted, decoderOut, waits, req, noReq]
  · rw [decoderOut, waits, stall]
  · rw [waits, state]
    rfl

theorem zcmtDecoder_answered (d : DecoderIn) (answered : d.dataRvalid = true) :
    (zcmtDecoder .tableJump d).1.instr = jalWithLink (if tableIndex d.instr < 32 then 0 else 1) ∧
      (zcmtDecoder .tableJump d).1.jumpAddress = d.dataRdata - d.pc := by
  unfold zcmtDecoder
  simp only [answered, if_true]
  split_ifs <;> exact ⟨rfl, rfl⟩

theorem jalWithLink_fields (link : BitVec 5) :
    (jalWithLink link).extractLsb' 0 7 = opcodeJal ∧
      (jalWithLink link).extractLsb' 7 5 = link := by
  revert link
  decide

/-- The entry made from the data jumps to them. -/
theorem decoded_linkAndTarget (waits : s.decoder = .tableJump) (jump : i.isZcmt = true)
    (answered : i.dataRvalid = true) :
    (decoded cvxifEn s i).linkAndTarget =
      some (if tableIndex i.fetchInstr < 32 then 0 else 1, i.dataRdata) := by
  obtain ⟨instr, offset⟩ := zcmtDecoder_answered (decoderIn i) answered
  have port : (decoderIn i).instr = i.fetchInstr := by simp [decoderIn, jump]
  have target : i.fetchPc + (i.dataRdata - i.fetchPc) = i.dataRdata := by
    rw [BitVec.add_comm, BitVec.sub_add_cancel]
  rw [port] at instr
  unfold decoded
  rw [driven_of_jump jump, decoderOut, waits, instr, offset]
  simp only [Decoded.linkAndTarget, Decoded.jump, jalWithLink_fields, jump, if_true,
    Option.map_some]
  rw [show (decoderIn i).dataRdata - (decoderIn i).pc = i.dataRdata - i.fetchPc from rfl, target]

theorem next_pending (quiet : loadsIn s i = []) :
    (next cvxifEn s i).pending = if i.dataRvalid then s.pending.tail else s.pending := by
  have refused : granted s i = false := by
    by_contra performed
    simp [loadsIn, performed] at quiet
  simp [next, refused]

end Cycle

/-! ## Runs -/

/-- Where the decoder stands after orderly cycles: it rests, it waits for a read whose
jump was flushed, or it waits for the read of the entry still at the port. -/
inductive Phase (cvxifEn : Bool) (cycles : List (IdRegs × IdIn)) (s : IdRegs) : Prop
  | idle (decoder : s.decoder = .idle) (pending : s.pending = [])
      (none : loads cvxifEn cycles = [])
  | abandoned (decoder : s.decoder = .tableJump) (flushed : flushedSince cycles = true)
      (address : BitVec 32) (pending : s.pending = [address]) (none : loads cvxifEn cycles = [])
  | reading (decoder : s.decoder = .tableJump) (unflushed : flushedSince cycles = false)
      (last : IdRegs × IdIn) (latest : last ∈ cycles.getLast?)
      (valid : last.2.fetchValid = true) (jump : last.2.isZcmt = true)
      (kept : fetchEntryReady cvxifEn last.1 last.2 = false) (quiet : last.2.flush = false)
      (small : tableIndex last.2.fetchInstr < 64) (base : BitVec 26)
      (load : loads cvxifEn cycles = [(base, tableReq (tableAddress base last.2.fetchInstr))])
      (pending : s.pending = [tableAddress base last.2.fetchInstr])

section Runs

variable {cvxifEn : Bool} {table : BitVec 32 → BitVec 32} {cycles : List (IdRegs × IdIn)}
  {s : IdRegs} {i : IdIn}

theorem loads_append (now : IdRegs × IdIn) :
    loads cvxifEn (cycles ++ [now]) =
      if now.2.flush || fetchEntryReady cvxifEn now.1 now.2 then []
      else loads cvxifEn cycles ++ loadsIn now.1 now.2 := by
  simp [loads]

theorem flushedSince_append (now : IdRegs × IdIn) :
    flushedSince (cycles ++ [now]) =
      (now.2.flush || flushedSince cycles && now.1.decoder == .tableJump) := by
  simp [flushedSince]

theorem loads_append_of_none (none : loads cvxifEn cycles = []) (quiet : loadsIn s i = []) :
    loads cvxifEn (cycles ++ [(s, i)]) = [] := by
  simp [loads_append, none, quiet]

theorem Phase.waits (phase : Phase cvxifEn cycles s) : Waits s := by
  rcases phase with ⟨decoder, pending, _⟩ | ⟨decoder, _, address, pending, _⟩ |
    ⟨decoder, _, _, _, _, _, _, _, _, _, _, pending⟩
  · exact ⟨fun _ => pending, fun busy => absurd (decoder.symm.trans busy) (by decide)⟩
  · exact ⟨fun idle => absurd (decoder.symm.trans idle) (by decide), fun _ => ⟨_, pending⟩⟩
  · exact ⟨fun idle => absurd (decoder.symm.trans idle) (by decide), fun _ => ⟨_, pending⟩⟩

/-- While its read is under way the table jump stays at the port. -/
theorem same_entry {last : IdRegs × IdIn} (allowed : (machine cvxifEn table).allowed cycles s i)
    (latest : last ∈ cycles.getLast?) (valid : last.2.fetchValid = true)
    (jump : last.2.isZcmt = true) (kept : fetchEntryReady cvxifEn last.1 last.2 = false)
    (quiet : last.2.flush = false) :
    i.fetchValid = true ∧ i.isZcmt = true ∧ i.fetchInstr = last.2.fetchInstr := by
  obtain ⟨stillValid, same, _⟩ := allowed.2.2 last latest valid kept quiet
  refine ⟨stillValid, ?_, same⟩
  rwa [IdIn.isZcmt, same]

theorem takes_iff : takes s i = true ↔ free s i = true ∧ i.fetchValid = true := by
  simp [takes]

/-- A waiting decoder lets the table jump go as soon as the register is free. -/
theorem waiting_ready (decoder : s.decoder = .tableJump) (jump : i.isZcmt = true) :
    fetchEntryReady cvxifEn s i = takes s i := by
  rw [fetchEntryReady_of_jump jump, (tableJump_cycle decoder).2.1]
  simp

theorem Phase.step (phase : Phase cvxifEn cycles s)
    (allowed : (machine cvxifEn table).allowed cycles s i) (orderly : Orderly cycles s i) :
    Phase cvxifEn (cycles ++ [(s, i)]) (next cvxifEn s i) := by
  rcases phase with ⟨decoder, pending, none⟩ | ⟨decoder, flushed, address, pending, none⟩ |
    ⟨decoder, unflushed, last, latest, valid, jump, kept, quiet, small, base, load, pending⟩
  · cases jump : i.isZcmt with
    | false =>
        obtain ⟨quiet, rests⟩ := idle_other decoder jump
        refine .idle rests ?_ (loads_append_of_none none quiet)
        simp [next_pending quiet, pending]
    | true =>
        obtain ⟨valid, gnt, small⟩ := orderly.request decoder jump
        obtain ⟨stall, req, waits⟩ := idle_jump decoder jump
        have kept : fetchEntryReady cvxifEn s i = false := by
          simp [fetchEntryReady_of_jump jump, stall]
        have performed : granted s i = true := by simp [granted, req, tableReq, gnt]
        have asked : (next cvxifEn s i).pending = [tableAddress i.jvtBase i.fetchInstr] := by
          simp [next, performed, req, pending]
        cases flush : i.flush with
        | true =>
            refine .abandoned waits ?_ _ asked ?_
            · simp [flushedSince_append, flush]
            · simp [loads_append, flush]
        | false =>
            refine .reading waits ?_ (s, i) (by simp) valid jump kept flush small i.jvtBase ?_ asked
            · simp [flushedSince_append, flush, decoder]
            · simp [loads_append, flush, kept, none, loadsIn, performed, req]
  · obtain ⟨quiet, _, state⟩ := tableJump_cycle (i := i) decoder
    have rest : (next cvxifEn s i).pending = _ := next_pending quiet
    cases answered : i.dataRvalid with
    | true =>
        refine .idle ?_ ?_ (loads_append_of_none none quiet)
        · simpa [next, answered] using state
        · simp [rest, answered, pending]
    | false =>
        refine .abandoned ?_ ?_ address ?_ (loads_append_of_none none quiet)
        · simpa [next, answered] using state
        · simp [flushedSince_append, flushed, decoder]
        · simp [rest, answered, pending]
  · obtain ⟨stillValid, stillJump, same⟩ := same_entry allowed latest valid jump kept quiet
    obtain ⟨silent, _, state⟩ := tableJump_cycle (i := i) decoder
    have rest : (next cvxifEn s i).pending = _ := next_pending silent
    have ready : fetchEntryReady cvxifEn s i = _ := waiting_ready decoder stillJump
    cases flush : i.flush with
    | true =>
        have none : loads cvxifEn (cycles ++ [(s, i)]) = [] := by simp [loads_append, flush]
        cases answered : i.dataRvalid with
        | true =>
            refine .idle ?_ ?_ none
            · simpa [next, answered] using state
            · simp [rest, answered, pending]
        | false =>
            refine .abandoned ?_ ?_ (tableAddress base last.2.fetchInstr) ?_ none
            · simpa [next, answered] using state
            · simp [flushedSince_append, flush]
            · simp [rest, answered, pending]
    | false =>
        have room := orderly.wait decoder stillJump stillValid flush
        rw [unflushed, Bool.not_false, Bool.true_and] at room
        cases answered : i.dataRvalid with
        | true =>
            have leaves : fetchEntryReady cvxifEn s i = true := by
              rw [ready, takes_iff, room]
              exact ⟨answered, stillValid⟩
            refine .idle ?_ ?_ ?_
            · simpa [next, answered] using state
            · simp [rest, answered, pending]
            · simp [loads_append, leaves]
        | false =>
            have stays : fetchEntryReady cvxifEn s i = false := by
              rw [ready, takes, room, answered, Bool.false_and]
            refine .reading ?_ ?_ (s, i) (by simp) stillValid stillJump stays flush ?_ base ?_ ?_
            · simpa [next, answered] using state
            · simp [flushedSince_append, flush, unflushed]
            · rwa [same]
            · simp [loads_append, flush, stays, load, silent, same]
            · simp [rest, answered, pending, same]

/-- The word of the table that answers the read in front. -/
theorem rdata_of_pending {address : BitVec 32} {more : List (BitVec 32)}
    (allowed : (machine cvxifEn table).allowed cycles s i) (pending : s.pending = address :: more)
    (answered : i.dataRvalid = true) : i.dataRdata = table address := by
  have data := allowed.2.1 answered
  rw [pending] at data
  exact (Option.some.inj data).symm

theorem Phase.handed (phase : Phase cvxifEn cycles s)
    (allowed : (machine cvxifEn table).allowed cycles s i) (orderly : Orderly cycles s i) :
    Handed cvxifEn table cycles s i := by
  have held : s.decoder = .tableJump → i.isZcmt = true → takes s i = true →
      fetchEntryReady cvxifEn s i = false → (next cvxifEn s i).issueValid = false := by
    intro decoder jump takes stays
    rw [waiting_ready decoder jump, takes] at stays
    cases stays
  rcases phase with ⟨decoder, pending, none⟩ | ⟨decoder, flushed, address, pending, none⟩ |
    ⟨decoder, unflushed, last, latest, valid, jump, kept, quiet, small, base, load, pending⟩
  · refine ⟨fun jump _ ready => ?_, fun jump takes _ => ?_, fun _ _ _ answered => ?_,
      fun other _ _ => ?_⟩
    · simp [fetchEntryReady_of_jump jump, idle_jump decoder jump] at ready
    · have stall := (idle_jump decoder jump).1
      simp [next, takes, decodedInstructionValid_of_jump jump, stall]
    · have data := allowed.2.1 answered
      simp [pending] at data
    · simp [loadsUpTo, none, (idle_other decoder other).1]
  · have silent := (tableJump_cycle (i := i) decoder).1
    have nothing : loadsUpTo cvxifEn cycles s i = [] := by simp [loadsUpTo, none, silent]
    refine ⟨fun jump noFlush ready => ?_, held decoder, fun _ _ _ _ some => absurd nothing some,
      fun _ _ _ => nothing⟩
    rw [waiting_ready decoder jump, takes_iff] at ready
    have room := orderly.wait decoder jump ready.2 noFlush
    rw [flushed, ready.1] at room
    cases room
  · obtain ⟨stillValid, stillJump, same⟩ := same_entry allowed latest valid jump kept quiet
    have silent := (tableJump_cycle (i := i) decoder).1
    refine ⟨fun _ noFlush ready => ?_, held decoder, fun _ _ noFlush answered _ => ?_,
      fun other => ?_⟩
    · have room := orderly.wait decoder stillJump stillValid noFlush
      have taken := ready
      rw [waiting_ready decoder stillJump] at taken
      rw [unflushed, (takes_iff.mp taken).1] at room
      have answered : i.dataRvalid = true := room.symm
      have data := rdata_of_pending allowed pending answered
      have entry : (next cvxifEn s i).issue = decoded cvxifEn s i := by simp [next, taken]
      have stall := (tableJump_cycle (i := i) decoder).2.1
      refine ⟨base, tableReq (tableAddress base i.fetchInstr), ?_, rfl, rfl, ?_, ?_, answered,
        ?_, ?_, ?_⟩
      · simp [loadsUpTo, load, silent, same]
      · rw [tableReq_address, tableAddress_eq_iff, same]
        exact small
      · rw [tableReq_address, pending, same]
      · simp [next, noFlush, taken, decodedInstructionValid_of_jump stillJump, stall]
      · rw [entry, decoded, driven_of_jump stillJump]
      · rw [entry, decoded_linkAndTarget decoder stillJump answered, data, tableReq_address, same]
    · have room := orderly.wait decoder stillJump stillValid noFlush
      rw [unflushed, answered] at room
      rw [waiting_ready decoder stillJump, takes_iff]
      exact ⟨room, stillValid⟩
    · rw [stillJump] at other
      cases other

theorem phase_of_run (run : (machine cvxifEn table).Run cycles s)
    (orderly : ∀ before now after, cycles = before ++ now :: after →
      Orderly before now.1 now.2) : Phase cvxifEn cycles s := by
  induction run with
  | reset => exact .idle rfl rfl rfl
  | @cycle cycles s i run allowed ih =>
      have earlier := ih fun before now after split =>
        orderly before now (after ++ [(s, i)]) (by simp [split])
      exact earlier.step allowed (orderly cycles (s, i) [] (by simp))

/-- In a run of orderly cycles the decoder waits for one read at most, and each table jump
leaves with the data of its own one load. -/
theorem table_jumps_served (run : (machine cvxifEn table).Run cycles s)
    (orderly : ∀ before now after, cycles = before ++ now :: after →
      Orderly before now.1 now.2) :
    Waits s ∧ ∀ before now after, cycles = before ++ now :: after →
      Handed cvxifEn table before now.1 now.2 := by
  refine ⟨(phase_of_run run orderly).waits, ?_⟩
  rintro before now after rfl
  obtain ⟨reached, allowed⟩ := run.at_cycle
  have phase := phase_of_run reached fun early here late split =>
    orderly early here (late ++ now :: after) (by simp [split])
  exact phase.handed allowed (orderly before now after rfl)

/-! ## Other cycles -/

/-- After a request that is not granted the decoder waits for ever. -/
theorem hung_of_refused {before during : List (IdRegs × IdIn)} {first : IdRegs × IdIn}
    (run : (machine cvxifEn table).Run (before ++ first :: during) s)
    (idle : first.1.decoder = .idle) (pending : first.1.pending = [])
    (jump : first.2.isZcmt = true) (refused : first.2.dataGnt = false) :
    s.decoder = .tableJump ∧ s.pending = [] := by
  refine run.lasts (fun s => s.decoder = .tableJump ∧ s.pending = []) (fun _ => False) ?_ ?_
    (fun _ _ => not_false)
  · rintro cycles ⟨s, i⟩ _ allowed ⟨waits, none⟩ _
    have silent : i.dataRvalid = false := by
      by_contra answered
      rw [Bool.not_eq_false] at answered
      have data := allowed.2.1 answered
      rw [show s.pending = [] from none] at data
      cases data
    obtain ⟨quiet, _, state⟩ := tableJump_cycle (i := i) waits
    refine ⟨?_, ?_⟩
    · change (zcmtDecoder s.decoder (decoderIn i)).2 = _
      simpa [silent] using state
    · change (next cvxifEn s i).pending = _
      simpa [next_pending quiet, silent] using none
  · obtain ⟨_, _, waits⟩ := idle_jump (s := first.1) idle jump
    refine ⟨waits, ?_⟩
    change (next cvxifEn first.1 first.2).pending = []
    rw [next_pending (by simp [loadsIn, granted, refused]), pending]
    simp

end Runs

/-! ## One jump through entry 0 -/

private def entriesOf (address : BitVec 32) : BitVec 32 := address + 0x1000

private def jumpPort (gnt : Bool) (data : Option (BitVec 32)) : IdIn where
  flush := false
  fetchValid := true
  fetchInstr := 0xa002
  fetchPc := 0x100
  issueAck := false
  jvtBase := 1
  dataGnt := gnt
  dataRvalid := data.isSome
  dataRdata := data.getD 0
  latched := 0
  rvcInstr := 0
  rvcIllegal := false
  rvcIsCompressed := false
  other := { instr := 0, illegal := false, isCompressed := false, stall := false
             compressedReady := false, compressedAccept := false, compressedInstr := 0 }

theorem table_jumps_served_once :
    Waits ((machine false entriesOf).after IdRegs.reset
        [jumpPort true none, jumpPort false (some 0x1040)]) ∧
      ∀ before now after,
        (machine false entriesOf).cyclesOf IdRegs.reset
          [jumpPort true none, jumpPort false (some 0x1040)] = before ++ now :: after →
        Handed false entriesOf before now.1 now.2 := by
  refine table_jumps_served (Clocked.Machine.run_of_accepts _ (by decide)) ?_
  rintro before now after split
  rcases before with _ | ⟨first, _ | ⟨second, rest⟩⟩
  · obtain ⟨rfl, _⟩ := List.cons.inj split
    exact ⟨fun _ _ => by decide, fun waits => absurd waits (by decide)⟩
  · obtain ⟨head, tails⟩ := List.cons.inj split
    rw [← head]
    obtain ⟨rfl, _⟩ := List.cons.inj tails
    exact ⟨fun idle => absurd idle (by decide), fun _ _ _ _ => by decide⟩
  · have lengths := congrArg List.length split
    simp [Clocked.Machine.cyclesOf] at lengths

/-- With one cycle of delay the jump is handed on before the data return. -/
theorem handed_on_without_data :
    (machine false entriesOf).Accepts [] IdRegs.reset [jumpPort true none, jumpPort false none] ∧
      ¬Handed false entriesOf [(IdRegs.reset, jumpPort true none)]
        (next false IdRegs.reset (jumpPort true none)) (jumpPort false none) := by
  refine ⟨by decide, fun handed => ?_⟩
  obtain ⟨_, _, _, _, _, _, _, answered, _⟩ := handed.jump (by decide) rfl (by decide)
  cases answered

end Cva6.Zcmt
