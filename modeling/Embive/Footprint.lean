import Embive.Handler
import Embive.Reservation
import Embive.SliceAccess

/-! # The footprint of a successful step

Every instruction names the register it may write and the range of RAM it may store to;
a step that succeeds changes nothing beyond these, but for the control and status
instructions, the reserving ones and the return from a trap.
-/

namespace Embive

open EStateM Interpreter

section Named

/-- The number of bytes a store function stores. -/
def LoadStore.storeWidth (func : U8) : Option ℕ :=
  if func = sbFunc then some 1
  else if func = shFunc then some 2
  else if func = swFunc then some 4
  else none

/-- The atomic functions that store a word. -/
def OpAmo.storeFuncs : List U16 :=
  [scFunc, amoswapFunc, amoaddFunc, amoxorFunc, amoandFunc, amoorFunc, amominFunc, amomaxFunc,
    amominuFunc, amomaxuFunc]

/-- The destination of an instruction. -/
def Decoded.destination : Decoded → Option U8
  | .cAddi4spn data => some data.rd
  | .cLw data => some data.rdRs2
  | .cSw _ => none
  | .cAddi data | .cLi data => some data.rdRs1
  | .cJal _ => some CPURegister.ra
  | .cAddi16sp _ => some CPURegister.sp
  | .cLui data => some data.rdRs1
  | .cSrli data | .cSrai data => some data.rdRs1
  | .cAndi data => some data.rdRs1
  | .cSub data | .cXor data | .cOr data | .cAnd data => some data.rdRs1
  | .cJ _ => none
  | .cBeqz _ | .cBnez _ => none
  | .cSlli data => some data.rdRs1
  | .cLwsp data => some data.rdRs1
  | .cJrMv data => if data.rs2 = 0 then none else some data.rdRs1
  | .cEbreakJalrAdd data =>
    if data.rs2 = 0 then if data.rdRs1 = 0 then none else some CPURegister.ra
    else some data.rdRs1
  | .cSwsp _ => none
  | .auipc data | .lui data => some data.rd
  | .branch _ => none
  | .jal data => some data.rd
  | .jalr data | .opImm data => some data.rdRs2
  | .loadStore data => if (LoadStore.storeWidth data.func).isSome then none else some data.rdRs2
  | .opAmo data => some data.rd
  | .systemMiscMem data => if data.func = SystemMiscMem.miscFunc then none else some data.rdRs2

/-- The address and the number of bytes of the range an instruction stores to. -/
def Decoded.storeRange (regs : Registers) : Decoded → Option (U32 × ℕ)
  | .cSw data => some (regs.value data.rs1 + data.imm, 4)
  | .cSwsp data => some (regs.value CPURegister.sp + data.imm, 4)
  | .loadStore data =>
    (LoadStore.storeWidth data.func).map (fun n => (regs.value data.rs1 + data.imm, n))
  | .opAmo data => if data.func ∈ OpAmo.storeFuncs then some (regs.value data.rs1, 4) else none
  | _ => none

/-- The instruction calls the host. -/
def Decoded.IsEcall (inst : Decoded) : Prop := inst.IsSystem SystemMiscMem.ecallImm

/-- The instruction waits for an interrupt. -/
def Decoded.IsWfi (inst : Decoded) : Prop := inst.IsSystem SystemMiscMem.wfiImm

/-- The instruction halts, in its full-size or its compressed form. -/
def Decoded.IsEbreak : Decoded → Prop
  | .cEbreakJalrAdd data => data.rs2 = 0 ∧ data.rdRs1 = 0
  | inst => inst.IsSystem SystemMiscMem.ebreakImm

/-- The instruction operates on the control and status register at the address. -/
def Decoded.OperatesOn (addr : U16) : Decoded → Prop
  | .systemMiscMem data => data.func ≠ SystemMiscMem.miscFunc ∧
      (data.imm &&& 0b1111_1111_1111).setWidth 16 = addr
  | _ => False

/-- The instruction reserves a word or consumes a reservation. -/
def Decoded.Reserves : Decoded → Prop
  | .opAmo data => data.func = OpAmo.lrFunc ∨ data.func = OpAmo.scFunc
  | _ => False

end Named

/-- The registers differ in the interrupt enable bit of `mstatus` at most. -/
structure CSRegisters.SameExceptMie (cs cs' : CSRegisters) : Prop where
  others : cs' = { cs with mstatus := cs'.mstatus }
  mstatus : cs'.mstatus &&& ~~~mstatusMie = cs.mstatus &&& ~~~mstatusMie

/-- What a successful step of the instruction from `s` to `t` may change, and what it
reports. -/
structure Footprint [Target] (inst : Decoded) (s t : Interpreter SliceMemory) (state : State) :
    Prop where
  registers : ∀ i : Fin 32, (∀ rd, inst.destination = some rd → i ≠ cellOf rd) →
    t.registers.cpu.read i = s.registers.cpu.read i
  memory : t.memory = s.memory ∨ ∃ address n data,
    inst.storeRange s.registers = some (address, n) ∧ s.memory.Writable address n ∧
      data.length = n ∧ t.memory = s.memory.write address data
  controlStatus : t.registers.controlStatus = s.registers.controlStatus ∨
    (∃ addr, inst.OperatesOn addr ∧
      s.registers.controlStatus.SameExcept addr t.registers.controlStatus) ∨
    inst.IsMret ∧ s.registers.controlStatus.SameExceptMie t.registers.controlStatus
  reservation : t.memoryReservation = s.memoryReservation ∨ inst.Reserves
  instructionLimit : t.instructionLimit = s.instructionLimit
  called : state = .called ↔ inst.IsEcall
  halted : state = .halted ↔ inst.IsEbreak
  waiting : state = .waiting ↔ inst.IsWfi
  resumes : state ≠ .running → t.programCounter = s.programCounter + inst.size.toU32

section Actions

/-- The range that an effect stores to. -/
def Effect.range : Effect → Option (U32 × ℕ)
  | @Effect.store w _ address => some (address, w / 8)
  | .readModifyWrite _ address | .storeConditional _ address => some (address, 4)
  | _ => none

/-- The instruction names what its action writes, stores to and reports. -/
structure Decoded.Names (inst : Decoded) (regs : Registers) (next : U32) (action : Action) :
    Prop where
  rd : ∀ cell, action.rd = some cell → ∃ rd, inst.destination = some rd ∧ cell = cellOf rd
  range : ∀ r, action.effect.range = some r → inst.storeRange regs = some r
  called : action.state = .called ↔ inst.IsEcall
  halted : action.state = .halted ↔ inst.IsEbreak
  waiting : action.state = .waiting ↔ inst.IsWfi
  resumes : action.state ≠ .running → action.pc = next

variable {inst : Decoded} {regs : Registers} {next : U32} {action : Action}

/-- The instruction lets the code run on. -/
structure Decoded.RunsOn (inst : Decoded) : Prop where
  notEcall : ¬inst.IsEcall
  notEbreak : ¬inst.IsEbreak
  notWfi : ¬inst.IsWfi

theorem Decoded.names_running (hruns : inst.RunsOn) (hstate : action.state = .running)
    (hrd : ∀ cell, action.rd = some cell → ∃ rd, inst.destination = some rd ∧ cell = cellOf rd)
    (hrange : ∀ r, action.effect.range = some r → inst.storeRange regs = some r) :
    inst.Names regs next action := by
  refine ⟨hrd, hrange, ?_, ?_, ?_, ?_⟩
  · rw [hstate]
    exact iff_of_false (by decide) hruns.notEcall
  · rw [hstate]
    exact iff_of_false (by decide) hruns.notEbreak
  · rw [hstate]
    exact iff_of_false (by decide) hruns.notWfi
  · intro hne
    exact absurd hstate hne

theorem unlessZero_eq_some {index : U8} {cell : Fin 32} (h : unlessZero index = some cell) :
    cell = cellOf index := by
  rw [unlessZero] at h
  split_ifs at h
  cases h
  rfl

theorem Decoded.names_write {rd : U8} {cell : Option (Fin 32)} {effect : Effect}
    (hruns : inst.RunsOn) (hdestination : inst.destination = some rd)
    (hcell : cell = some (cellOf rd) ∨ cell = unlessZero rd) (heffect : effect.range = none)
    (pc : U32) : inst.Names regs next ⟨effect, cell, pc, .running⟩ := by
  apply names_running hruns rfl
  · intro c hc
    refine ⟨rd, hdestination, ?_⟩
    rcases hcell with rfl | rfl
    · cases hc
      rfl
    · exact unlessZero_eq_some hc
  · intro r hr
    rw [heffect] at hr
    cases hr

theorem Decoded.names_refuse (hruns : inst.RunsOn) (error : Error) :
    inst.Names regs next (.refuse error) := by
  apply names_running hruns rfl
  · intro cell hcell
    cases hcell
  · intro r hr
    cases hr

theorem Decoded.names_goto (hruns : inst.RunsOn) (pc : U32) :
    inst.Names regs next (.goto pc .running) := by
  apply names_running hruns rfl
  · intro cell hcell
    cases hcell
  · intro r hr
    cases hr

theorem Decoded.names_stop {state : State} (hcalled : state = .called ↔ inst.IsEcall)
    (hhalted : state = .halted ↔ inst.IsEbreak) (hwaiting : state = .waiting ↔ inst.IsWfi) :
    inst.Names regs next (.goto next state) := by
  refine ⟨?_, ?_, hcalled, hhalted, hwaiting, ?_⟩
  · intro cell hcell
    cases hcell
  · intro r hr
    cases hr
  · intro hstate
    rfl

theorem Decoded.names_store {w : ℕ} (stored : BitVec w) {address : U32} (hruns : inst.RunsOn)
    (hrange : inst.storeRange regs = some (address, w / 8)) (pc : U32) :
    inst.Names regs next ⟨.store stored address, none, pc, .running⟩ := by
  apply names_running hruns rfl
  · intro cell hcell
    cases hcell
  · intro r hr
    cases hr
    exact hrange

theorem Decoded.runsOn_system {data : TypeI} (h : data.func = SystemMiscMem.miscFunc →
    data.imm ≠ SystemMiscMem.ecallImm ∧ data.imm ≠ SystemMiscMem.ebreakImm ∧
      data.imm ≠ SystemMiscMem.wfiImm) : (Decoded.systemMiscMem data).RunsOn := by
  constructor
  · rintro ⟨hmisc, himm⟩
    exact (h hmisc).1 himm
  · rintro ⟨hmisc, himm⟩
    exact (h hmisc).2.1 himm
  · rintro ⟨hmisc, himm⟩
    exact (h hmisc).2.2 himm

theorem LoadStore.action_names (size pc : U32) (data : TypeI) :
    (Decoded.loadStore data).Names regs next (LoadStore.action size regs pc data) := by
  have hruns : (Decoded.loadStore data).RunsOn := ⟨id, id, id⟩
  rcases LoadStore.action_cases size regs pc data with
      ⟨hload, w, extend, -, h⟩ | ⟨w, hstore, h⟩ | h <;> rw [h]
  · have hwidth : (LoadStore.storeWidth data.func).isSome = false := by
      revert hload
      generalize data.func = func
      revert func
      decide
    have hdestination : (Decoded.loadStore data).destination = some data.rdRs2 := by
      rw [Decoded.destination, if_neg (by rw [hwidth]; decide)]
    exact Decoded.names_write hruns hdestination (.inl rfl) rfl _
  · have hwidth : LoadStore.storeWidth data.func = some (w / 8) := by
      simp only [List.mem_cons, Prod.mk.injEq, List.not_mem_nil, or_false] at hstore
      rcases hstore with ⟨hfunc, rfl⟩ | ⟨hfunc, rfl⟩ | ⟨hfunc, rfl⟩ <;> rw [hfunc] <;> rfl
    have hrange : (Decoded.loadStore data).storeRange regs =
        some (regs.value data.rs1 + data.imm, w / 8) := by
      rw [Decoded.storeRange, hwidth]
      rfl
    exact Decoded.names_store _ hruns hrange _
  · exact Decoded.names_refuse hruns _

theorem OpAmo.mem_storeFuncs {func : U16} {rs2 : I32} {combine : I32 → I32}
    (h : OpAmo.combine func rs2 = some combine) : func ∈ OpAmo.storeFuncs := by
  by_contra hno
  simp only [OpAmo.storeFuncs, List.mem_cons, not_or] at hno
  obtain ⟨-, hswap, hadd, hxor, hand, hor, hmin, hmax, hminu, hmaxu, -⟩ := hno
  rw [OpAmo.combine, if_neg hswap, if_neg hadd, if_neg hxor, if_neg hand, if_neg hor,
    if_neg hmin, if_neg hmax, if_neg hminu, if_neg hmaxu] at h
  cases h

theorem OpAmo.effect_range (pc : U32) (data : TypeR) (r : U32 × ℕ)
    (h : (OpAmo.effect regs pc data).range = some r) :
    (Decoded.opAmo data).storeRange regs = some r := by
  have hstores (hfunc : data.func ∈ OpAmo.storeFuncs) :
      (Decoded.opAmo data).storeRange regs = some (regs.value data.rs1, 4) := by
    rw [Decoded.storeRange, if_pos hfunc]
  rcases OpAmo.effect_cases regs pc data with
    ⟨_, he⟩ | ⟨-, he⟩ | ⟨hsc, he⟩ | ⟨_, hcombine, he⟩ | he <;> rw [he] at h <;> cases h
  · exact hstores (by rw [hsc]; decide)
  · exact hstores (OpAmo.mem_storeFuncs hcombine)

theorem SystemMiscMem.action_names (size pc : U32) (data : TypeI) :
    (Decoded.systemMiscMem data).Names regs (pc + size)
      (SystemMiscMem.action size regs pc data) := by
  have hstops {imm : I32} {state : State} (hmisc : data.func = miscFunc) (himm : data.imm = imm)
      (hcalled : state = .called ↔ imm = ecallImm) (hhalted : state = .halted ↔ imm = ebreakImm)
      (hwaiting : state = .waiting ↔ imm = wfiImm) :
      (Decoded.systemMiscMem data).Names regs (pc + size) (.goto (pc + size) state) := by
    subst himm
    apply Decoded.names_stop
    · exact hcalled.trans (and_iff_right hmisc).symm
    · exact hhalted.trans (and_iff_right hmisc).symm
    · exact hwaiting.trans (and_iff_right hmisc).symm
  rcases SystemMiscMem.action_cases size regs pc data with ⟨hmisc, state, hstate, h⟩ |
    ⟨-, himm, h⟩ | ⟨-, himm, h⟩ | ⟨hmisc, op, -, h⟩ | ⟨hmisc, h⟩ <;> rw [h]
  · simp only [List.mem_cons, Prod.mk.injEq, List.not_mem_nil, or_false] at hstate
    rcases hstate with ⟨hecall, rfl⟩ | ⟨hebreak, rfl⟩ | ⟨hfencei, rfl⟩ | ⟨hwfi, rfl⟩
    · exact hstops hmisc hecall (by decide) (by decide) (by decide)
    · exact hstops hmisc hebreak (by decide) (by decide) (by decide)
    · exact hstops hmisc hfencei (by decide) (by decide) (by decide)
    · exact hstops hmisc hwfi (by decide) (by decide) (by decide)
  · have hruns := @Decoded.runsOn_system data (fun _ => by rw [himm]; decide)
    exact Decoded.names_running hruns rfl nofun nofun
  · simp only [List.mem_cons, List.not_mem_nil, or_false, not_or] at himm
    obtain ⟨hecall, hebreak, -, hwfi, -⟩ := himm
    exact Decoded.names_refuse (Decoded.runsOn_system (fun _ => ⟨hecall, hebreak, hwfi⟩)) _
  · have hruns := Decoded.runsOn_system (fun h => absurd h hmisc)
    have hdestination : (Decoded.systemMiscMem data).destination = some data.rdRs2 := if_neg hmisc
    exact Decoded.names_write hruns hdestination (.inr rfl) rfl _
  · exact Decoded.names_refuse (Decoded.runsOn_system (fun h => absurd h hmisc)) _

/-- Every instruction names what its action writes, stores to and reports. -/
theorem Decoded.action_names (inst : Decoded) (size pc : U32) :
    inst.Names regs (pc + size) (inst.action size regs pc) := by
  cases inst
  case cAddi4spn data =>
    simp only [action]
    split
    · exact names_refuse ⟨id, id, id⟩ _
    · exact names_write ⟨id, id, id⟩ rfl (.inl rfl) rfl _
  case cLw data => exact names_write ⟨id, id, id⟩ rfl (.inl rfl) rfl _
  case cSw data => exact names_store _ ⟨id, id, id⟩ rfl _
  case cAddi data => exact names_write ⟨id, id, id⟩ rfl (.inr rfl) rfl _
  case cJal data => exact names_write ⟨id, id, id⟩ rfl (.inl rfl) rfl _
  case cLi data => exact names_write ⟨id, id, id⟩ rfl (.inr rfl) rfl _
  case cAddi16sp data => exact names_write ⟨id, id, id⟩ rfl (.inl rfl) rfl _
  case cLui data => exact names_write ⟨id, id, id⟩ rfl (.inr rfl) rfl _
  case cSrli data => exact names_write ⟨id, id, id⟩ rfl (.inr rfl) rfl _
  case cSrai data => exact names_write ⟨id, id, id⟩ rfl (.inr rfl) rfl _
  case cAndi data => exact names_write ⟨id, id, id⟩ rfl (.inr rfl) rfl _
  case cSub data => exact names_write ⟨id, id, id⟩ rfl (.inr rfl) rfl _
  case cXor data => exact names_write ⟨id, id, id⟩ rfl (.inr rfl) rfl _
  case cOr data => exact names_write ⟨id, id, id⟩ rfl (.inr rfl) rfl _
  case cAnd data => exact names_write ⟨id, id, id⟩ rfl (.inr rfl) rfl _
  case cJ data => exact names_goto ⟨id, id, id⟩ _
  case cBeqz data => exact names_goto ⟨id, id, id⟩ _
  case cBnez data => exact names_goto ⟨id, id, id⟩ _
  case cSlli data => exact names_write ⟨id, id, id⟩ rfl (.inr rfl) rfl _
  case cLwsp data => exact names_write ⟨id, id, id⟩ rfl (.inl rfl) rfl _
  case cJrMv data =>
    simp only [action, CJrMv.action]
    split_ifs with h2
    · exact names_goto ⟨id, id, id⟩ _
    · have hdestination : (cJrMv data).destination = some data.rdRs1 := if_neg h2
      exact names_write ⟨id, id, id⟩ hdestination (.inl rfl) rfl _
  case cEbreakJalrAdd data =>
    simp only [action, CEbreakJalrAdd.action]
    split_ifs with h2 hd
    · apply names_stop
      · exact iff_of_false (by decide) id
      · exact iff_of_true rfl ⟨h2, hd⟩
      · exact iff_of_false (by decide) id
    · have hdestination : (cEbreakJalrAdd data).destination = some CPURegister.ra := by
        rw [destination, if_pos h2, if_neg hd]
      have hruns : (cEbreakJalrAdd data).RunsOn := ⟨id, fun h => hd h.2, id⟩
      exact names_write hruns hdestination (.inl rfl) rfl _
    · have hdestination : (cEbreakJalrAdd data).destination = some data.rdRs1 := if_neg h2
      have hruns : (cEbreakJalrAdd data).RunsOn := ⟨id, fun h => h2 h.1, id⟩
      exact names_write hruns hdestination (.inl rfl) rfl _
  case cSwsp data => exact names_store _ ⟨id, id, id⟩ rfl _
  case auipc data => exact names_write ⟨id, id, id⟩ rfl (.inr rfl) rfl _
  case branch data =>
    simp only [action, Branch.action]
    split
    · exact names_goto ⟨id, id, id⟩ _
    · exact names_refuse ⟨id, id, id⟩ _
  case jal data => exact names_write ⟨id, id, id⟩ rfl (.inr rfl) rfl _
  case jalr data => exact names_write ⟨id, id, id⟩ rfl (.inr rfl) rfl _
  case loadStore data => exact LoadStore.action_names size pc data
  case lui data => exact names_write ⟨id, id, id⟩ rfl (.inr rfl) rfl _
  case opImm data =>
    simp only [action, OpImm.action]
    split
    · exact names_goto ⟨id, id, id⟩ _
    · split
      · exact names_write ⟨id, id, id⟩ rfl (.inl rfl) rfl _
      · exact names_refuse ⟨id, id, id⟩ _
  case opAmo data =>
    apply names_running ⟨id, id, id⟩ rfl
    · intro cell hcell
      exact ⟨data.rd, rfl, unlessZero_eq_some hcell⟩
    · exact OpAmo.effect_range pc data
  case systemMiscMem data => exact SystemMiscMem.action_names size pc data

end Actions

section Effects

variable [Target] {s t : Interpreter SliceMemory} {effect : Effect} {result : I32}

/-- An effect that succeeds writes to its range of RAM at most. -/
theorem Effect.perform_memory (h : effect.perform s = .ok result t) :
    t.memory = s.memory ∨ ∃ address n data, effect.range = some (address, n) ∧
      s.memory.Writable address n ∧ data.length = n ∧
        t.memory = s.memory.write address data := by
  cases effect with
  | refuse error => cases h
  | value result =>
    cases h
    exact .inl rfl
  | load extend address =>
    obtain ⟨value, u, hload, hrest⟩ := bind_eq_ok h
    cases hrest
    rw [load_ok_state hload]
    exact .inl rfl
  | store stored address =>
    obtain ⟨_, u, hstore, hrest⟩ := bind_eq_ok h
    cases hrest
    obtain ⟨hwritable, rfl⟩ := Interpreter.store_ok hstore
    exact .inr ⟨address, _, _, rfl, hwritable, length_toLeBytes stored, rfl⟩
  | readModifyWrite combine address =>
    obtain ⟨value, u, hload, hrest⟩ := bind_eq_ok h
    obtain ⟨_, v, hstore, hpure⟩ := bind_eq_ok hrest
    cases hpure
    obtain rfl := load_ok_state hload
    obtain ⟨hwritable, rfl⟩ := Interpreter.store_ok hstore
    exact .inr ⟨address, 4, _, rfl, hwritable, length_toLeBytes _, rfl⟩
  | loadReserved address =>
    obtain ⟨value, u, hload, hrest⟩ := bind_eq_ok h
    cases hrest
    rw [load_ok_state hload]
    exact .inl rfl
  | storeConditional stored address =>
    obtain ⟨value, hload, ht, hcases⟩ := Effect.perform_storeConditional h
    split_ifs at hcases
    · obtain ⟨hwritable, hmemory⟩ := Interpreter.store_ok hcases.2
      exact .inr ⟨address, 4, _, rfl, hwritable, length_toLeBytes stored,
        congrArg Interpreter.memory hmemory⟩
    · exact .inl hcases.2
  | loadThenRefuse address error =>
    obtain ⟨value, u, _, hrest⟩ := bind_eq_ok h
    cases hrest
  | controlStatus op addr =>
    simp only [perform, onControlStatus] at h
    split at h <;> cases h
    exact .inl rfl
  | trapReturn =>
    cases h
    exact .inl rfl

omit [Target] in
theorem CSRegisters.trapReturn_sameExceptMie (cs : CSRegisters) :
    cs.SameExceptMie cs.trapReturn.1 := by
  have hbits : ∀ x : U8, (x ||| mstatusMie) &&& ~~~mstatusMie = x &&& ~~~mstatusMie ∧
      x &&& ~~~mstatusMie &&& ~~~mstatusMie = x &&& ~~~mstatusMie := by
    decide
  refine ⟨rfl, ?_⟩
  simp only [trapReturn]
  split_ifs
  · exact (hbits cs.mstatus).1
  · exact (hbits cs.mstatus).2

/-- An effect that succeeds changes the control and status register it operates on, or
returns from a trap. -/
theorem Effect.perform_controlStatus (h : effect.perform s = .ok result t) :
    t.registers.controlStatus = s.registers.controlStatus ∨
      (∃ op addr, effect = .controlStatus op addr ∧
        s.registers.controlStatus.SameExcept addr t.registers.controlStatus) ∨
      effect = .trapReturn ∧
        s.registers.controlStatus.SameExceptMie t.registers.controlStatus := by
  by_cases hop : ∃ op addr, effect = .controlStatus op addr
  · obtain ⟨op, addr, rfl⟩ := hop
    simp only [perform, onControlStatus] at h
    split at h <;> cases h
    next hok =>
      have hchanges := s.registers.controlStatus.operation_changesOnly op addr _ _ hok
      exact .inr (.inl ⟨op, addr, rfl, hchanges⟩)
  · by_cases hreturn : effect = .trapReturn
    · subst hreturn
      cases h
      exact .inr (.inr ⟨rfl, CSRegisters.trapReturn_sameExceptMie _⟩)
    · have hs := Effect.preserves
        (I := fun u => u.registers.controlStatus = s.registers.controlStatus)
        (preserves_load (fun _ _ h => h)) (preserves_store (fun _ _ h => h)) effect
        (fun _ _ _ h => h) (fun op addr heffect => absurd ⟨op, addr, heffect⟩ hop)
        (fun heffect => absurd heffect hreturn) s rfl
      rw [h] at hs
      exact .inl hs

/-- Only the reserving instructions change the reservation. -/
theorem Decoded.perform_reservation {inst : Decoded} {size pc : U32} {regs : Registers}
    (h : (inst.action size regs pc).effect.perform s = .ok result t) :
    t.memoryReservation = s.memoryReservation ∨ inst.Reserves := by
  by_cases hreserving : (inst.action size regs pc).effect.IsReserving
  · obtain ⟨data, rfl⟩ := of_isReserving hreserving
    right
    by_contra hno
    rw [Reserves, not_or] at hno
    exact OpAmo.effect_not_reserving hno.1 hno.2 hreserving
  · exact .inl (Effect.perform_reservation h hreserving)

end Effects

/-- Performing an action that succeeds has the footprint of its instruction. -/
theorem footprint_of_perform [Target] {inst : Decoded} {action : Action} {result : I32}
    {s t : Interpreter SliceMemory}
    (haction : inst.action inst.size.toU32 s.registers s.programCounter = action)
    (h : action.effect.perform s = .ok result t) :
    Footprint inst s (t.retire action.rd result action.pc) action.state := by
  have hnames := @Decoded.action_names s.registers inst inst.size.toU32 s.programCounter
  rw [haction] at hnames
  have houtside := action.effect.perform_outside s
  rw [h] at houtside
  have hcpu : t.registers.cpu = s.registers.cpu := congrArg (fun p => p.2.1) houtside
  refine ⟨?_, ?_, ?_, ?_, ?_, hnames.called, hnames.halted, hnames.waiting, ?_⟩
  · intro i hi
    rw [retire_register, hcpu]
    intro cell hcell
    obtain ⟨rd, hrd, rfl⟩ := hnames.rd cell hcell
    exact hi rd hrd
  · rw [retire_memory]
    rcases Effect.perform_memory h with hsame | ⟨address, n, data, hrange, hwritten⟩
    · exact .inl hsame
    · exact .inr ⟨address, n, data, hnames.range _ hrange, hwritten⟩
  · rw [retire_controlStatus]
    rcases Effect.perform_controlStatus h with hsame | ⟨op, addr, heffect, hexcept⟩ |
      ⟨heffect, hexcept⟩
    · exact .inl hsame
    · rw [← haction] at heffect
      obtain ⟨data, rfl, hmisc, -, haddr⟩ := Decoded.of_controlStatus heffect
      exact .inr (.inl ⟨addr, ⟨hmisc, haddr⟩, hexcept⟩)
    · rw [← haction] at heffect
      exact .inr (.inr ⟨Decoded.of_trapReturn heffect, hexcept⟩)
  · rw [retire_reservation]
    rw [← haction] at h
    exact Decoded.perform_reservation h
  · rw [retire_instructionLimit]
    exact congrArg (fun p => p.2.2) houtside
  · intro hstate
    rw [retire_pc]
    exact hnames.resumes hstate

/-- A successful step has the footprint of the fetched instruction. -/
theorem step_footprint [Target] {s t : Interpreter SliceMemory} {state : State}
    (h : step s = .ok state t) : ∃ inst, Fetches s inst s ∧ Footprint inst s t state := by
  obtain ⟨inst, result, u, hfetch, heffect, rfl, rfl⟩ := step_ok h
  exact ⟨inst, hfetch, footprint_of_perform rfl heffect⟩

/-- The Embive word of `amoadd.w a0, a1, (a2)` after another one, with a reserved word of RAM in
`a2`. -/
def adding : Interpreter SliceMemory where
  programCounter := 4
  registers := ⟨(CPURegisters.default.write 11 7).write 12 0x80000004, .default⟩
  memory := ⟨[0x1F, 0, 0, 0, 158, 10, 20, 91], [1, 2, 3, 4, 5, 0, 0, 0, 9]⟩
  instructionLimit := 3
  memoryReservation := some (0x80000004, 5)

/-- The sum is in RAM and the word that was there in `a0`. -/
def added : Interpreter SliceMemory :=
  { adding with
    programCounter := 8
    registers.cpu := adding.registers.cpu.write 10 5
    memory := ⟨adding.memory.code, [1, 2, 3, 4, 12, 0, 0, 0, 9]⟩ }

theorem step_footprint_added : letI := Target.release64
    ∃ inst, Fetches adding inst adding ∧ Footprint inst adding added .running := by
  let _ := Target.release64
  have hstep : step adding = .ok .running added := by
    with_unfolding_all rfl
  exact step_footprint hstep

end Embive
