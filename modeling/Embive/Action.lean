import Embive.Execute

/-! # What an instruction does, in two stages

Once the registers are read, every instruction is an effect that yields a value or
fails, followed by a stage that cannot fail: write the value to the destination and
go to the next program counter. The execution of a decoded instruction is the
performance of its action.
-/

namespace Embive

open EStateM Interpreter

/-- The part of an instruction that may fail, on memory, the reservation and the
control and status registers. -/
inductive Effect where
  | refuse (error : Error)
  | value (result : I32)
  | load {w : ℕ} (extend : BitVec w → I32) (address : U32)
  | store {w : ℕ} (stored : BitVec w) (address : U32)
  | readModifyWrite (combine : I32 → I32) (address : U32)
  | loadReserved (address : U32)
  | storeConditional (stored : I32) (address : U32)
  | loadThenRefuse (address : U32) (error : Error)
  | controlStatus (op : Option CSOperation) (addr : U16)
  | trapReturn

/-- An instruction with its operands read: the effect, the register its value goes
to, the program counter after it and the state it reports. -/
structure Action where
  effect : Effect
  rd : Option (Fin 32)
  pc : U32
  state : State

/-- The cell of a register. -/
def cellOf (index : U8) : Fin 32 := Fin.ofNat 32 index.toNat

/-- The destination of an instruction that ignores register zero. -/
def unlessZero (index : U8) : Option (Fin 32) := if index = 0 then none else some (cellOf index)

/-- The value of a register. -/
def Registers.value (regs : Registers) (index : U8) : I32 := regs.cpu.read (cellOf index)

namespace Action

/-- Fail and change nothing. -/
def refuse (error : Error) : Action := ⟨.refuse error, none, 0, .running⟩

/-- Write a value that depends on registers only. -/
def write (result : I32) (rd : Option (Fin 32)) (pc : U32) : Action :=
  ⟨.value result, rd, pc, .running⟩

/-- Go to a program counter and report a state. -/
def goto (pc : U32) (state : State) : Action := ⟨.value 0, none, pc, state⟩

end Action

section Actions

variable (size : U32) (regs : Registers) (pc : U32)

def Branch.action (data : TypeB) : Action :=
  match Branch.taken data.func (regs.value data.rs1) (regs.value data.rs2) with
  | some branch => .goto (if branch then pc + data.imm else pc + size) .running
  | none => .refuse (.invalidInstruction pc)

def OpImm.action (data : TypeI) : Action :=
  if data.rdRs2 = 0 then .goto (pc + size) .running
  else match OpImm.compute data.func (regs.value data.rs1) data.imm with
    | some result => .write result (some (cellOf data.rdRs2)) (pc + size)
    | none => .refuse (.invalidInstruction pc)

def LoadStore.action (data : TypeI) : Action :=
  let address := regs.value data.rs1 + data.imm
  let loaded (effect : Effect) : Action := ⟨effect, some (cellOf data.rdRs2), pc + size, .running⟩
  let stored (effect : Effect) : Action := ⟨effect, none, pc + size, .running⟩
  if data.func = lbFunc then loaded (.load (fun b : BitVec 8 => b.signExtend 32) address)
  else if data.func = lhFunc then loaded (.load (fun h : BitVec 16 => h.signExtend 32) address)
  else if data.func = lwFunc then loaded (.load (fun x : BitVec 32 => x) address)
  else if data.func = lbuFunc then loaded (.load (fun b : BitVec 8 => b.setWidth 32) address)
  else if data.func = lhuFunc then loaded (.load (fun h : BitVec 16 => h.setWidth 32) address)
  else if data.func = sbFunc then stored (.store ((regs.value data.rdRs2).setWidth 8) address)
  else if data.func = shFunc then stored (.store ((regs.value data.rdRs2).setWidth 16) address)
  else if data.func = swFunc then stored (.store ((regs.value data.rdRs2).setWidth 32) address)
  else .refuse (.invalidInstruction pc)

def OpAmo.effect (data : TypeR) : Effect :=
  let rs1 := regs.value data.rs1
  let rs2 := regs.value data.rs2
  match OpAmo.compute data.func rs1 rs2 with
  | some result => .value result
  | none =>
    if data.func = lrFunc then .loadReserved rs1
    else if data.func = scFunc then .storeConditional rs2 rs1
    else match OpAmo.combine data.func rs2 with
      | some stored => .readModifyWrite stored rs1
      | none => .loadThenRefuse rs1 (.invalidInstruction pc)

/-- The operation of a control and status instruction with its operand read. -/
def SystemMiscMem.op (data : TypeI) : Except Error (Option CSOperation) :=
  if data.func = csrrwFunc then .ok (some (.write (regs.value data.rs1)))
  else if data.func = csrrsFunc then
    .ok (if data.rs1 ≠ 0 then some (.set (regs.value data.rs1)) else none)
  else if data.func = csrrcFunc then
    .ok (if data.rs1 ≠ 0 then some (.clear (regs.value data.rs1)) else none)
  else if data.func = csrrwiFunc then .ok (some (.write (data.rs1.setWidth 32)))
  else if data.func = csrrsiFunc then
    .ok (if data.rs1 ≠ 0 then some (.set (data.rs1.setWidth 32)) else none)
  else if data.func = csrrciFunc then
    .ok (if data.rs1 ≠ 0 then some (.clear (data.rs1.setWidth 32)) else none)
  else .error (.invalidInstruction pc)

def SystemMiscMem.action (data : TypeI) : Action :=
  if data.func = miscFunc then
    if data.imm = ecallImm then .goto (pc + size) .called
    else if data.imm = ebreakImm then .goto (pc + size) .halted
    else if data.imm = fenceiImm then .goto (pc + size) .running
    else if data.imm = wfiImm then .goto (pc + size) .waiting
    else if data.imm = mretImm then ⟨.trapReturn, none, regs.controlStatus.mepc, .running⟩
    else .refuse (.invalidInstruction pc)
  else match SystemMiscMem.op regs pc data with
    | .ok op => ⟨.controlStatus op ((data.imm &&& 0b1111_1111_1111).setWidth 16),
        unlessZero data.rdRs2, pc + size, .running⟩
    | .error e => .refuse e

def CJrMv.action (data : TypeCR) : Action :=
  if data.rs2 = 0 then .goto (regs.value data.rdRs1) .running
  else .write (regs.value data.rs2) (some (cellOf data.rdRs1)) (pc + size)

def CEbreakJalrAdd.action (data : TypeCR) : Action :=
  if data.rs2 = 0 then
    if data.rdRs1 = 0 then .goto (pc + size) .halted
    else .write (pc + size) (some (cellOf CPURegister.ra)) (regs.value data.rdRs1)
  else .write (regs.value data.rdRs1 + regs.value data.rs2) (some (cellOf data.rdRs1)) (pc + size)

/-- A result for a destination that is also the operand. -/
def updateAction (rdRs1 : U8) (f : I32 → I32) : Action :=
  .write (f (regs.value rdRs1)) (unlessZero rdRs1) (pc + size)

/-- The action of a decoded instruction at given registers and program counter. -/
def Decoded.action : Decoded → Action
  | .cAddi4spn data =>
    if data.imm = 0 then .refuse (.illegalInstruction pc)
    else .write (regs.value CPURegister.sp + data.imm) (some (cellOf data.rd)) (pc + size)
  | .cLw data => ⟨.load (fun x : BitVec 32 => x) (regs.value data.rs1 + data.imm),
      some (cellOf data.rdRs2), pc + size, .running⟩
  | .cSw data => ⟨.store (regs.value data.rdRs2) (regs.value data.rs1 + data.imm),
      none, pc + size, .running⟩
  | .cAddi data => updateAction size regs pc data.rdRs1 (fun rs1 => rs1 + data.imm)
  | .cJal data => .write (pc + size) (some (cellOf CPURegister.ra)) (pc + data.imm)
  | .cLi data => updateAction size regs pc data.rdRs1 (fun _ => data.imm)
  | .cAddi16sp data =>
    .write (regs.value CPURegister.sp + data.imm) (some (cellOf CPURegister.sp)) (pc + size)
  | .cLui data => updateAction size regs pc data.rdRs1 (fun _ => data.imm)
  | .cSrli data => updateAction size regs pc data.rdRs1 (fun rs1 => wrappingShr rs1 data.imm)
  | .cSrai data => updateAction size regs pc data.rdRs1 (fun rs1 => wrappingSar rs1 data.imm)
  | .cAndi data => updateAction size regs pc data.rdRs1 (fun rs1 => rs1 &&& data.imm)
  | .cSub data => updateAction size regs pc data.rdRs1 (fun rs1 => rs1 - regs.value data.rs2)
  | .cXor data => updateAction size regs pc data.rdRs1 (fun rs1 => rs1 ^^^ regs.value data.rs2)
  | .cOr data => updateAction size regs pc data.rdRs1 (fun rs1 => rs1 ||| regs.value data.rs2)
  | .cAnd data => updateAction size regs pc data.rdRs1 (fun rs1 => rs1 &&& regs.value data.rs2)
  | .cJ data => .goto (pc + data.imm) .running
  | .cBeqz data => .goto (if regs.value data.rs1 == 0 then pc + data.imm else pc + size) .running
  | .cBnez data => .goto (if regs.value data.rs1 != 0 then pc + data.imm else pc + size) .running
  | .cSlli data => updateAction size regs pc data.rdRs1 (fun rs1 => wrappingShl rs1 data.imm)
  | .cLwsp data => ⟨.load (fun x : BitVec 32 => x) (regs.value CPURegister.sp + data.imm),
      some (cellOf data.rdRs1), pc + size, .running⟩
  | .cJrMv data => CJrMv.action size regs pc data
  | .cEbreakJalrAdd data => CEbreakJalrAdd.action size regs pc data
  | .cSwsp data => ⟨.store (regs.value data.rs2) (regs.value CPURegister.sp + data.imm),
      none, pc + size, .running⟩
  | .auipc data => .write (pc + data.imm) (unlessZero data.rd) (pc + size)
  | .branch data => Branch.action size regs pc data
  | .jal data => .write (pc + size) (unlessZero data.rd) (pc + data.imm)
  | .jalr data => .write (pc + size) (unlessZero data.rdRs2) (regs.value data.rs1 + data.imm)
  | .loadStore data => LoadStore.action size regs pc data
  | .lui data => .write data.imm (unlessZero data.rd) (pc + size)
  | .opImm data => OpImm.action size regs pc data
  | .opAmo data => ⟨OpAmo.effect regs pc data, unlessZero data.rd, pc + size, .running⟩
  | .systemMiscMem data => SystemMiscMem.action size regs pc data

/-- A load or store instruction loads a value, stores the low bits of one or is refused. -/
theorem LoadStore.action_cases (data : TypeI) :
    (data.func ≤ lhuFunc ∧ ∃ (w : ℕ) (extend : BitVec w → I32), w ≤ 32 ∧
      action size regs pc data =
        ⟨.load extend (regs.value data.rs1 + data.imm), some (cellOf data.rdRs2), pc + size,
          .running⟩) ∨
    (∃ w, (data.func, w) ∈ [(sbFunc, 8), (shFunc, 16), (swFunc, 32)] ∧
      action size regs pc data =
        ⟨.store ((regs.value data.rdRs2).setWidth w) (regs.value data.rs1 + data.imm), none,
          pc + size, .running⟩) ∨
    action size regs pc data = .refuse (.invalidInstruction pc) := by
  unfold action
  by_cases hlb : data.func = lbFunc
  · exact .inl ⟨by rw [hlb]; decide, 8, _, by decide, if_pos hlb⟩
  rw [if_neg hlb]
  by_cases hlh : data.func = lhFunc
  · exact .inl ⟨by rw [hlh]; decide, 16, _, by decide, if_pos hlh⟩
  rw [if_neg hlh]
  by_cases hlw : data.func = lwFunc
  · exact .inl ⟨by rw [hlw]; decide, 32, _, le_rfl, if_pos hlw⟩
  rw [if_neg hlw]
  by_cases hlbu : data.func = lbuFunc
  · exact .inl ⟨by rw [hlbu]; decide, 8, _, by decide, if_pos hlbu⟩
  rw [if_neg hlbu]
  by_cases hlhu : data.func = lhuFunc
  · exact .inl ⟨by rw [hlhu]; decide, 16, _, by decide, if_pos hlhu⟩
  rw [if_neg hlhu]
  right
  by_cases hsb : data.func = sbFunc
  · exact .inl ⟨8, by rw [hsb]; decide, if_pos hsb⟩
  rw [if_neg hsb]
  by_cases hsh : data.func = shFunc
  · exact .inl ⟨16, by rw [hsh]; decide, if_pos hsh⟩
  rw [if_neg hsh]
  by_cases hsw : data.func = swFunc
  · exact .inl ⟨32, by rw [hsw]; decide, if_pos hsw⟩
  exact .inr (if_neg hsw)

/-- The effects of a register or atomic operation, and the functions that have them. -/
theorem OpAmo.effect_cases (data : TypeR) :
    (∃ result, effect regs pc data = .value result) ∨
    (data.func = lrFunc ∧ effect regs pc data = .loadReserved (regs.value data.rs1)) ∨
    (data.func = scFunc ∧ effect regs pc data =
      .storeConditional (regs.value data.rs2) (regs.value data.rs1)) ∨
    (∃ stored, combine data.func (regs.value data.rs2) = some stored ∧
      effect regs pc data = .readModifyWrite stored (regs.value data.rs1)) ∨
    effect regs pc data = .loadThenRefuse (regs.value data.rs1) (.invalidInstruction pc) := by
  simp only [effect]
  cases compute data.func (regs.value data.rs1) (regs.value data.rs2) with
  | some result => exact .inl ⟨result, rfl⟩
  | none =>
    right
    by_cases hlr : data.func = lrFunc
    · exact .inl ⟨hlr, if_pos hlr⟩
    right
    simp only [if_neg hlr]
    by_cases hsc : data.func = scFunc
    · exact .inl ⟨hsc, if_pos hsc⟩
    right
    simp only [if_neg hsc]
    cases combine data.func (regs.value data.rs2) with
    | some stored => exact .inl ⟨stored, rfl, rfl⟩
    | none => exact .inr rfl

theorem SystemMiscMem.op_error {data : TypeI} {e : Error} (h : op regs pc data = .error e) :
    e = .invalidInstruction pc := by
  unfold op at h
  repeat' split at h
  all_goals cases h
  rfl

/-- The actions of a system or memory ordering instruction, and the numbers that have
them. -/
theorem SystemMiscMem.action_cases (data : TypeI) :
    (data.func = miscFunc ∧ ∃ state, (data.imm, state) ∈
        [(ecallImm, State.called), (ebreakImm, .halted), (fenceiImm, .running),
          (wfiImm, .waiting)] ∧
      action size regs pc data = .goto (pc + size) state) ∨
    (data.func = miscFunc ∧ data.imm = mretImm ∧ action size regs pc data =
      ⟨.trapReturn, none, regs.controlStatus.mepc, .running⟩) ∨
    (data.func = miscFunc ∧ data.imm ∉ [ecallImm, ebreakImm, fenceiImm, wfiImm, mretImm] ∧
      action size regs pc data = .refuse (.invalidInstruction pc)) ∨
    (data.func ≠ miscFunc ∧ ∃ op, SystemMiscMem.op regs pc data = .ok op ∧
      action size regs pc data =
        ⟨.controlStatus op ((data.imm &&& 0b1111_1111_1111).setWidth 16), unlessZero data.rdRs2,
          pc + size, .running⟩) ∨
    (data.func ≠ miscFunc ∧ action size regs pc data = .refuse (.invalidInstruction pc)) := by
  unfold action
  by_cases hmisc : data.func = miscFunc
  · rw [if_pos hmisc]
    by_cases hecall : data.imm = ecallImm
    · exact .inl ⟨hmisc, .called, by simp [hecall], if_pos hecall⟩
    rw [if_neg hecall]
    by_cases hebreak : data.imm = ebreakImm
    · exact .inl ⟨hmisc, .halted, by simp [hebreak], if_pos hebreak⟩
    rw [if_neg hebreak]
    by_cases hfencei : data.imm = fenceiImm
    · exact .inl ⟨hmisc, .running, by simp [hfencei], if_pos hfencei⟩
    rw [if_neg hfencei]
    by_cases hwfi : data.imm = wfiImm
    · exact .inl ⟨hmisc, .waiting, by simp [hwfi], if_pos hwfi⟩
    rw [if_neg hwfi]
    right
    by_cases hmret : data.imm = mretImm
    · exact .inl ⟨hmisc, hmret, if_pos hmret⟩
    · exact .inr (.inl ⟨hmisc, by simp [hecall, hebreak, hfencei, hwfi, hmret], if_neg hmret⟩)
  · rw [if_neg hmisc]
    right; right; right
    cases hop : SystemMiscMem.op regs pc data with
    | ok op => exact .inl ⟨hmisc, op, rfl, rfl⟩
    | error e => exact .inr ⟨hmisc, congrArg Action.refuse (op_error regs pc hop)⟩

end Actions

variable {M : Type}

/-- Write a value to the destination and go to a program counter. -/
def Interpreter.retire (rd : Option (Fin 32)) (result : I32) (pc : U32) (s : Interpreter M) :
    Interpreter M :=
  match rd with
  | some rd => { s with
      programCounter := pc, registers.cpu := s.registers.cpu.write rd result }
  | none => { s with programCounter := pc }

variable [Memory M]

/-- Perform an effect, giving the value for the destination. -/
def Effect.perform : Effect → Exec M I32
  | .refuse error => throw error
  | .value result => pure result
  | .load extend address => do return extend (← Interpreter.load _ address)
  | .store stored address => do
    Interpreter.store stored address
    return 0
  | .readModifyWrite combine address => do
    let value ← Interpreter.load 32 address
    Interpreter.store (combine value) address
    return value
  | .loadReserved address => do
    let value ← Interpreter.load 32 address
    setReservation (some (address, value))
    return value
  | .storeConditional stored address => do
    let value ← Interpreter.load 32 address
    let reservation ← takeReservation
    if reservation = some (address, value) then
      Interpreter.store stored address
      return 0
    else
      return 1
  | .loadThenRefuse address error => do
    let _ ← Interpreter.load 32 address
    throw error
  | .controlStatus op addr => onControlStatus (fun cs => cs.operation op addr)
  | .trapReturn => onControlStatus (fun cs => .ok (0, cs.trapReturn.1))

/-- Perform the effect, then write its value and go to the next program counter. -/
def Action.perform (action : Action) : Exec M State := do
  let result ← action.effect.perform
  modify (retire action.rd result action.pc)
  return action.state

end Embive
