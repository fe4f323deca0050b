import Embive.Instruction
import Embive.Interpreter

/-! # Execution of the full-size instructions

Each instruction executes on its format data. The instruction's own size is an
argument; it only enters the fall-through program counter and link values.
-/

namespace Embive

open Interpreter

variable {M : Type}

/-- `wrapping_shl`. -/
def wrappingShl (x : I32) (n : U32) : I32 := x <<< (n.toNat % 32)

/-- `wrapping_shr` of an `i32`, filling with the sign bit. -/
def wrappingSar (x : I32) (n : U32) : I32 := x.sshiftRight (n.toNat % 32)

/-- `wrapping_shr` of a `u32`, filling with zero. -/
def wrappingShr (x : U32) (n : U32) : U32 := x >>> (n.toNat % 32)

/-- A comparison as an integer. -/
def ofComparison (b : Bool) : I32 := if b then 1 else 0

/-- Add Upper Immediate to Program Counter. -/
def Auipc.execute (data : TypeU) (size : U32) : Exec M State := do
  if data.rd ≠ 0 then
    let reg ← getMutReg data.rd
    writeCell reg ((← getPc) + data.imm)
  nextInstruction size
  return .running

/-- Load Upper Immediate. -/
def Lui.execute (data : TypeU) (size : U32) : Exec M State := do
  if data.rd ≠ 0 then
    let reg ← getMutReg data.rd
    writeCell reg data.imm
  nextInstruction size
  return .running

/-- Whether the branch is taken, if the function is defined. -/
def Branch.taken (func : U8) (rs1 rs2 : I32) : Option Bool :=
  if func = beqFunc then some (rs1 == rs2)
  else if func = bneFunc then some (rs1 != rs2)
  else if func = bltFunc then some (rs1.slt rs2)
  else if func = bgeFunc then some (rs2.sle rs1)
  else if func = bltuFunc then some (rs1.ult rs2)
  else if func = bgeuFunc then some (rs2.ule rs1)
  else none

def Branch.execute (data : TypeB) (size : U32) : Exec M State := do
  let rs1 ← getReg data.rs1
  let rs2 ← getReg data.rs2
  match Branch.taken data.func rs1 rs2 with
  | some branch =>
    if branch then
      setPc ((← getPc) + data.imm)
    else
      nextInstruction size
    return .running
  | none => throw (.invalidInstruction (← getPc))

/-- Jump And Link. -/
def Jal.execute (data : TypeJ) (size : U32) : Exec M State := do
  if data.rd ≠ 0 then
    let reg ← getMutReg data.rd
    writeCell reg ((← getPc) + size)
  setPc ((← getPc) + data.imm)
  return .running

/-- Jump And Link Register. The target is the sum as it is. -/
def Jalr.execute (data : TypeI) (size : U32) : Exec M State := do
  let rs1 ← getReg data.rs1
  if data.rdRs2 ≠ 0 then
    let rd ← getMutReg data.rdRs2
    writeCell rd ((← getPc) + size)
  setPc (rs1 + data.imm)
  return .running

/-- The result of an operation with an immediate, if the function is defined. -/
def OpImm.compute (func : U8) (rs1 imm : I32) : Option I32 :=
  if func = addiFunc then some (rs1 + imm)
  else if func = slliFunc then some (wrappingShl rs1 (imm &&& 0b11111))
  else if func = sltiFunc then some (ofComparison (rs1.slt imm))
  else if func = sltiuFunc then some (ofComparison (rs1.ult imm))
  else if func = xoriFunc then some (rs1 ^^^ imm)
  else if func = srliSraiFunc then
    if (imm &&& (0b1 <<< 10)) ≠ 0 then some (wrappingSar rs1 (imm &&& 0b11111))
    else some (wrappingShr rs1 (imm &&& 0b11111))
  else if func = oriFunc then some (rs1 ||| imm)
  else if func = andiFunc then some (rs1 &&& imm)
  else none

def OpImm.execute (data : TypeI) (size : U32) : Exec M State := do
  let rs1 ← getReg data.rs1
  if data.rdRs2 ≠ 0 then
    let rd ← getMutReg data.rdRs2
    match OpImm.compute data.func rs1 data.imm with
    | some result => writeCell rd result
    | none => throw (.invalidInstruction (← getPc))
  nextInstruction size
  return .running

/-- What a control and status instruction asks for, if its function is defined. -/
def SystemMiscMem.operation (data : TypeI) : Exec M (Option CSOperation) := do
  if data.func = csrrwFunc then
    return some (.write (← getReg data.rs1))
  else if data.func = csrrsFunc then
    if data.rs1 ≠ 0 then
      return some (.set (← getReg data.rs1))
    else
      return none
  else if data.func = csrrcFunc then
    if data.rs1 ≠ 0 then
      return some (.clear (← getReg data.rs1))
    else
      return none
  else if data.func = csrrwiFunc then
    return some (.write (data.rs1.setWidth 32))
  else if data.func = csrrsiFunc then
    if data.rs1 ≠ 0 then
      return some (.set (data.rs1.setWidth 32))
    else
      return none
  else if data.func = csrrciFunc then
    if data.rs1 ≠ 0 then
      return some (.clear (data.rs1.setWidth 32))
    else
      return none
  else
    throw (.invalidInstruction (← getPc))

/-- System and memory ordering instructions. A return from a trap does not go to
the next instruction. -/
def SystemMiscMem.execute (data : TypeI) (size : U32) : Exec M State := do
  if data.func = miscFunc then
    if data.imm = ecallImm then
      nextInstruction size
      return .called
    else if data.imm = ebreakImm then
      nextInstruction size
      return .halted
    else if data.imm = fenceiImm then
      nextInstruction size
      return .running
    else if data.imm = wfiImm then
      nextInstruction size
      return .waiting
    else if data.imm = mretImm then
      let pc ← onControlStatus (fun cs => .ok cs.trapReturn.swap)
      setPc pc
      return .running
    else
      throw (.invalidInstruction (← getPc))
  else
    let op ← SystemMiscMem.operation data
    let res ← onControlStatus (fun cs =>
      cs.operation op ((data.imm &&& 0b1111_1111_1111).setWidth 16))
    if data.rdRs2 ≠ 0 then
      let rd ← getMutReg data.rdRs2
      writeCell rd res
    nextInstruction size
    return .running

/-- The result of a register operation, if the function is one. -/
def OpAmo.compute (func : U16) (rs1 rs2 : I32) : Option I32 :=
  if func = addFunc then some (rs1 + rs2)
  else if func = subFunc then some (rs1 - rs2)
  else if func = sllFunc then some (wrappingShl rs1 rs2)
  else if func = sltFunc then some (ofComparison (rs1.slt rs2))
  else if func = sltuFunc then some (ofComparison (rs1.ult rs2))
  else if func = xorFunc then some (rs1 ^^^ rs2)
  else if func = srlFunc then some (wrappingShr rs1 rs2)
  else if func = sraFunc then some (wrappingSar rs1 rs2)
  else if func = orFunc then some (rs1 ||| rs2)
  else if func = andFunc then some (rs1 &&& rs2)
  else if func = mulFunc then some (rs1 * rs2)
  else if func = mulhFunc then
    some (((rs1.signExtend 64 * rs2.signExtend 64).sshiftRight 32).setWidth 32)
  else if func = mulhsuFunc then
    some (((rs1.signExtend 64 * rs2.setWidth 64).sshiftRight 32).setWidth 32)
  else if func = mulhuFunc then
    some (((rs1.setWidth 64 * rs2.setWidth 64) >>> 32).setWidth 32)
  else if func = divFunc then
    if rs2 = 0 then some (-1) else some (rs1.sdiv rs2)
  else if func = divuFunc then
    if rs2 = 0 then some (-1) else some (rs1.udiv rs2)
  else if func = remFunc then
    if rs2 = 0 then some rs1 else some (rs1.srem rs2)
  else if func = remuFunc then
    if rs2 = 0 then some rs1 else some (rs1.umod rs2)
  else none

/-- What an atomic memory operation stores in place of the value it loaded, if the
function is one. -/
def OpAmo.combine (func : U16) (rs2 : I32) : Option (I32 → I32) :=
  if func = amoswapFunc then some (fun _ => rs2)
  else if func = amoaddFunc then some (fun value => value + rs2)
  else if func = amoxorFunc then some (fun value => value ^^^ rs2)
  else if func = amoandFunc then some (fun value => value &&& rs2)
  else if func = amoorFunc then some (fun value => value ||| rs2)
  else if func = amominFunc then some (fun value => if rs2.slt value then rs2 else value)
  else if func = amomaxFunc then some (fun value => if rs2.slt value then value else rs2)
  else if func = amominuFunc then some (fun value => if rs2.ult value then rs2 else value)
  else if func = amomaxuFunc then some (fun value => if rs2.ult value then value else rs2)
  else none

variable [Memory M]

/-- A load into the destination register, whichever register that is. -/
def LoadStore.loadInto {w : ℕ} (extend : BitVec w → I32) (data : TypeI) (address : U32) :
    Exec M PUnit := do
  let result ← load w address
  let rd ← getMutReg data.rdRs2
  writeCell rd (extend result)

/-- A store of the low bits of the source register. -/
def LoadStore.storeLow (w : ℕ) (data : TypeI) (address : U32) : Exec M PUnit := do
  let rs2 ← getReg data.rdRs2
  store (rs2.setWidth w) address

def LoadStore.execute (data : TypeI) (size : U32) : Exec M State := do
  let rs1 ← getReg data.rs1
  let address := rs1 + data.imm
  if data.func = lbFunc then
    LoadStore.loadInto (fun result : BitVec 8 => result.signExtend 32) data address
  else if data.func = lhFunc then
    LoadStore.loadInto (fun result : BitVec 16 => result.signExtend 32) data address
  else if data.func = lwFunc then
    LoadStore.loadInto (fun result : BitVec 32 => result) data address
  else if data.func = lbuFunc then
    LoadStore.loadInto (fun result : BitVec 8 => result.setWidth 32) data address
  else if data.func = lhuFunc then
    LoadStore.loadInto (fun result : BitVec 16 => result.setWidth 32) data address
  else if data.func = sbFunc then
    LoadStore.storeLow 8 data address
  else if data.func = shFunc then
    LoadStore.storeLow 16 data address
  else if data.func = swFunc then
    LoadStore.storeLow 32 data address
  else
    throw (.invalidInstruction (← getPc))
  nextInstruction size
  return .running

/-- The atomic operations. The word at the address is loaded before the function
is looked at. -/
def OpAmo.atomic (func : U16) (rs1 rs2 : I32) : Exec M I32 := do
  let value ← load 32 rs1
  if func = lrFunc then
    setReservation (some (rs1, value))
    return value
  else if func = scFunc then
    match ← takeReservation with
    | some (addr, oldValue) =>
      if addr = rs1 ∧ value = oldValue then
        store rs2 addr
        return 0
      else
        return 1
    | none => return 1
  else
    match OpAmo.combine func rs2 with
    | some stored =>
      store (stored value) rs1
      return value
    | none => throw (.invalidInstruction (← getPc))

/-- Register operations and atomic operations. -/
def OpAmo.execute (data : TypeR) (size : U32) : Exec M State := do
  let rs1 ← getReg data.rs1
  let rs2 ← getReg data.rs2
  let result ←
    match OpAmo.compute data.func rs1 rs2 with
    | some result => pure result
    | none => OpAmo.atomic data.func rs1 rs2
  if data.rd ≠ 0 then
    let rd ← getMutReg data.rd
    writeCell rd result
  nextInstruction size
  return .running

end Embive
