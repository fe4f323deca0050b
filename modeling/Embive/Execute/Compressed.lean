import Embive.Execute.FullSize

/-! # Execution of the compressed instructions

Two of the sixteen-bit encodings hold several instructions each: C.JR with C.MV,
and C.EBREAK with C.JALR and C.ADD.
-/

namespace Embive

open Interpreter

variable {M : Type}

/-- Add Immediate to Stack Pointer, scaled by four; a zero immediate is illegal. -/
def CAddi4spn.execute (data : TypeCIW) (size : U32) : Exec M State := do
  if data.imm = 0 then
    throw (.illegalInstruction (← getPc))
  let sp ← getReg CPURegister.sp
  let reg ← getMutReg data.rd
  writeCell reg (sp + data.imm)
  nextInstruction size
  return .running

/-- An instruction whose destination is also its operand and that does nothing
when that register is zero. -/
def updateUnlessZero (rdRs1 : U8) (f : I32 → I32) (size : U32) : Exec M State := do
  if rdRs1 ≠ 0 then
    let rs1 ← getMutReg rdRs1
    writeCell rs1 (f (← readCell rs1))
  nextInstruction size
  return .running

def CAddi.execute (data : TypeCI1) (size : U32) : Exec M State :=
  updateUnlessZero data.rdRs1 (fun rs1 => rs1 + data.imm) size

def CLi.execute (data : TypeCI1) (size : U32) : Exec M State :=
  updateUnlessZero data.rdRs1 (fun _ => data.imm) size

def CLui.execute (data : TypeCI3) (size : U32) : Exec M State :=
  updateUnlessZero data.rdRs1 (fun _ => data.imm) size

def CSrli.execute (data : TypeCB1) (size : U32) : Exec M State :=
  updateUnlessZero data.rdRs1 (fun rs1 => wrappingShr rs1 data.imm) size

def CSrai.execute (data : TypeCB1) (size : U32) : Exec M State :=
  updateUnlessZero data.rdRs1 (fun rs1 => wrappingSar rs1 data.imm) size

def CAndi.execute (data : TypeCB2) (size : U32) : Exec M State :=
  updateUnlessZero data.rdRs1 (fun rs1 => rs1 &&& data.imm) size

def CSlli.execute (data : TypeCI4) (size : U32) : Exec M State :=
  updateUnlessZero data.rdRs1 (fun rs1 => wrappingShl rs1 data.imm) size

/-- An operation on two registers that does nothing when the destination is zero. -/
def combineUnlessZero (data : TypeCS) (f : I32 → I32 → I32) (size : U32) : Exec M State := do
  if data.rdRs1 ≠ 0 then
    let rs2 ← getReg data.rs2
    let rs1 ← getMutReg data.rdRs1
    writeCell rs1 (f (← readCell rs1) rs2)
  nextInstruction size
  return .running

def CSub.execute (data : TypeCS) (size : U32) : Exec M State :=
  combineUnlessZero data (fun rs1 rs2 => rs1 - rs2) size

def CXor.execute (data : TypeCS) (size : U32) : Exec M State :=
  combineUnlessZero data (fun rs1 rs2 => rs1 ^^^ rs2) size

def COr.execute (data : TypeCS) (size : U32) : Exec M State :=
  combineUnlessZero data (fun rs1 rs2 => rs1 ||| rs2) size

def CAnd.execute (data : TypeCS) (size : U32) : Exec M State :=
  combineUnlessZero data (fun rs1 rs2 => rs1 &&& rs2) size

/-- Add Immediate to Stack Pointer, scaled by sixteen. -/
def CAddi16sp.execute (data : TypeCI2) (size : U32) : Exec M State := do
  let sp ← getMutReg CPURegister.sp
  writeCell sp ((← readCell sp) + data.imm)
  nextInstruction size
  return .running

/-- Jump And Link, to the return address register. -/
def CJal.execute (data : TypeCJ) (size : U32) : Exec M State := do
  let ra ← getMutReg CPURegister.ra
  writeCell ra ((← getPc) + size)
  setPc ((← getPc) + data.imm)
  return .running

def CJ.execute (data : TypeCJ) : Exec M State := do
  setPc ((← getPc) + data.imm)
  return .running

/-- A branch on one register. -/
def branchIf (data : TypeCB4) (taken : I32 → Bool) (size : U32) : Exec M State := do
  if taken (← getReg data.rs1) then
    setPc ((← getPc) + data.imm)
  else
    nextInstruction size
  return .running

def CBeqz.execute (data : TypeCB4) (size : U32) : Exec M State :=
  branchIf data (fun rs1 => rs1 == 0) size

def CBnez.execute (data : TypeCB4) (size : U32) : Exec M State :=
  branchIf data (fun rs1 => rs1 != 0) size

/-- Jump Register, or Move when a second register is named. Move writes its
destination whichever register that is. -/
def CJrMv.execute (data : TypeCR) (size : U32) : Exec M State := do
  if data.rs2 = 0 then
    let rdRs1 ← getReg data.rdRs1
    setPc rdRs1
  else
    let rs2 ← getReg data.rs2
    let rdRs1 ← getMutReg data.rdRs1
    writeCell rdRs1 rs2
    nextInstruction size
  return .running

/-- Environment Break, Jump And Link Register, or Add. Add writes its destination
whichever register that is. -/
def CEbreakJalrAdd.execute (data : TypeCR) (size : U32) : Exec M State := do
  if data.rs2 = 0 then
    if data.rdRs1 = 0 then
      nextInstruction size
      return .halted
    else
      let rs1 ← getReg data.rdRs1
      let ra ← getMutReg CPURegister.ra
      writeCell ra ((← getPc) + size)
      setPc rs1
  else
    let rs2 ← getReg data.rs2
    let rd ← getMutReg data.rdRs1
    writeCell rd ((← readCell rd) + rs2)
    nextInstruction size
  return .running

variable [Memory M]

/-- Load Word. -/
def CLw.execute (data : TypeCL) (size : U32) : Exec M State := do
  let rs1 ← getReg data.rs1
  let address := rs1 + data.imm
  let result ← load 32 address
  let rd ← getMutReg data.rdRs2
  writeCell rd result
  nextInstruction size
  return .running

/-- Store Word. -/
def CSw.execute (data : TypeCL) (size : U32) : Exec M State := do
  let rs1 ← getReg data.rs1
  let address := rs1 + data.imm
  let rs2 ← getReg data.rdRs2
  store rs2 address
  nextInstruction size
  return .running

/-- Load Word relative to the stack pointer, whichever register it goes to. -/
def CLwsp.execute (data : TypeCI5) (size : U32) : Exec M State := do
  let sp ← getReg CPURegister.sp
  let address := sp + data.imm
  let result ← load 32 address
  let rd ← getMutReg data.rdRs1
  writeCell rd result
  nextInstruction size
  return .running

/-- Store Word relative to the stack pointer. -/
def CSwsp.execute (data : TypeCSS) (size : U32) : Exec M State := do
  let sp ← getReg CPURegister.sp
  let address := sp + data.imm
  let rs2 ← getReg data.rs2
  store rs2 address
  nextInstruction size
  return .running

end Embive
