import Embive.Debugger
import Embive.Lib.Splice

/-! # The requests of the stub

The stub reads and writes the registers and the memory of the guest, sets breakpoints, and says
how the guest goes on.
-/

namespace Embive

open EStateM

/-- The error of a request: the stub reports it, or ends the session. -/
inductive TargetError where
  | nonFatal
  | fatal (e : Error)
  deriving DecidableEq

/-- A request that returns nothing fails or panics. -/
inductive TargetFault where
  | error (e : TargetError)
  | panic
  deriving DecidableEq

/-- The core registers, as the stub passes them. -/
structure RiscvCoreRegs where
  x : Vector U32 32
  pc : U32
  deriving DecidableEq

/-- The registers that the stub accesses one by one. -/
inductive RiscvRegId where
  | gpr (index : U8)
  | fpr (index : U8)
  | pc
  | csr (addr : U16)
  | priv
  deriving DecidableEq

/-- A request of the stub. -/
abbrev TargetResult (M F : Type) (N : ℕ) := EStateM TargetFault (Debugger M F N)

namespace Debugger

variable {M F α : Type} {N : ℕ}

/-- A method of the interpreter, whose errors end the session. -/
def onInterpreter (x : Exec M α) : TargetResult M F N α :=
  (onPart Debugger.interpreter (fun interpreter self => { self with interpreter }) x).adaptExcept
    (fun e => .error (.fatal e))

/-- A method of the memory, whose errors end the session. -/
def onMemory (x : EStateM Error M α) : TargetResult M F N α :=
  onInterpreter (onPart Interpreter.memory (fun memory s => { s with memory }) x)

def readRegisters : TargetResult M F N RiscvCoreRegs := do
  let self ← get
  return ⟨self.interpreter.registers.cpu.inner, self.interpreter.programCounter⟩

/-- Write every register as it is given, also register zero. -/
def writeRegisters (regs : RiscvCoreRegs) : TargetResult M F N PUnit :=
  modify (fun self => { self with
    interpreter.registers.cpu := ⟨regs.x⟩
    interpreter.programCounter := regs.pc })

/-- Read a register to the first four bytes of the buffer. -/
def readRegister (regId : RiscvRegId) (buf : List U8) : TargetResult M F N (ℕ × List U8) :=
  if buf.length < 4 then
    throw (.error .nonFatal)
  else do
    let value : U32 ← match regId with
      | .pc => onInterpreter Interpreter.getPc
      | .gpr i => onInterpreter (Interpreter.getReg i)
      | .fpr i => throw (.error (.fatal (.invalidCPURegister i)))
      | .csr i => onInterpreter (Interpreter.onControlStatus (fun cs => cs.operation none i))
      | .priv => throw (.error .nonFatal)
    return (4, Lib.splice buf 0 (toLeBytes value))

/-- Write a register, with zeros for the bytes that are not given. -/
def writeRegister (regId : RiscvRegId) (buf : List U8) : TargetResult M F N PUnit :=
  if 4 < buf.length then
    throw (.error .nonFatal)
  else
    let padBuf := Lib.splice [0, 0, 0, 0] 0 buf
    let val := fromLeBytes 32 padBuf
    match regId with
    | .pc => onInterpreter (Interpreter.setPc val)
    | .gpr i => onInterpreter (do
      let reg ← Interpreter.getMutReg i
      Interpreter.writeCell reg val)
    | .fpr i => throw (.error (.fatal (.invalidCPURegister i)))
    | .csr i => do
      let _ ← onInterpreter
        (Interpreter.onControlStatus (fun cs => cs.operation (some (.write val)) i))
    | .priv => throw (.error .nonFatal)

/-- Run until there is a reason to stop. -/
def resume : TargetResult M F N PUnit := modify (fun self => { self with execMode := .run })

/-- Run a single instruction. -/
def step : TargetResult M F N PUnit := modify (fun self => { self with execMode := .step })

variable [Memory M]

/-- Read memory to the whole buffer, which panics if the memory returns another length. -/
def readAddrs (startAddr : U32) (data : List U8) : TargetResult M F N (ℕ × List U8) := do
  let res ← onMemory (Memory.loadBytes startAddr data.length)
  if res.length = data.length then
    return (data.length, res)
  else
    throw .panic

def writeAddrs (startAddr : U32) (data : List U8) : TargetResult M F N PUnit :=
  onMemory (Memory.storeBytes startAddr data)

end Debugger

section Registers

variable {M F : Type} {N : ℕ}

/-- How the interpreter reads a register of the stub, if it has one. -/
def Interpreter.valueOf : RiscvRegId → Option (Exec M U32)
  | .gpr i => some (getReg i)
  | .fpr i => some (throw (.invalidCPURegister i))
  | .pc => some getPc
  | .csr i => some (onControlStatus (fun cs => cs.operation none i))
  | .priv => none

/-- How the interpreter writes a register of the stub, if it has one. -/
def Interpreter.assign (value : U32) : RiscvRegId → Option (Exec M PUnit)
  | .gpr i => some (do
    let reg ← getMutReg i
    writeCell reg value)
  | .fpr i => some (throw (.invalidCPURegister i))
  | .pc => some (setPc value)
  | .csr i => some (do
    let _ ← onControlStatus (fun cs => cs.operation (some (.write value)) i))
  | .priv => none

theorem Debugger.readRegister_eq (regId : RiscvRegId) (buf : List U8) :
    (readRegister regId buf : TargetResult M F N (ℕ × List U8)) =
      if buf.length < 4 then throw (.error .nonFatal)
      else match Interpreter.valueOf regId with
        | some x => do
          let value ← onInterpreter x
          return (4, Lib.splice buf 0 (toLeBytes value))
        | none => throw (.error .nonFatal) := by
  cases regId <;> rfl

theorem Debugger.writeRegister_eq (regId : RiscvRegId) (buf : List U8) :
    (writeRegister regId buf : TargetResult M F N PUnit) =
      if 4 < buf.length then throw (.error .nonFatal)
      else match Interpreter.assign (fromLeBytes 32 (Lib.splice [0, 0, 0, 0] 0 buf)) regId with
        | some x => onInterpreter x
        | none => throw (.error .nonFatal) := by
  rw [writeRegister]
  split_ifs
  · rfl
  · cases regId with
    | csr i =>
      funext self
      simp only [Interpreter.assign, bind_apply, onInterpreter, adaptExcept_apply, onPart_apply]
      cases (Interpreter.onControlStatus (fun cs => cs.operation _ i) : Exec M U32)
        self.interpreter <;> rfl
    | gpr i => rfl
    | fpr i => rfl
    | pc => rfl
    | priv => rfl

end Registers

end Embive
