import Embive.Execute
import Embive.Lib.Loop

/-! # Running code and the host's calls

The host runs the code by single steps or by `run`, and between runs it may
trigger an interrupt or answer a system call.
-/

namespace Embive

open EStateM

/-- Number of syscall arguments. -/
def syscallArgs : ℕ := 7

/-- A system call function: it is given the syscall number, the arguments and the
memory. Its error code is not zero. -/
abbrev SyscallFn (M E : Type) :=
  I32 → Vector I32 syscallArgs → EStateM E M (Except {code : I32 // code ≠ 0} I32)

namespace Interpreter

variable {M : Type}

/-- Execute an interrupt as configured by the interpreted code. -/
def interrupt (value : I32) : Exec M PUnit := do
  if !(← get).registers.controlStatus.interruptEnabled then
    throw .interruptNotEnabled
  onControlStatus (fun cs => .ok (⟨⟩, cs.setInterrupt))
  let pc ← getPc
  let pc ← onControlStatus (fun cs => .ok (cs.trapEntry pc value).swap)
  setPc pc

/-- The syscall arguments, `a0` to `a6`. -/
def syscallArguments (self : Interpreter M) : Vector I32 syscallArgs :=
  Vector.ofFn (fun i => self.registers.cpu.inner[Fin.ofNat 32 (CPURegister.a0.val + i.val)])

/-- Set the syscall result. -/
def syscallResult (result : Except {code : I32 // code ≠ 0} I32) (self : Interpreter M) :
    Interpreter M :=
  match result with
  | .ok value => { self with
      registers.cpu := (self.registers.cpu.write CPURegister.a0 0).write CPURegister.a1 value }
  | .error code => { self with
      registers.cpu := (self.registers.cpu.write CPURegister.a0 code).write CPURegister.a1 0 }

/-- Handle a system call. -/
def syscall {E : Type} (function : SyscallFn M E) : EStateM E (Interpreter M) PUnit := do
  let self ← get
  let result ← onPart Interpreter.memory (fun memory s => { s with memory })
    (function self.registers.cpu.inner[CPURegister.a7] self.syscallArguments)
  modify (syscallResult result)

variable [Memory M]

/-- Fetch the next instruction from the program counter. -/
def fetch : Exec M U32 := do
  load 32 (← getPc)

/-- Step through a single instruction from the current program counter. -/
def step : Exec M State := do
  let data ← fetch
  decodeExecute data

/-- The body of the loops in `run`: any state but `running` ends them. -/
def runBody : Exec M (Option State) := do
  let state ← step
  if state ≠ .running then
    return some state
  else
    return none

/-- At most `limit` steps; the code may still be running after them. -/
def runLimited (limit : ℕ) : Exec M State := do
  match ← Lib.forUpTo runBody limit with
  | some state => return state
  | none => return .running

/-- Run the interpreter. Without an instruction limit the loop is followed as far
as the fuel reaches. -/
def run (fuel : ℕ) (self : Interpreter M) : Option (Result Error (Interpreter M) State) :=
  if 0 < self.instructionLimit then
    some (runLimited self.instructionLimit.toNat self)
  else
    Lib.loopFuel runBody fuel self

end Interpreter

end Embive
