import Embive.Lib.SlotTable
import Embive.Run

/-! # The debugger

The stub adds and removes breakpoints in a table of slots, and waits while the debugger
steps the interpreter, answering its system calls and waking it with interrupts, until
there is a reason to stop or the connection has data.
-/

namespace Embive

open EStateM

/-- A connection to the stub: look for a byte without waiting, or wait for one. -/
class ConnectionExt (C : Type) (E : outParam Type) where
  peek : EStateM E C (Option U8)
  read : EStateM E C U8

/-- A system call closure, which may change what it has captured: the function of a call
and the closure after the call. -/
class SyscallFnMut (F M : Type) where
  function : F → SyscallFn M Error
  afterCall : F → I32 → Vector I32 syscallArgs → M → F

/-- Debugger Execution Mode. -/
inductive ExecMode where
  | step
  | run
  deriving DecidableEq

/-- The signals that the debugger reports. -/
inductive Signal where
  | sigstop
  deriving DecidableEq

/-- The reason why the target stopped. -/
inductive StopReason where
  | terminated (signal : Signal)
  | swBreak
  | doneStep
  deriving DecidableEq

/-- What ends the wait. -/
inductive Event where
  | targetStopped (reason : StopReason)
  | incomingData (byte : U8)
  deriving DecidableEq

/-- An error of the target or of the connection. -/
inductive WaitForStopReasonError (E : Type) where
  | target (e : Error)
  | connection (e : E)
  deriving DecidableEq

/-- A call that returns no event fails or panics. -/
inductive WaitFault (E : Type) where
  | error (e : WaitForStopReasonError E)
  | panic
  deriving DecidableEq

/-- A debugger for the interpreter, with at most `N` breakpoints. -/
structure Debugger (M F : Type) (N : ℕ) where
  interpreter : Interpreter M
  breakpoints : Vector (Option U32) N
  execMode : ExecMode
  syscallFn : F

/-- What the debugger executes: the interpreter with the system call closure. -/
structure Guest (M F : Type) where
  interpreter : Interpreter M
  syscallFn : F

variable {M F : Type} {N : ℕ}

namespace Debugger

/-- Create a new debugger for the given memory and syscall function. -/
def new (memory : M) (syscallFn : F) : Debugger M F N where
  interpreter := .new memory 0
  breakpoints := Vector.replicate N none
  execMode := .run
  syscallFn

/-- Put the address in the first free slot, if there is one. -/
def addSwBreakpoint (self : Debugger M F N) (addr : U32) : Bool × Debugger M F N :=
  match self.breakpoints.findFinIdx? Option.isNone with
  | some i => (true, { self with breakpoints := self.breakpoints.set i (some addr) })
  | none => (false, self)

/-- Free the first slot that has the address, if there is one. -/
def removeSwBreakpoint (self : Debugger M F N) (addr : U32) : Bool × Debugger M F N :=
  match self.breakpoints.findFinIdx? (fun b => b = some addr) with
  | some i => (true, { self with breakpoints := self.breakpoints.set i none })
  | none => (false, self)

/-- The guest of the debugger. -/
def guest (self : Debugger M F N) : Guest M F := ⟨self.interpreter, self.syscallFn⟩

end Debugger

namespace Guest

/-- A method of the interpreter. -/
def onInterpreter {α : Type} (x : Exec M α) : EStateM Error (Guest M F) α :=
  onPart Guest.interpreter (fun interpreter self => { self with interpreter }) x

/-- Handle a system call with the closure. -/
def syscall [SyscallFnMut F M] : EStateM Error (Guest M F) PUnit := fun self =>
  let nr := self.interpreter.registers.cpu.read CPURegister.a7
  (Interpreter.syscall (SyscallFnMut.function self.syscallFn) self.interpreter).mapState
    (fun interpreter => ⟨interpreter, SyscallFnMut.afterCall self.syscallFn nr
      self.interpreter.syscallArguments self.interpreter.memory⟩)

end Guest

/-- The state of the loop that waits. -/
structure WaitState (M F C : Type) (N : ℕ) where
  target : Debugger M F N
  conn : C
  cycles : I32

namespace WaitState

variable {C : Type}

/-- The guest of the target. -/
def guest (s : WaitState M F C N) : Guest M F := s.target.guest

def setGuest (guest : Guest M F) (s : WaitState M F C N) : WaitState M F C N :=
  { s with
    target.interpreter := guest.interpreter
    target.syscallFn := guest.syscallFn }

@[simp] theorem guest_setGuest (guest : Guest M F) (s : WaitState M F C N) :
    (s.setGuest guest).guest = guest := rfl

end WaitState

namespace Debugger

variable {C E : Type}

/-- A method of the guest, its error as one of the target. -/
def onTarget {α : Type} (x : EStateM Error (Guest M F) α) :
    EStateM (WaitFault E) (WaitState M F C N) α :=
  (onPart WaitState.guest WaitState.setGuest x).adaptExcept (fun e => .error (.target e))

section Connection

variable [ConnectionExt C E]

/-- There is a byte to read, or peeking fails. -/
def peekIncoming : EStateM (WaitFault E) (WaitState M F C N) Bool := fun s =>
  match ConnectionExt.peek s.conn with
  | .ok byte conn => .ok byte.isSome { s with conn }
  | .error _ conn => .ok true { s with conn }

/-- Read a byte, an error as one of the connection. -/
def readIncoming : EStateM (WaitFault E) (WaitState M F C N) U8 :=
  (onPart WaitState.conn (fun conn s => { s with conn }) ConnectionExt.read).adaptExcept
    (fun e => .error (.connection e))

/-- Every 1024 instructions, check for incoming data. -/
def checkIncoming : EStateM (WaitFault E) (WaitState M F C N) Bool := do
  if (← get).cycles.srem 1024 = 0 then
    peekIncoming
  else
    return false

end Connection

variable [Target]

/-- Count an instruction, which panics on overflow where overflow is checked. -/
def countCycle : EStateM (WaitFault E) (WaitState M F C N) PUnit := do
  let s ← get
  if Target.overflowChecks = true ∧ s.cycles = BitVec.intMax 32 then
    throw .panic
  else
    set { s with cycles := s.cycles + 1 }

variable [ConnectionExt C E]

/-- What follows an instruction that does not halt. -/
def afterInstruction : EStateM (WaitFault E) (WaitState M F C N) (Option Event) := do
  let target := (← get).target
  if target.breakpoints.contains (some target.interpreter.programCounter) then
    return some (.targetStopped .swBreak)
  else if target.execMode = .step then
    return some (.targetStopped .doneStep)
  else do
    if ← checkIncoming then
      let byte ← readIncoming
      return some (.incomingData byte)
    else
      countCycle
      return none

variable [Memory M] [SyscallFnMut F M]

/-- The body of the loop: run a single instruction, then see whether to stop. -/
def waitBody : EStateM (WaitFault E) (WaitState M F C N) (Option Event) := do
  match ← onTarget (Guest.onInterpreter Interpreter.step) with
  | .running => afterInstruction
  | .halted => return some (.targetStopped (.terminated .sigstop))
  | .called =>
    onTarget Guest.syscall
    afterInstruction
  | .waiting =>
    onTarget (Guest.onInterpreter (Interpreter.interrupt 0))
    afterInstruction

/-- Wait until the target stops or the connection has data. The loop is followed as far as
the fuel reaches. -/
def waitForStopReason (fuel : ℕ) (target : Debugger M F N) (conn : C) :
    Option (Result (WaitFault E) (WaitState M F C N) Event) :=
  Lib.loopFuel waitBody fuel ⟨target, conn, 0⟩

end Debugger

end Embive
