import Embive.InstructionLimit
import Embive.Rv32.Machine

/-! # Hosts

A host calls the interpreter and goes on as it likes with what the call returned. The same
host drives a hart.
-/

namespace Embive

open EStateM Rv32

/-- A host that is done, or makes a call and goes on. A run sets the instruction limit first,
and an interrupt says whether it was enabled. -/
inductive Host (M E α : Type) where
  | done (result : α)
  | reset (next : Host M E α)
  | step (next : State → Host M E α)
  | run (limit : U32) (next : State → Host M E α)
  | interrupt (value : I32) (next : Bool → Host M E α)
  | syscall (function : SyscallFn M E) (next : Host M E α)

/-- A call failed, or a run without a limit did not end while there was fuel. -/
inductive HostError (E : Type) where
  | interpreter (e : Error)
  | function (e : E)
  | outOfFuel

namespace Host

variable {M E α : Type}

/-- Trigger an interrupt if it is enabled. -/
def tryInterrupt (value : I32) : EStateM (HostError E) (Interpreter M) Bool :=
  fun s =>
    match Interpreter.interrupt value s with
    | .ok _ t => .ok true t
    | .error _ t => .ok false t

section Interpreters

variable [Memory M]

/-- Run with an instruction limit. -/
def runWith (fuel : ℕ) (limit : U32) : EStateM (HostError E) (Interpreter M) State :=
  fun s =>
    match Interpreter.run fuel (s.withLimit limit) with
    | some (.ok state t) => .ok state t
    | some (.error e t) => .error (.interpreter e) t
    | none => .error .outOfFuel s

/-- The host with an interpreter. -/
def onInterpreter (fuel : ℕ) : Host M E α → EStateM (HostError E) (Interpreter M) α
  | .done result => pure result
  | .reset next => do
    modify Interpreter.reset
    onInterpreter fuel next
  | .step next => do
    let state ← Interpreter.step.adaptExcept HostError.interpreter
    onInterpreter fuel (next state)
  | .run limit next => do
    let state ← runWith fuel limit
    onInterpreter fuel (next state)
  | .interrupt value next => do
    let entered ← tryInterrupt value
    onInterpreter fuel (next entered)
  | .syscall function next => do
    (Interpreter.syscall function).adaptExcept HostError.function
    onInterpreter fuel next

end Interpreters

/-- The host with a hart that executes a program. -/
def onHart [Target] (program : Program) (fuel : ℕ) : Host SliceMemory E α → EStateM Stop Hart α
  | .done result => pure result
  | .reset next => do
    modify (fun h => Hart.reset h.memory)
    onHart program fuel next
  | .step next => do
    let state ← program.step
    onHart program fuel (next state)
  | .run limit next => do
    let state ← program.run fuel limit
    onHart program fuel (next state)
  | .interrupt value next => do
    let entered ← Hart.tryInterrupt value
    onHart program fuel (next entered)
  | .syscall function next => do
    Hart.syscall function
    onHart program fuel next

end Host

end Embive
