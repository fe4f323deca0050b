import Embive.Gdb
import Embive.Waiting

/-! # Sessions of the stub

A stub calls the debugger and goes on as it likes with the reply, or is done. A request whose
error is not fatal has no reply, and every other error ends the session.
-/

namespace Embive

open EStateM

/-- A request of the stub, or a wait. -/
inductive StubCall where
  | readRegisters
  | writeRegisters (regs : RiscvCoreRegs)
  | readRegister (regId : RiscvRegId) (buf : List U8)
  | writeRegister (regId : RiscvRegId) (buf : List U8)
  | readAddrs (startAddr : U32) (data : List U8)
  | writeAddrs (startAddr : U32) (data : List U8)
  | addSwBreakpoint (addr : U32)
  | removeSwBreakpoint (addr : U32)
  | resume
  | step
  | waitForStopReason

/-- What a call returns. -/
def StubCall.Reply : StubCall → Type
  | .readRegisters => RiscvCoreRegs
  | .readRegister _ _ | .readAddrs _ _ => ℕ × List U8
  | .addSwBreakpoint _ | .removeSwBreakpoint _ => Bool
  | .waitForStopReason => Event
  | .writeRegisters _ | .writeRegister _ _ | .writeAddrs _ _ | .resume | .step => PUnit

/-- A stub that is done, or makes a call and goes on with the reply. -/
inductive Stub (α : Type) where
  | done (result : α)
  | call (c : StubCall) (next : Option c.Reply → Stub α)

/-- A call fails or panics, or a wait goes on after as many slices as the fuel says. -/
inductive StubError (E : Type) where
  | fault (e : WaitFault E)
  | outOfFuel

variable {M F C E α : Type} {N : ℕ}

/-- A request of the stub. -/
def request (x : TargetResult M F N α) :
    EStateM (StubError E) (Attached M F C N) (Option α) := fun s =>
  match x s.target with
  | .ok a target => .ok (some a) { s with target }
  | .error (.error .nonFatal) target => .ok none { s with target }
  | .error (.error (.fatal e)) target => .error (.fault (.error (.target e))) { s with target }
  | .error .panic target => .error (.fault .panic) { s with target }

variable [Target] [ConnectionExt C E] [Memory M] [SyscallFnMut F M]

/-- A wait of the stub. -/
def wait (fuel : ℕ) : EStateM (StubError E) (Attached M F C N) (Option Event) := fun s =>
  match s.target.waitForStopReason (1024 * fuel) s.conn with
  | some (.ok event t) => .ok (some event) t.attached
  | some (.error e t) => .error (.fault e) t.attached
  | none => .error .outOfFuel s

theorem wait_eq (fuel : ℕ) (s : Attached M F C N) :
    wait (E := E) fuel s = match Lib.stopped (Attached.slices fuel s) with
      | some (.ok event t) => .ok (some event) t
      | some (.error e t) => .error (.fault e) t
      | none => .error .outOfFuel s := by
  rw [← waitForStopReason_eq, wait]
  cases s.target.waitForStopReason (E := E) (1024 * fuel) s.conn with
  | none => rfl
  | some r => cases r <;> rfl

/-- A call on the debugger. -/
def StubCall.perform (fuel : ℕ) :
    (c : StubCall) → EStateM (StubError E) (Attached M F C N) (Option c.Reply)
  | .readRegisters => request Debugger.readRegisters
  | .writeRegisters regs => request (Debugger.writeRegisters regs)
  | .readRegister regId buf => request (Debugger.readRegister regId buf)
  | .writeRegister regId buf => request (Debugger.writeRegister regId buf)
  | .readAddrs startAddr data => request (Debugger.readAddrs startAddr data)
  | .writeAddrs startAddr data => request (Debugger.writeAddrs startAddr data)
  | .addSwBreakpoint addr => request (modifyGet (fun self => self.addSwBreakpoint addr))
  | .removeSwBreakpoint addr => request (modifyGet (fun self => self.removeSwBreakpoint addr))
  | .resume => request Debugger.resume
  | .step => request Debugger.step
  | .waitForStopReason => wait fuel

/-- The stub with the debugger. -/
def Stub.onDebugger (fuel : ℕ) : Stub α → EStateM (StubError E) (Attached M F C N) α
  | .done result => pure result
  | .call c next => do
    let reply ← c.perform fuel
    onDebugger fuel (next reply)

end Embive
