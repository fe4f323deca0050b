import Embive.Alignment
import Embive.Rv32.Machine
import Embive.Stub

/-! # A hart under the stub

The stub's calls on a hart with a multiset of breakpoints. It may not write an odd program
counter, or anything but zero to register zero, and it reads at most 2 GiB at once.
-/

namespace Embive.Rv32

open EStateM Lib

section Registers

namespace Hart

/-- The value of a register, if there is one. -/
def register (h : Hart) : RiscvRegId → Option U32
  | .gpr index => if index.toNat < 32 then some (h.x (index.setWidth 5)) else none
  | .csr addr => (csrField addr).map (fun _ => h.csrs addr)
  | .pc => some h.pc
  | .fpr _ | .priv => none

/-- The hart with this value in a register. -/
def setRegister (value : U32) (h : Hart) : RiscvRegId → Except Stop Hart
  | .gpr index =>
    if index.toNat < 32 then
      if index = 0 ∧ value ≠ 0 then .error .unspecified
      else .ok { h with x := Function.update h.x (index.setWidth 5) value }
    else .error .failed
  | .csr addr =>
    match csrField addr with
    | some field => .ok { h with csrs := Function.update h.csrs addr (field.after value) }
    | none => .error .failed
  | .pc => if IsEven value then .ok { h with pc := value } else .error .unspecified
  | .fpr _ | .priv => .error .failed

def readRegisters : EStateM Stop Hart RiscvCoreRegs := do
  let h ← get
  return ⟨Vector.ofFn (fun i => h.x (BitVec.ofFin i)), h.pc⟩

def writeRegisters (regs : RiscvCoreRegs) : EStateM Stop Hart PUnit := do
  if IsEven regs.pc ∧ regs.x.get 0 = 0 then
    modify (fun h => { h with x := fun i => regs.x.get i.toFin, pc := regs.pc })
  else
    throw .unspecified

def getRegister (regId : RiscvRegId) : EStateM Stop Hart U32 := fun h =>
  match h.register regId with
  | some value => .ok value h
  | none => .error .failed h

def putRegister (value : U32) (regId : RiscvRegId) : EStateM Stop Hart PUnit := fun h =>
  match h.setRegister value regId with
  | .ok h' => .ok ⟨⟩ h'
  | .error stop => .error stop h

/-- There is no reply where the buffer is too short, or for the privilege level. -/
def readRegister (regId : RiscvRegId) (buf : List U8) :
    EStateM Stop Hart (Option (ℕ × List U8)) :=
  if buf.length < 4 ∨ regId = .priv then pure none
  else some <$> (fun value => (4, toLeBytes value ++ buf.drop 4)) <$> getRegister regId

/-- There is no reply where the buffer is too long, or for the privilege level. -/
def writeRegister (regId : RiscvRegId) (buf : List U8) : EStateM Stop Hart (Option PUnit) :=
  if 4 < buf.length ∨ regId = .priv then pure none
  else some <$> putRegister (fromLeBytes 32 buf) regId

variable [Target]

def readAddrs (startAddr : U32) (data : List U8) : EStateM Stop Hart (ℕ × List U8) := fun h =>
  if 2 ^ 31 < data.length then .error .unspecified h
  else if h.memory.Mapped startAddr data.length then
    .ok (data.length, h.memory.bytesAt startAddr data.length) h
  else .error .failed h

def writeAddrs (startAddr : U32) (data : List U8) : EStateM Stop Hart PUnit := fun h =>
  if h.memory.Writable startAddr data.length then
    .ok ⟨⟩ { h with memory := h.memory.write startAddr data }
  else .error .failed h

end Hart

end Registers

/-- A hart with what the debugger keeps for the stub. -/
structure DebuggedHart (F C : Type) where
  hart : Hart
  syscallFn : F
  breakpoints : Multiset U32
  execMode : ExecMode
  conn : C

namespace DebuggedHart

variable {F C E α : Type}

/-- A method of the hart. -/
def onHart (x : EStateM Stop Hart α) : EStateM Stop (DebuggedHart F C) α :=
  onPart DebuggedHart.hart (fun hart d => { d with hart }) x

/-- Add a copy of the address if there is room for it. -/
def addSwBreakpoint (room : ℕ) (addr : U32) (d : DebuggedHart F C) : Bool × DebuggedHart F C :=
  if d.breakpoints.card < room then (true, { d with breakpoints := addr ::ₘ d.breakpoints })
  else (false, d)

/-- Take a copy of the address away, if there is one. -/
def removeSwBreakpoint (addr : U32) (d : DebuggedHart F C) : Bool × DebuggedHart F C :=
  if addr ∈ d.breakpoints then (true, { d with breakpoints := d.breakpoints.erase addr })
  else (false, d)

/-- Why the hart stops where it has arrived. -/
def reason (d : DebuggedHart F C) : Option Event :=
  if d.hart.pc ∈ d.breakpoints then some (.targetStopped .swBreak)
  else if d.execMode = .step then some (.targetStopped .doneStep)
  else none

/-- Answer a system call with the closure. -/
def syscall [SyscallFnMut F SliceMemory] : EStateM Stop (DebuggedHart F C) PUnit := do
  let d ← get
  onHart (Hart.syscall (SyscallFnMut.function d.syscallFn))
  modify (fun d' => { d' with
    syscallFn := SyscallFnMut.afterCall d.syscallFn (d.hart.x 17)
      (Vector.ofFn (fun i => d.hart.x (BitVec.ofNat 5 (10 + i.val)))) d.hart.memory })

/-- Look at the connection. -/
def poll [ConnectionExt C E] : EStateM Stop (DebuggedHart F C) (Option Event) :=
  onPart DebuggedHart.conn (fun conn d => { d with conn })
    ((incoming : EStateM E C (Option Event)).adaptExcept (fun _ => .failed))

variable [Target] [SyscallFnMut F SliceMemory]

/-- A step with its system call or interrupt, and whether it halted. -/
def serviced (program : Program) : EStateM Stop (DebuggedHart F C) Bool := do
  match ← onHart program.step with
  | .running => return false
  | .halted => return true
  | .called =>
    syscall
    return false
  | .waiting =>
    onHart (Hart.interrupt 0)
    return false

/-- A step, which may be the last one. -/
def round (program : Program) : EStateM Stop (DebuggedHart F C) (Option Event) := do
  if ← serviced program then
    return some (.targetStopped (.terminated .sigstop))
  else
    return (← get).reason

/-- The slices of a wait that are specified: the counter lasts for `2 ^ 21` of them where
overflow is checked. -/
def patience (fuel : ℕ) : ℕ := if Target.overflowChecks = true then min fuel (2 ^ 21) else fuel

variable [ConnectionExt C E]

/-- Go on until there is a reason to stop, and look at the connection every 1024 rounds. -/
def wait (program : Program) (fuel : ℕ) : EStateM Stop (DebuggedHart F C) Event := do
  match ← forUpTo (pollSlice (round program) poll 1024) (patience fuel) with
  | some event => return event
  | none => throw .unspecified

end DebuggedHart

section Calls

variable {F C E α : Type} [Target] [SyscallFnMut F SliceMemory] [ConnectionExt C E]

open DebuggedHart

/-- A call of the stub on the hart. -/
def perform (program : Program) (room fuel : ℕ) :
    (c : StubCall) → EStateM Stop (DebuggedHart F C) (Option c.Reply)
  | .readRegisters => onHart (some <$> Hart.readRegisters)
  | .writeRegisters regs => onHart (some <$> Hart.writeRegisters regs)
  | .readRegister regId buf => onHart (Hart.readRegister regId buf)
  | .writeRegister regId buf => onHart (Hart.writeRegister regId buf)
  | .readAddrs startAddr data => onHart (some <$> Hart.readAddrs startAddr data)
  | .writeAddrs startAddr data => onHart (some <$> Hart.writeAddrs startAddr data)
  | .addSwBreakpoint addr => some <$> modifyGet (DebuggedHart.addSwBreakpoint room addr)
  | .removeSwBreakpoint addr => some <$> modifyGet (DebuggedHart.removeSwBreakpoint addr)
  | .resume => some <$> modify (fun d => { d with execMode := .run })
  | .step => some <$> modify (fun d => { d with execMode := .step })
  | .waitForStopReason => some <$> DebuggedHart.wait program fuel

end Calls

end Embive.Rv32

namespace Embive

open Rv32

variable {F C E α : Type} [Target] [SyscallFnMut F SliceMemory] [ConnectionExt C E]

/-- The stub with a hart that executes a program, and room for so many breakpoints. -/
def Stub.onHart (program : Program) (room fuel : ℕ) : Stub α → EStateM Stop (DebuggedHart F C) α
  | .done result => pure result
  | .call c next => do
    let reply ← Rv32.perform program room fuel c
    onHart program room fuel (next reply)

end Embive
