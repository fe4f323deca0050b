import Embive.ControlStatus
import Embive.Lib.Refines
import Embive.Run
import Embive.Rv32.Multiply
import Embive.Rv32.Semantics
import Embive.SliceAccess

/-! # A RISC-V machine

A hart executes the instructions of a program in the address space of the guest, and its host
answers system calls and triggers interrupts. What code may not rely on is unspecified. Two
things are those of the interpreter rather than of the manual: `mret` keeps the previous enable
bit of `mstatus`, and atomic accesses need not be aligned.
-/

namespace Embive.Rv32

open EStateM

section Decidability

instance (m : SliceMemory) (address : U32) (n : ℕ) : Decidable (m.Mapped address n) :=
  inferInstanceAs (Decidable (ite _ _ _))

instance [Target] (m : SliceMemory) (address : U32) (n : ℕ) : Decidable (m.Writable address n) :=
  decidable_of_iff (ramIndex address + n ≤ m.ram.length ∧ ramIndex address + n <
    2 ^ Target.usizeBits) ⟨fun h => ⟨h.1, h.2⟩, fun h => ⟨h.inside, h.fits⟩⟩

instance (inst : Control) (x : Values) : Decidable (inst.TargetsEven x) := by
  cases inst <;> simp only [Control.TargetsEven] <;> infer_instance

instance (op : CsrOp) (rs1 : BitVec 5) : Decidable (op.Writes rs1) := by
  cases op <;> simp only [CsrOp.Writes] <;> infer_instance

end Decidability

/-- A hart, its control and status registers and the memory. A reservation remembers the word
that was loaded. -/
structure Hart where
  pc : U32
  x : Values
  csrs : U16 → U32
  memory : SliceMemory
  reservation : Option (U32 × U32)

/-- What a control and status register with this field reads at reset. -/
def resetValue (field : Option CsrField) : U32 :=
  match field with
  | some (.fixed value) => value
  | some (.writable _) | none => 0

namespace Hart

/-- The hart at reset, with this memory. -/
def reset (memory : SliceMemory) : Hart :=
  ⟨0, fun _ => 0, fun addr => resetValue (csrField addr), memory, none⟩

/-- Write a register, unless it is register zero. -/
def setX (rd : BitVec 5) (value : U32) (h : Hart) : Hart :=
  if rd = 0 then h else { h with x := Function.update h.x rd value }

/-- Write a register and go to `pc`. -/
def advance (rd : BitVec 5) (value pc : U32) (h : Hart) : Hart := { h.setX rd value with pc }

end Hart

/-- Why the machine gives no result: the instruction or the call fails, or its result is not
specified. -/
inductive Stop where
  | failed
  | unspecified
  deriving DecidableEq

/-- The machine does not say what happens. -/
def Stop.IsUnspecified (stop : Stop) : Prop := stop = .unspecified

/-- The instructions. The fields of a fence are ignored. -/
inductive Instr where
  | integer (inst : Integer)
  | multiply (op : MulDivOp) (rd rs1 rs2 : BitVec 5)
  | control (inst : Control)
  | access (inst : Access)
  | loadReserved (aq rl : BitVec 1) (rd rs1 : BitVec 5)
  | storeConditional (aq rl : BitVec 1) (rd rs2 rs1 : BitVec 5)
  | csr (op : CsrOp) (rd rs1 : BitVec 5) (number : BitVec 12)
  | fence (funct3 : BitVec 3) (rd rs1 : BitVec 5) (imm : BitVec 12)
  | ecall
  | ebreak
  | wfi
  | mret
  deriving DecidableEq

def Instr.encode : Instr → U32
  | .integer inst => inst.encode
  | .multiply op rd rs1 rs2 => op.encode rd rs1 rs2
  | .control inst => inst.encode
  | .access inst => inst.encode
  | .loadReserved aq rl rd rs1 => rType (0b00010#5 ++ aq ++ rl) 0 rs1 0b010 rd 0b0101111
  | .storeConditional aq rl rd rs2 rs1 => rType (0b00011#5 ++ aq ++ rl) rs2 rs1 0b010 rd 0b0101111
  | .csr op rd rs1 number => op.encode rd rs1 number
  | .fence funct3 rd rs1 imm => iType imm rs1 funct3 rd 0b0001111
  | .ecall => iType 0 0 0b000 0 0b1110011
  | .ebreak => Rv32.ebreak
  | .wfi => iType 0x105 0 0b000 0 0b1110011
  | .mret => iType 0x302 0 0b000 0 0b1110011

section Execution

/-- The program counter after a control transfer of this length. -/
def Control.goesTo (inst : Control) (x : Values) (pc len : U32) : U32 :=
  match inst with
  | .branch op rs1 rs2 _ => if op.holds (x rs1) (x rs2) then inst.target x pc else pc + len
  | .jal _ _ | .jalr _ _ _ => inst.target x pc

theorem goesTo_branch (op : BranchOp) (rs1 rs2 : BitVec 5) (offset : BitVec 12) (x : Values)
    (pc len : U32) : (Control.branch op rs1 rs2 offset).goesTo x pc len =
      if op.holds (x rs1) (x rs2) then pc + (offset ++ 0#1).signExtend 32 else pc + len := by
  simp only [Control.goesTo, Control.target]
  split_ifs <;> rfl

/-- The enable bits of `mstatus` after a trap: the current one is remembered and cleared. -/
def statusTrapped (mstatus : U32) : U32 :=
  (mstatus &&& ~~~0x88#32) ||| (mstatus &&& 0x8#32) <<< 4

/-- The enable bits after the return from a trap: the previous one is taken and stays, where the
manual sets it. -/
def statusReturned (mstatus : U32) : U32 :=
  (mstatus &&& ~~~0x8#32) ||| (mstatus &&& 0x80#32) >>> 4

variable [Target]

/-- A load to register zero is not specified. Misaligned atomic accesses are like any other. -/
def Access.execute (inst : Access) (next : U32) (h : Hart) : Except Stop (State × Hart) :=
  let address := inst.address h.x
  match inst with
  | .load op rd _ _ =>
    if rd = 0 then .error .unspecified
    else if h.memory.Mapped address op.width then
      .ok (.running, h.advance rd (op.result (h.memory.bytesAt address op.width)) next)
    else .error .failed
  | .store op rs2 _ _ =>
    if h.memory.Writable address op.width then
      .ok (.running, { h with
        memory := h.memory.write address (leBytes op.width (h.x rs2).toNat)
        pc := next })
    else .error .failed
  | .amo op _ _ rd rs2 _ =>
    let old := fromLeBytes 32 (h.memory.bytesAt address 4)
    if h.memory.Mapped address 4 ∧ h.memory.Writable address 4 then
      .ok (.running, Hart.advance rd old next
        { h with memory := h.memory.write address (toLeBytes (op.result old (h.x rs2))) })
    else .error .failed

/-- Execute an instruction of this length. A jump to an odd sum is not specified. -/
def Instr.execute (inst : Instr) (len : U32) (h : Hart) : Except Stop (State × Hart) :=
  let next := h.pc + len
  match inst with
  | .integer inst => .ok (.running, h.advance inst.rd (inst.result h.x h.pc) next)
  | .multiply op rd rs1 rs2 => .ok (.running, h.advance rd (op.result (h.x rs1) (h.x rs2)) next)
  | .control inst =>
    if inst.TargetsEven h.x then
      .ok (.running, h.advance inst.rd next (inst.goesTo h.x h.pc len))
    else .error .unspecified
  | .access inst => inst.execute next h
  | .loadReserved _ _ rd rs1 =>
    let address := h.x rs1
    let word := fromLeBytes 32 (h.memory.bytesAt address 4)
    if h.memory.Mapped address 4 then
      .ok (.running, Hart.advance rd word next { h with reservation := some (address, word) })
    else .error .failed
  | .storeConditional _ _ rd rs2 rs1 =>
    let address := h.x rs1
    let word := fromLeBytes 32 (h.memory.bytesAt address 4)
    if h.memory.Mapped address 4 then
      if h.reservation = some (address, word) then
        if h.memory.Writable address 4 then
          .ok (.running, Hart.advance rd 0 next { h with
            memory := h.memory.write address (toLeBytes (h.x rs2))
            reservation := none })
        else .error .failed
      else .ok (.running, Hart.advance rd 1 next { h with reservation := none })
    else .error .failed
  | .csr op rd rs1 number =>
    let addr : U16 := number.setWidth 16
    match csrField addr with
    | some field =>
      let old := h.csrs addr
      let value := field.after (op.result old (op.operand (h.x rs1) rs1))
      .ok (.running, Hart.advance rd old next
        (if op.Writes rs1 then { h with csrs := Function.update h.csrs addr value } else h))
    | none => .error .failed
  | .fence _ _ _ _ => .ok (.running, { h with pc := next })
  | .ecall => .ok (.called, { h with pc := next })
  | .ebreak => .ok (.halted, { h with pc := next })
  | .wfi => .ok (.waiting, { h with pc := next })
  | .mret => .ok (.running, { h with
      csrs := Function.update h.csrs mstatusAddr (statusReturned (h.csrs mstatusAddr))
      pc := h.csrs mepcAddr })

theorem execute_control {inst : Control} {len : U32} {h : Hart} (heven : inst.TargetsEven h.x) :
    Instr.execute (.control inst) len h =
      .ok (.running, h.advance inst.rd (h.pc + len) (inst.goesTo h.x h.pc len)) :=
  if_pos heven

theorem execute_control_odd {inst : Control} {len : U32} {h : Hart}
    (hodd : ¬inst.TargetsEven h.x) :
    Instr.execute (.control inst) len h = .error .unspecified :=
  if_neg hodd

/-- A program: the instructions at its addresses, with their sizes. -/
abbrev Program := U32 → Option (Instr × Size)

/-- Execute the instruction at the program counter. Outside the program nothing is specified. -/
def Program.step (program : Program) : EStateM Stop Hart State := fun h =>
  match program h.pc with
  | some (inst, size) =>
    match inst.execute size.toU32 h with
    | .ok (state, h') => .ok state h'
    | .error stop => .error stop h
  | none => .error .unspecified h

/-- The body of a run: any state but `running` ends it. -/
def Program.runBody (program : Program) : EStateM Stop Hart (Option State) := do
  let state ← program.step
  if state ≠ .running then
    return some state
  else
    return none

/-- Run for as many instructions as the limit says. Without a limit nothing is specified when
the program goes on after as many instructions as the fuel says. -/
def Program.run (program : Program) (fuel : ℕ) (limit : U32) : EStateM Stop Hart State := do
  match ← Lib.forUpTo program.runBody (if 0 < limit then limit.toNat else fuel) with
  | some state => return state
  | none => if 0 < limit then return .running else throw .unspecified

end Execution

section Host

namespace Hart

/-- Interrupts are enabled, and so is the one of the host. -/
def interruptEnabled (h : Hart) : Bool :=
  (h.csrs mieAddr).getLsbD 16 && (h.csrs mstatusAddr).getLsbD 3

/-- The hart after it has entered the handler of the host's interrupt. -/
def trapped (value : I32) (h : Hart) : Hart := { h with
  pc := h.csrs mtvecAddr &&& ~~~0b11
  csrs := Function.update (Function.update (Function.update (Function.update (Function.update h.csrs
    mipAddr 0x00010000) mstatusAddr (statusTrapped (h.csrs mstatusAddr)))
    mcauseAddr 0x80000010) mepcAddr h.pc) mtvalAddr value }

/-- Trigger the host's interrupt. -/
def interrupt (value : I32) : EStateM Stop Hart PUnit := fun h =>
  if h.interruptEnabled then .ok ⟨⟩ (h.trapped value) else .error .failed h

/-- Trigger the host's interrupt if it is enabled. -/
def tryInterrupt (value : I32) : EStateM Stop Hart Bool := fun h =>
  if h.interruptEnabled then .ok true (h.trapped value) else .ok false h

/-- The result of a system call in `a0` and `a1`. -/
def answered (result : Except {code : I32 // code ≠ 0} I32) (h : Hart) : Hart :=
  match result with
  | .ok value => (h.setX 10 0).setX 11 value
  | .error code => (h.setX 10 code).setX 11 0

/-- Answer a system call. Nothing is specified once the host changes the code. -/
def syscall {E : Type} (function : SyscallFn SliceMemory E) : EStateM Stop Hart PUnit := fun h =>
  match function (h.x 17) (Vector.ofFn (fun i => h.x (BitVec.ofNat 5 (10 + i.val)))) h.memory with
  | .ok result memory =>
    if memory.code = h.memory.code then .ok ⟨⟩ ({ h with memory }.answered result)
    else .error .unspecified h
  | .error _ _ => .error .failed h

end Hart

end Host

end Embive.Rv32
