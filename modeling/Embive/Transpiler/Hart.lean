import Embive.Rv32.Machine
import Embive.Transpiler.Conformance

/-! # The interpreter as a hart

A state of the interpreter is a hart: the program counter, the registers, what reading each
control and status register returns, the memory and the reservation. What the code relies on
holds when the guest starts, and every call of the host does to the hart what the machine's
host does.
-/

namespace Embive

open Rv32 EStateM

/-- What reading each control and status register returns. -/
def CSRegisters.values (cs : CSRegisters) : U16 → U32 := fun addr => (cs.view addr).getD 0

namespace Interpreter

/-- The hart of a state. -/
def hart (s : Interpreter SliceMemory) : Hart where
  pc := s.programCounter
  x := s.x
  csrs := s.registers.controlStatus.values
  memory := s.memory
  reservation := s.memoryReservation

/-- What the code relies on: an even program counter, register zero, and masked registers. -/
structure Sound (s : Interpreter SliceMemory) : Prop where
  even : IsEven s.programCounter
  zero : s.registers.value 0 = 0
  masked : s.registers.controlStatus.Masked

/-- The state represents the hart. -/
structure Models (s : Interpreter SliceMemory) (h : Hart) : Prop where
  hart : s.hart = h
  sound : s.Sound

end Interpreter

namespace CSRegisters

variable {cs cs' : CSRegisters} {addr : U16}

theorem values_of_view {value : U32} (h : cs.view addr = some value) : cs.values addr = value := by
  rw [values, h]
  rfl

theorem values_update {value : U32} (h : cs'.view = Function.update cs.view addr (some value)) :
    cs'.values = Function.update cs.values addr value := by
  funext a
  rw [values, h]
  by_cases ha : a = addr
  · rw [ha, Function.update_self, Function.update_self]
    rfl
  · rw [Function.update_of_ne ha, Function.update_of_ne ha]
    rfl

/-- Registers that differ at one address at most. -/
theorem SameExcept.values (h : cs.SameExcept addr cs') :
    cs'.values = Function.update cs.values addr (cs'.values addr) := by
  funext a
  by_cases ha : a = addr
  · rw [ha, Function.update_self]
  · rw [Function.update_of_ne ha, CSRegisters.values, view_of_sameExcept h ha]
    rfl

theorem values_mstatus (cs : CSRegisters) (mstatus : U8) :
    CSRegisters.values { cs with mstatus } =
      Function.update cs.values mstatusAddr (mstatus.setWidth 32) := by
  have h : cs.SameExcept mstatusAddr { cs with mstatus } := by constructor <;> simp
  exact h.values

theorem values_mepc (cs : CSRegisters) (mepc : U32) :
    CSRegisters.values { cs with mepc } = Function.update cs.values mepcAddr mepc := by
  have h : cs.SameExcept mepcAddr { cs with mepc } := by constructor <;> simp
  exact h.values

theorem values_mcause (cs : CSRegisters) (mcause : U32) :
    CSRegisters.values { cs with mcause } = Function.update cs.values mcauseAddr mcause := by
  have h : cs.SameExcept mcauseAddr { cs with mcause } := by constructor <;> simp
  exact h.values

theorem values_mtval (cs : CSRegisters) (mtval : U32) :
    CSRegisters.values { cs with mtval } = Function.update cs.values mtvalAddr mtval := by
  have h : cs.SameExcept mtvalAddr { cs with mtval } := by constructor <;> simp
  exact h.values

theorem values_setInterrupt (cs : CSRegisters) :
    cs.setInterrupt.values = Function.update cs.values mipAddr 0x00010000 := by
  have h : cs.SameExcept mipAddr cs.setInterrupt := by constructor <;> simp [setInterrupt]
  have hvalue : cs.setInterrupt.values mipAddr = flagBit true := rfl
  have hflag : flagBit true = 0x00010000 := by decide
  rw [h.values, hvalue, hflag]

/-- The bits of the status register after a trap. -/
theorem status_trapped (mstatus : U8) (h : mstatus &&& ~~~mstatusMask = 0) :
    ((if (mstatus &&& mstatusMie) ≠ 0 then mstatus ||| mstatusMpie
      else mstatus &&& ~~~mstatusMpie) &&& ~~~mstatusMie).setWidth 32 =
      statusTrapped (mstatus.setWidth 32) := by
  revert mstatus
  decide

/-- The bits of the status register after the return from a trap. -/
theorem status_returned (mstatus : U8) (h : mstatus &&& ~~~mstatusMask = 0) :
    (if (mstatus &&& mstatusMpie) ≠ 0 then mstatus ||| mstatusMie
      else mstatus &&& ~~~mstatusMie).setWidth 32 = statusReturned (mstatus.setWidth 32) := by
  revert mstatus
  decide

theorem values_trapReturn (h : cs.Masked) : cs.trapReturn.1.values =
    Function.update cs.values mstatusAddr (statusReturned (cs.values mstatusAddr)) := by
  have hstatus : cs.values mstatusAddr = cs.mstatus.setWidth 32 := rfl
  rw [hstatus, ← status_returned cs.mstatus h.mstatus]
  exact values_mstatus cs _

theorem values_trapEntry (h : cs.Masked) (pc : U32) (value : I32) :
    (cs.setInterrupt.trapEntry pc value).1.values =
      Function.update (Function.update (Function.update (Function.update (Function.update cs.values
        mipAddr 0x00010000) mstatusAddr (statusTrapped (cs.values mstatusAddr)))
        mcauseAddr 0x80000010) mepcAddr pc) mtvalAddr value := by
  have hstatus : cs.values mstatusAddr = cs.mstatus.setWidth 32 := rfl
  rw [hstatus, ← status_trapped cs.mstatus h.mstatus, ← values_setInterrupt, ← values_mstatus,
    ← values_mcause, ← values_mepc, ← values_mtval]
  rfl

theorem Masked.trapReturn (h : cs.Masked) : cs.trapReturn.1.Masked := by
  have hbits : ∀ x : U8, x &&& ~~~mstatusMask = 0 →
      (if (x &&& mstatusMpie) ≠ 0 then x ||| mstatusMie else x &&& ~~~mstatusMie) &&&
        ~~~mstatusMask = 0 := by
    decide
  exact ⟨hbits cs.mstatus h.mstatus, h.mtvec, h.mepc⟩

theorem Masked.trapEntry (h : cs.Masked) {pc : U32} (hpc : IsEven pc) (value : I32) :
    (cs.setInterrupt.trapEntry pc value).1.Masked := by
  have hbits : ∀ x : U8, x &&& ~~~mstatusMask = 0 →
      (if (x &&& mstatusMie) ≠ 0 then x ||| mstatusMpie else x &&& ~~~mstatusMpie) &&&
        ~~~mstatusMie &&& ~~~mstatusMask = 0 := by
    decide
  exact ⟨hbits cs.mstatus h.mstatus, h.mtvec, hpc⟩

end CSRegisters

section State

variable {s : Interpreter SliceMemory} {rd : BitVec 5} {value pc : U32}

theorem x_write (hrd : rd ≠ 0) :
    ({ s with registers.cpu := s.registers.cpu.write rd.toFin value } : Interpreter _).x =
      Function.update s.x rd value := by
  funext i
  by_cases hi : i = 0
  · rw [Interpreter.x, if_pos hi, hi, Function.update_of_ne hrd.symm, Interpreter.x, if_pos rfl]
  · rw [Interpreter.x, if_neg hi]
    by_cases heq : i = rd
    · rw [heq, Function.update_self]
      exact Vector.getElem_set_self rd.toFin.isLt
    · have hne : rd.toFin.val ≠ i.toFin.val := by
        intro h
        exact heq (BitVec.eq_of_toNat_eq h.symm)
      rw [Function.update_of_ne heq, Interpreter.x, if_neg hi]
      exact Vector.getElem_set_ne rd.toFin.isLt i.toFin.isLt hne

theorem hart_setX (rd : BitVec 5) (value : U32) (s : Interpreter SliceMemory) :
    (s.setX rd value).hart = s.hart.setX rd value := by
  rw [Interpreter.setX, Hart.setX]
  by_cases hrd : rd = 0
  · rw [if_pos hrd, if_pos hrd]
  · rw [if_neg hrd, if_neg hrd, Interpreter.hart, x_write hrd]
    rfl

theorem hart_advance (rd : BitVec 5) (value pc : U32) (s : Interpreter SliceMemory) :
    (s.advance rd value pc).hart = s.hart.advance rd value pc := by
  have h := congrArg (fun h : Hart => { h with pc }) (hart_setX rd value s)
  exact h

theorem value_zero_setX (h : s.registers.value 0 = 0) :
    (s.setX rd value).registers.value 0 = 0 := by
  rw [Interpreter.setX]
  by_cases hrd : rd = 0
  · rw [if_pos hrd]
    exact h
  · rw [if_neg hrd]
    have hne : rd.toFin.val ≠ (0 : Fin 32).val := by
      intro heq
      exact hrd (BitVec.eq_of_toNat_eq heq)
    have hread : (s.registers.cpu.write rd.toFin value).read 0 = s.registers.cpu.read 0 :=
      Vector.getElem_set_ne rd.toFin.isLt (0 : Fin 32).isLt hne
    exact hread.trans h

theorem Interpreter.Sound.advance (h : s.Sound) (rd : BitVec 5) (value : U32) (hpc : IsEven pc) :
    (s.advance rd value pc).Sound where
  even := hpc
  zero := value_zero_setX h.zero
  masked := by
    rw [Interpreter.advance, Interpreter.setX]
    split_ifs <;> exact h.masked

end State

section Reset

/-- The value that an operation reads, zero where it is not supported. -/
def valueRead (x : Except Error (U32 × CSRegisters)) : U32 :=
  match x with
  | .ok (value, _) => value
  | .error _ => 0

theorem values_eq (cs : CSRegisters) (addr : U16) :
    cs.values addr = valueRead (cs.operation none addr) := by
  rw [CSRegisters.values, CSRegisters.view]
  cases cs.operation none addr <;> rfl

/-- The tables of the operations and of the fields are searched in the same order. -/
theorem valueRead_ite {c : Prop} [Decidable c] {x y : Except Error (U32 × CSRegisters)}
    {f g : Option CsrField} (hx : valueRead x = resetValue f) (hy : valueRead y = resetValue g) :
    valueRead (if c then x else y) = resetValue (if c then f else g) := by
  split_ifs
  · exact hx
  · exact hy

theorem values_default :
    CSRegisters.default.values = fun addr => resetValue (csrField addr) := by
  funext addr
  rw [values_eq]
  unfold CSRegisters.operation csrField
  repeat
    apply valueRead_ite
    · rfl
  rfl

/-- The guest starts as the hart at reset. -/
theorem models_new (memory : SliceMemory) (limit : U32) :
    (Interpreter.new memory limit).Models (Hart.reset memory) where
  hart := by
    have hx : (Interpreter.new memory limit).x = fun _ => 0 := by
      funext i
      rw [Interpreter.x]
      split_ifs
      · rfl
      · exact Vector.getElem_replicate i.toFin.isLt
    rw [Interpreter.hart, hx]
    exact congrArg (fun csrs => (⟨0, fun _ => 0, csrs, memory, none⟩ : Hart)) values_default
  sound := ⟨(by decide : IsEven 0), rfl, CSRegisters.masked_default⟩

end Reset

section Host

variable {s : Interpreter SliceMemory}

theorem interruptEnabled_hart (s : Interpreter SliceMemory) :
    s.hart.interruptEnabled = s.registers.controlStatus.interruptEnabled := by
  have hflag : ∀ flag : Bool, (CSRegisters.flagBit flag).getLsbD 16 = flag := by decide
  have hstatus : ∀ mstatus : U8, (mstatus.setWidth 32 : U32).getLsbD 3 =
      ((mstatus &&& mstatusMie) != 0) := by
    decide
  exact congrArg₂ Bool.and (hflag _) (hstatus _)

/-- An interrupt of the host is entered as on the machine. -/
theorem refines_interrupt (value : I32) :
    Refines Stop.IsUnspecified Interpreter.Models
      (Interpreter.interrupt value : Exec SliceMemory PUnit) (Hart.interrupt value) := by
  rintro s _ ⟨rfl, hs⟩
  rw [interrupt_apply, Hart.interrupt, interruptEnabled_hart]
  split_ifs
  · have hvalues := CSRegisters.values_trapEntry hs.masked s.programCounter value
    refine ⟨rfl, ?_, ?_⟩
    · exact congrArg (fun csrs => { s.hart with
        pc := s.registers.controlStatus.mtvec &&& ~~~mtvecMode, csrs }) hvalues
    · exact ⟨mtvec_isEven _, hs.zero, hs.masked.trapEntry hs.even value⟩
  · trivial

theorem syscallArguments_hart (s : Interpreter SliceMemory) :
    s.syscallArguments = Vector.ofFn (fun i => s.x (BitVec.ofNat 5 (10 + i.val))) := by
  rw [Interpreter.syscallArguments]
  congr 1
  funext i
  fin_cases i <;> rfl

/-- What a system call does, from the values of the registers. -/
theorem syscall_apply {E : Type} (function : SyscallFn SliceMemory E)
    (s : Interpreter SliceMemory) : Interpreter.syscall function s =
      match function (s.x 17) (Vector.ofFn (fun i => s.x (BitVec.ofNat 5 (10 + i.val))))
        s.memory with
      | .ok result memory => .ok ⟨⟩ (Interpreter.syscallResult result { s with memory })
      | .error e memory => .error e { s with memory } := by
  have hnumber : s.x 17 = s.registers.cpu.inner[CPURegister.a7] := rfl
  rw [← syscallArguments_hart, hnumber]
  simp only [Interpreter.syscall, bind_apply, get_apply, onPart_apply]
  cases function s.registers.cpu.inner[CPURegister.a7] s.syscallArguments s.memory <;> rfl

theorem Interpreter.Sound.syscallResult (h : s.Sound)
    (result : Except {code : I32 // code ≠ 0} I32) : (s.syscallResult result).Sound := by
  cases result with
  | ok value =>
    have hzero : ((s.setX 10 0).setX 11 value).registers.value 0 = 0 :=
      value_zero_setX (value_zero_setX h.zero)
    exact ⟨h.even, hzero, h.masked⟩
  | error code =>
    have hzero : ((s.setX 10 code).setX 11 0).registers.value 0 = 0 :=
      value_zero_setX (value_zero_setX h.zero)
    exact ⟨h.even, hzero, h.masked⟩

theorem syscallResult_hart (result : Except {code : I32 // code ≠ 0} I32)
    (s : Interpreter SliceMemory) : (s.syscallResult result).hart = s.hart.answered result := by
  cases result with
  | ok value => exact (hart_setX 11 value (s.setX 10 0)).trans (congrArg _ (hart_setX 10 0 s))
  | error code =>
    exact (hart_setX 11 0 (s.setX 10 code)).trans (congrArg _ (hart_setX 10 code.val s))

end Host

end Embive
