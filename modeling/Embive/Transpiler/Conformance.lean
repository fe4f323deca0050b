import Embive.Alignment
import Embive.Rv32.Semantics
import Embive.Transpiler.FullSize

/-! # Computation and control transfer conform to RV32I

The conversion of every integer and control transfer instruction does to the
interpreter's registers and program counter what the instruction means, and changes
nothing else.
-/

namespace Embive

section Values

variable {M : Type}

/-- The values of the registers, zero for register zero. -/
def Interpreter.x (s : Interpreter M) : Rv32.Values := fun i =>
  if i = 0 then 0 else s.registers.cpu.inner[i.toFin]

/-- The state with a register written, unless it is register zero. -/
def Interpreter.setX (rd : BitVec 5) (value : U32) (s : Interpreter M) : Interpreter M :=
  if rd = 0 then s
  else { s with registers.cpu := s.registers.cpu.write rd.toFin value }

/-- The state after an instruction that writes a register and goes to `pc`. -/
def Interpreter.advance (rd : BitVec 5) (value pc : U32) (s : Interpreter M) : Interpreter M :=
  { s.setX rd value with programCounter := pc }

variable {s : Interpreter M} {i rd : BitVec 5} {value pc : U32}

theorem cellOf_setWidth (i : BitVec 5) : cellOf (i.setWidth 8) = i.toFin := by
  revert i
  decide

theorem setWidth_ne_zero (h : i ≠ 0) : i.setWidth 8 ≠ 0#8 := by
  revert i
  decide

theorem value_eq (h0 : s.registers.value 0 = 0) (i : BitVec 5) :
    s.registers.value (i.setWidth 8) = s.x i := by
  by_cases hi : i = 0
  · rw [Interpreter.x, if_pos hi, hi]
    exact h0
  · rw [Interpreter.x, if_neg hi]
    exact congrArg (fun cell : Fin 32 => s.registers.cpu.inner[cell]) (cellOf_setWidth i)

theorem retire_eq (rd : BitVec 5) (value pc : U32) :
    s.retire (unlessZero (rd.setWidth 8)) value pc = s.advance rd value pc := by
  rw [Interpreter.advance, Interpreter.setX]
  by_cases hrd : rd = 0
  · rw [if_pos hrd, hrd]
    rfl
  · rw [if_neg hrd, unlessZero_of_ne (setWidth_ne_zero hrd), cellOf_setWidth]
    rfl

end Values

namespace Transpiler

open Rv32

section Tables

theorem shiftAmount (y : U32) : (y.extractLsb' 0 5).toNat = y.toNat % 32 := by
  rw [BitVec.extractLsb'_toNat, Nat.shiftRight_zero]

/-- The operation is renumbered to a function that computes it. -/
theorem aluOp_computes (op : AluOp) :
    ∃ func, Riscv.Op.embiveFunc ((op.funct7 ++ op.funct3).setWidth 16) = some func ∧
      ∀ x y, OpAmo.compute func x y = some (op.result x y) := by
  cases op with
  | add => exact ⟨_, rfl, fun _ _ => rfl⟩
  | sub => exact ⟨_, rfl, fun _ _ => rfl⟩
  | sll =>
    refine ⟨_, rfl, ?_⟩
    intro x y
    rw [AluOp.result, shiftAmount]
    rfl
  | slt => exact ⟨_, rfl, fun _ _ => rfl⟩
  | sltu => exact ⟨_, rfl, fun _ _ => rfl⟩
  | xor => exact ⟨_, rfl, fun _ _ => rfl⟩
  | srl =>
    refine ⟨_, rfl, ?_⟩
    intro x y
    rw [AluOp.result, shiftAmount]
    rfl
  | sra =>
    refine ⟨_, rfl, ?_⟩
    intro x y
    rw [AluOp.result, shiftAmount]
    rfl
  | or => exact ⟨_, rfl, fun _ _ => rfl⟩
  | and => exact ⟨_, rfl, fun _ _ => rfl⟩

theorem aluImmOp_computes (op : AluImmOp) :
    ∃ func, Riscv.OpImm.embiveFunc (op.funct3.setWidth 8) = some func ∧
      ∀ x imm, OpImm.compute func x (imm.signExtend 32) = some (op.result x imm) := by
  cases op with
  | addi => exact ⟨_, rfl, fun _ _ => rfl⟩
  | slti =>
    refine ⟨_, rfl, ?_⟩
    intro x imm
    rw [AluImmOp.result, ← BitVec.toInt_signExtend_of_le (by decide : 12 ≤ 32)]
    rfl
  | sltiu => exact ⟨_, rfl, fun _ _ => rfl⟩
  | xori => exact ⟨_, rfl, fun _ _ => rfl⟩
  | ori => exact ⟨_, rfl, fun _ _ => rfl⟩
  | andi => exact ⟨_, rfl, fun _ _ => rfl⟩

theorem shamt_toNat (shamt : BitVec 5) :
    ((0#1 ++ shamt).setWidth 32 : I32).toNat % 32 = shamt.toNat := by
  revert shamt
  decide

theorem shiftOp_computes (op : ShiftOp) :
    ∃ func, Riscv.OpImm.embiveFunc (op.funct3.setWidth 8) = some func ∧
      ∀ x shamt, OpImm.compute func x ((op.funct7 ++ shamt).signExtend 32) =
        some (op.result x shamt) := by
  cases op with
  | slli =>
    refine ⟨_, rfl, ?_⟩
    intro x shamt
    rw [ShiftOp.result, ← shamt_toNat, ← (shamt_eq shamt).1]
    rfl
  | srli =>
    refine ⟨OpImm.srliSraiFunc, rfl, ?_⟩
    intro x shamt
    obtain ⟨hshamt, -, hbit, -⟩ := shamt_eq shamt
    change OpImm.compute _ x ((0b0000000#7 ++ shamt).signExtend 32) = _
    rw [srliSrai_compute, if_neg (not_not.mpr hbit), hshamt, ShiftOp.result, wrappingShr,
      shamt_toNat]
  | srai =>
    refine ⟨OpImm.srliSraiFunc, rfl, ?_⟩
    intro x shamt
    obtain ⟨-, hshamt, -, hbit⟩ := shamt_eq shamt
    change OpImm.compute _ x ((0b0100000#7 ++ shamt).signExtend 32) = _
    rw [srliSrai_compute, if_pos hbit, hshamt, ShiftOp.result, wrappingSar, shamt_toNat]

theorem branchOp_taken (op : BranchOp) :
    ∃ func, Riscv.Branch.embiveFunc (op.funct3.setWidth 8) = some func ∧
      ∀ x y, Branch.taken func x y = some (op.holds x y) := by
  cases op with
  | beq => exact ⟨_, rfl, fun _ _ => rfl⟩
  | bne =>
    refine ⟨_, rfl, ?_⟩
    intro x y
    have hne : (x != y) = decide (x ≠ y) := by
      by_cases hxy : x = y <;> simp [hxy]
    exact congrArg some hne
  | blt => exact ⟨_, rfl, fun _ _ => rfl⟩
  | bge => exact ⟨_, rfl, fun _ _ => rfl⟩
  | bltu => exact ⟨_, rfl, fun _ _ => rfl⟩
  | bgeu => exact ⟨_, rfl, fun _ _ => rfl⟩

end Tables

section Instructions

variable {M : Type} [Memory M] {s : Interpreter M}

theorem opImm_performs {rd rs1 : BitVec 5} {imm : I32} {func : U8} {result : U32}
    (h0 : s.registers.value 0 = 0) (h : OpImm.compute func (s.x rs1) imm = some result) :
    ((Decoded.opImm ⟨rd.setWidth 8, rs1.setWidth 8, imm, func⟩).action 4 s.registers
      s.programCounter).perform s = .ok .running (s.advance rd result (s.programCounter + 4)) := by
  simp only [Decoded.action, OpImm.action, value_eq h0, h]
  rw [← retire_eq]
  by_cases hrd : rd.setWidth 8 = (0 : U8)
  · rw [if_pos hrd, hrd]
    rfl
  · rw [if_neg hrd, unlessZero_of_ne hrd]
    rfl

/-- Every integer computational instruction is accepted, and its conversion writes the
result to the destination and goes to the next word. -/
theorem integer_conforms [ElfCrate] (inst : Rv32.Integer) :
    ∃ r, convert inst.encode = .ok r ∧ r.size = .word ∧
      ∀ s : Interpreter M, s.registers.value 0 = 0 →
        decodeExecute r.data s = .ok .running
          (s.advance inst.rd (inst.result s.x s.programCounter) (s.programCounter + 4)) := by
  cases inst with
  | alu op rd rs1 rs2 =>
    obtain ⟨func, hfunc, hcompute⟩ := aluOp_computes op
    obtain ⟨hconvert, hsize, hexecute⟩ := (op_converts rd rs1 rs2 _ _ hfunc).executes M rfl
    refine ⟨_, hconvert, hsize, ?_⟩
    intro s h0
    rw [hexecute]
    simp only [Decoded.action, OpAmo.effect, value_eq h0, hcompute, perform_value, retire_eq]
    rfl
  | aluImm op rd rs1 imm =>
    obtain ⟨func, hfunc, hcompute⟩ := aluImmOp_computes op
    obtain ⟨hconvert, hsize, hexecute⟩ := (opImm_converts rd rs1 _ imm hfunc).executes M rfl
    refine ⟨_, hconvert, hsize, ?_⟩
    intro s h0
    rw [hexecute]
    exact opImm_performs h0 (hcompute _ _)
  | shift op rd rs1 shamt =>
    obtain ⟨func, hfunc, hcompute⟩ := shiftOp_computes op
    obtain ⟨hconvert, hsize, hexecute⟩ := (opImm_converts rd rs1 _ _ hfunc).executes M rfl
    refine ⟨_, hconvert, hsize, ?_⟩
    intro s h0
    rw [hexecute]
    exact opImm_performs h0 (hcompute _ _)
  | lui rd imm =>
    obtain ⟨hconvert, hsize, hexecute⟩ := (lui_converts rd imm).executes M rfl
    refine ⟨_, hconvert, hsize, ?_⟩
    intro s h0
    rw [hexecute]
    simp only [Decoded.action, perform_write, retire_eq]
    rfl
  | auipc rd imm =>
    obtain ⟨hconvert, hsize, hexecute⟩ := (auipc_converts rd imm).executes M rfl
    refine ⟨_, hconvert, hsize, ?_⟩
    intro s h0
    rw [hexecute]
    simp only [Decoded.action, perform_write, retire_eq]
    rfl

/-- Every control transfer instruction is accepted, and its conversion writes the return
address to the destination and goes to the target. -/
theorem control_conforms [ElfCrate] (inst : Rv32.Control) :
    ∃ r, convert inst.encode = .ok r ∧ r.size = .word ∧
      ∀ s : Interpreter M, s.registers.value 0 = 0 → inst.TargetsEven s.x →
        decodeExecute r.data s = .ok .running
          (s.advance inst.rd (s.programCounter + 4) (inst.target s.x s.programCounter)) := by
  cases inst with
  | branch op rs1 rs2 offset =>
    obtain ⟨func, hfunc, htaken⟩ := branchOp_taken op
    obtain ⟨hconvert, hsize, hexecute⟩ := (branch_converts rs1 rs2 _ offset hfunc).executes M rfl
    refine ⟨_, hconvert, hsize, ?_⟩
    intro s h0 _
    rw [hexecute]
    simp only [Decoded.action, Branch.action, value_eq h0, htaken, perform_goto]
    rfl
  | jal rd offset =>
    obtain ⟨hconvert, hsize, hexecute⟩ := (jal_converts rd offset).executes M rfl
    refine ⟨_, hconvert, hsize, ?_⟩
    intro s h0 _
    rw [hexecute]
    simp only [Decoded.action, perform_write, retire_eq]
    rfl
  | jalr rd rs1 imm =>
    obtain ⟨hconvert, hsize, hexecute⟩ := (jalr_converts rd rs1 imm).executes M rfl
    refine ⟨_, hconvert, hsize, ?_⟩
    intro s h0 heven
    have hclear : (s.x rs1 + imm.signExtend 32) &&& ~~~1 = s.x rs1 + imm.signExtend 32 :=
      IsEven.clear_eq heven
    rw [hexecute, Control.target, hclear]
    simp only [Decoded.action, perform_write, value_eq h0, retire_eq]
    rfl

end Instructions

/-- The word of `addi x1, x0, 5`. -/
theorem integer_conforms_addi : letI := Target.release64
    letI := ElfCrate.parsesNothing
    ∃ r, convert 0x00500093 = .ok r ∧
      decodeExecute r.data (.new ⟨[], []⟩ 0 : Interpreter SliceMemory) =
        .ok .running (Interpreter.advance 1 5 4 (.new ⟨[], []⟩ 0)) := by
  let _ := Target.release64
  let _ := ElfCrate.parsesNothing
  obtain ⟨r, hconvert, -, hexecute⟩ :=
    integer_conforms (M := SliceMemory) (.aluImm .addi 1 0 5)
  exact ⟨r, hconvert, hexecute _ rfl⟩

/-- The word of `jalr x1, 8(x0)`. -/
theorem control_conforms_jalr : letI := Target.release64
    letI := ElfCrate.parsesNothing
    ∃ r, convert 0x008000E7 = .ok r ∧
      decodeExecute r.data (.new ⟨[], []⟩ 0 : Interpreter SliceMemory) =
        .ok .running (Interpreter.advance 1 4 8 (.new ⟨[], []⟩ 0)) := by
  let _ := Target.release64
  let _ := ElfCrate.parsesNothing
  obtain ⟨r, hconvert, -, hexecute⟩ := control_conforms (M := SliceMemory) (.jalr 1 0 8)
  exact ⟨r, hconvert, hexecute _ rfl rfl⟩

end Transpiler

end Embive
