import Embive.Refinement
import Embive.Rv32.Assembly
import Embive.Transpiler.RoundTrip

/-! # The conversion of full-size instructions

A word assembled from its fields converts to the Embive instruction with the same fields,
and a converted word performs the action of its instruction.
-/

namespace Embive.Transpiler

open Lib Rv32 Riscv

variable (rd rs1 rs2 : BitVec 5) (funct3 : BitVec 3)

theorem isFullSize_of_opcode {w : U32} {opcode : BitVec 7} (h : w.extractLsb' 0 7 = opcode)
    (hq : opcode.extractLsb' 0 2 = 0b11) : IsFullSize w (opcode.setWidth 8) := by
  have hquadrant : ∀ w : U32, quadrant w = ((w.extractLsb' 0 7).extractLsb' 0 2).setWidth 8 := by
    unfold quadrant
    exact OrLinear.eq_of_oneBit (by fun_prop) (by fun_prop) (by decide)
  have hopcode : ∀ w : U32, majorOpcode w = (w.extractLsb' 0 7).setWidth 8 := by
    unfold majorOpcode
    exact OrLinear.eq_of_oneBit (by fun_prop) (by fun_prop) (by decide)
  constructor
  · rw [hquadrant, h, hq]
    rfl
  · rw [hopcode, h]

section Opcodes

variable {opcode : BitVec 7} (hq : opcode.extractLsb' 0 2 = 0b11)

include hq

theorem isFullSize_rType (funct7 : BitVec 7) :
    IsFullSize (rType funct7 rs2 rs1 funct3 rd opcode) (opcode.setWidth 8) := by
  apply isFullSize_of_opcode _ hq
  rw [rType]
  simp (disch := omega) only [BitVec.extractLsb'_append_eq_of_add_le, BitVec.extractLsb'_eq_self]

theorem isFullSize_iType (imm : BitVec 12) :
    IsFullSize (iType imm rs1 funct3 rd opcode) (opcode.setWidth 8) := by
  apply isFullSize_of_opcode _ hq
  rw [iType]
  simp (disch := omega) only [BitVec.extractLsb'_append_eq_of_add_le, BitVec.extractLsb'_eq_self]

theorem isFullSize_sType (imm : BitVec 12) :
    IsFullSize (sType imm rs2 rs1 funct3 opcode) (opcode.setWidth 8) := by
  apply isFullSize_of_opcode _ hq
  rw [sType]
  simp (disch := omega) only [BitVec.extractLsb'_append_eq_of_add_le, BitVec.extractLsb'_eq_self]

theorem isFullSize_bType (offset : BitVec 12) :
    IsFullSize (bType offset rs2 rs1 funct3 opcode) (opcode.setWidth 8) := by
  apply isFullSize_of_opcode _ hq
  rw [bType]
  simp (disch := omega) only [BitVec.extractLsb'_append_eq_of_add_le, BitVec.extractLsb'_eq_self]

theorem isFullSize_uType (imm : BitVec 20) :
    IsFullSize (uType imm rd opcode) (opcode.setWidth 8) := by
  apply isFullSize_of_opcode _ hq
  rw [uType]
  simp (disch := omega) only [BitVec.extractLsb'_append_eq_of_add_le, BitVec.extractLsb'_eq_self]

theorem isFullSize_jType (offset : BitVec 20) :
    IsFullSize (jType offset rd opcode) (opcode.setWidth 8) := by
  apply isFullSize_of_opcode _ hq
  rw [jType]
  simp (disch := omega) only [BitVec.extractLsb'_append_eq_of_add_le, BitVec.extractLsb'_eq_self]

end Opcodes

theorem load_converts (imm : BitVec 12) {func : U8}
    (h : Load.embiveFunc (funct3.setWidth 8) = some func) :
    ConvertsTo (iType imm rs1 funct3 rd 0b0000011)
      (.loadStore ⟨rd.setWidth 8, rs1.setWidth 8, imm.signExtend 32, func⟩) := by
  refine .inl ⟨isFullSize_iType rd rs1 funct3 (by decide) imm, func, ?_, ?_⟩
  · rw [fromRiscv_iType]
    exact h
  · rw [fromRiscv_iType]

theorem store_converts (imm : BitVec 12) {func : U8}
    (h : Store.embiveFunc (funct3.setWidth 8) = some func) :
    ConvertsTo (sType imm rs2 rs1 funct3 0b0100011)
      (.loadStore ⟨rs2.setWidth 8, rs1.setWidth 8, imm.signExtend 32, func⟩) := by
  refine .inr ⟨isFullSize_sType rs1 rs2 funct3 (by decide) imm, func, ?_, ?_⟩
  · rw [fromRiscv_sType]
    exact h
  · rw [fromRiscv_sType]

theorem opImm_converts (imm : BitVec 12) {func : U8}
    (h : OpImm.embiveFunc (funct3.setWidth 8) = some func) :
    ConvertsTo (iType imm rs1 funct3 rd 0b0010011)
      (.opImm ⟨rd.setWidth 8, rs1.setWidth 8, imm.signExtend 32, func⟩) := by
  refine ⟨isFullSize_iType rd rs1 funct3 (by decide) imm, func, ?_, ?_⟩
  · rw [fromRiscv_iType]
    exact h
  · rw [fromRiscv_iType]

theorem op_converts (funct7 : BitVec 7) {func : U16}
    (h : Op.embiveFunc ((funct7 ++ funct3).setWidth 16) = some func) :
    ConvertsTo (rType funct7 rs2 rs1 funct3 rd 0b0110011)
      (.opAmo ⟨rd.setWidth 8, rs1.setWidth 8, rs2.setWidth 8, func⟩) := by
  refine .inl ⟨isFullSize_rType rd rs1 rs2 funct3 (by decide) funct7, func, ?_, ?_⟩
  · rw [fromRiscv_rType]
    exact h
  · rw [fromRiscv_rType]

/-- The two low bits of `funct7`, acquire and release, are not read. -/
theorem amo_converts (funct7 : BitVec 7) {func : U16}
    (h : Amo.embiveFunc ((funct7.extractLsb' 2 5).setWidth 8) = some func) :
    ConvertsTo (rType funct7 rs2 rs1 0b010 rd 0b0101111)
      (.opAmo ⟨rd.setWidth 8, rs1.setWidth 8, rs2.setWidth 8, func⟩) := by
  have hwidth : ∀ x : BitVec 7, ((x ++ 0b010#3).setWidth 16 &&& 0b111).setWidth 8 =
      Amo.wordWidth := by
    decide
  have hfunct5 : ∀ x : BitVec 7, ((x ++ 0b010#3).setWidth 16 >>> 5).setWidth 8 =
      (x.extractLsb' 2 5).setWidth 8 := by
    decide
  refine .inr ⟨isFullSize_rType rd rs1 rs2 0b010 (by decide) funct7, ?_, func, ?_, ?_⟩
  · rw [fromRiscv_rType]
    exact hwidth funct7
  · rw [fromRiscv_rType]
    exact (congrArg Amo.embiveFunc (hfunct5 funct7)).trans h
  · rw [fromRiscv_rType]

theorem branch_converts (offset : BitVec 12) {func : U8}
    (h : Branch.embiveFunc (funct3.setWidth 8) = some func) :
    ConvertsTo (bType offset rs2 rs1 funct3 0b1100011)
      (.branch ⟨rs1.setWidth 8, rs2.setWidth 8, (offset ++ 0#1).signExtend 32, func⟩) := by
  refine ⟨isFullSize_bType rs1 rs2 funct3 (by decide) offset, func, ?_, ?_⟩
  · rw [fromRiscv_bType]
    exact h
  · rw [fromRiscv_bType]

theorem auipc_converts (imm : BitVec 20) :
    ConvertsTo (uType imm rd 0b0010111) (.auipc ⟨rd.setWidth 8, imm ++ 0#12⟩) :=
  ⟨isFullSize_uType rd (by decide) imm, (fromRiscv_uType rd _ imm).symm⟩

theorem lui_converts (imm : BitVec 20) :
    ConvertsTo (lui rd imm) (.lui ⟨rd.setWidth 8, imm ++ 0#12⟩) :=
  ⟨isFullSize_uType rd (by decide) imm, (fromRiscv_uType rd _ imm).symm⟩

theorem jal_converts (offset : BitVec 20) :
    ConvertsTo (jal rd offset) (.jal ⟨rd.setWidth 8, (offset ++ 0#1).signExtend 32⟩) :=
  ⟨isFullSize_jType rd (by decide) offset, (fromRiscv_jType rd _ offset).symm⟩

theorem jalr_converts (imm : BitVec 12) : ConvertsTo (jalr rd rs1 imm)
    (.jalr ⟨rd.setWidth 8, rs1.setWidth 8, imm.signExtend 32, 0⟩) :=
  ⟨isFullSize_iType rd rs1 0b000 (by decide) imm, (fromRiscv_iType rd rs1 0b000 _ imm).symm⟩

theorem ebreak_converts : ConvertsTo ebreak
    (.systemMiscMem ⟨0, 0, SystemMiscMem.ebreakImm, SystemMiscMem.miscFunc⟩) :=
  .inr (.inl ⟨by decide, rfl, rfl⟩)

section Shifts

theorem srliSrai_compute (rs1 imm : I32) :
    Embive.OpImm.compute Embive.OpImm.srliSraiFunc rs1 imm =
      if (imm &&& (0b1 <<< 10)) ≠ 0 then some (wrappingSar rs1 (imm &&& 0b11111))
      else some (wrappingShr rs1 (imm &&& 0b11111)) := rfl

/-- The shift amount of a full-size shift, whatever its function bits. -/
theorem shamt_eq (shamt : BitVec 5) :
    (0b0000000#7 ++ shamt).signExtend 32 &&& 0b11111 = (0#1 ++ shamt).setWidth 32 ∧
      (0b0100000#7 ++ shamt).signExtend 32 &&& 0b11111 = (0#1 ++ shamt).setWidth 32 ∧
      (0b0000000#7 ++ shamt).signExtend 32 &&& (0b1 <<< 10) = (0 : I32) ∧
      (0b0100000#7 ++ shamt).signExtend 32 &&& (0b1 <<< 10) ≠ (0 : I32) := by
  revert shamt
  decide

end Shifts

section Execution

variable [ElfCrate] (M : Type) [Memory M] {w : U32} {inst : Decoded}

/-- A full-size word is accepted, and its conversion performs the action of the
instruction. -/
theorem ConvertsTo.executes (h : ConvertsTo w inst) (hsize : inst.size = .word) :
    convert w = .ok (embiveRaw inst) ∧ (embiveRaw inst).size = .word ∧
      ∀ s : Interpreter M, decodeExecute (embiveRaw inst).data s =
        (inst.action 4 s.registers s.programCounter).perform s := by
  have hdecodes := decodeInstruction_embiveRaw h.fits
  refine ⟨convert_of_convertsTo h, hsize, ?_⟩
  intro s
  rw [decodeExecute_eq_sized hdecodes, decodeExecuteSized_eq_perform _ _ hdecodes, hsize]
  rfl

end Execution

end Embive.Transpiler
