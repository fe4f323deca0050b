import Embive.Rv32.Expansion
import Embive.Transpiler.FullSize

/-! # A compressed instruction runs as its expansion

The conversion of a compressed word and that of its full-size expansion perform the
same step when both are executed as instructions of two bytes.
-/

namespace Embive.Transpiler

open Lib Rv32 Riscv

section Offsets

theorem signExtend_imm6 : ∀ x : BitVec 6, (x.signExtend 12).signExtend 32 = x.signExtend 32 :=
  OrLinear.eq_of_oneBit (by fun_prop) (by fun_prop) (by decide)

theorem signExtend_jumpOffset : ∀ x : BitVec 11,
    ((x.signExtend 20) ++ 0#1).signExtend 32 = (x ++ 0#1).signExtend 32 :=
  OrLinear.eq_of_oneBit (by fun_prop) (by fun_prop) (by decide)

theorem signExtend_branchOffset : ∀ x : BitVec 8,
    ((x.signExtend 12) ++ 0#1).signExtend 32 = (x ++ 0#1).signExtend 32 :=
  OrLinear.eq_of_oneBit (by fun_prop) (by fun_prop) (by decide)

variable (rd rs1 rs2 : BitVec 5) (funct3 : BitVec 3)

theorem opImm6_converts (imm : BitVec 6) {func : U8}
    (h : OpImm.embiveFunc (funct3.setWidth 8) = some func) :
    ConvertsTo (iType (imm.signExtend 12) rs1 funct3 rd 0b0010011)
      (.opImm ⟨rd.setWidth 8, rs1.setWidth 8, imm.signExtend 32, func⟩) := by
  rw [← signExtend_imm6]
  exact opImm_converts rd rs1 funct3 _ h

theorem branch8_converts (offset : BitVec 8) {func : U8}
    (h : Branch.embiveFunc (funct3.setWidth 8) = some func) :
    ConvertsTo (bType (offset.signExtend 12) rs2 rs1 funct3 0b1100011)
      (.branch ⟨rs1.setWidth 8, rs2.setWidth 8, (offset ++ 0#1).signExtend 32, func⟩) := by
  rw [← signExtend_branchOffset]
  exact branch_converts rs1 rs2 funct3 _ h

theorem jal11_converts (offset : BitVec 11) : ConvertsTo (jal rd (offset.signExtend 20))
    (.jal ⟨rd.setWidth 8, (offset ++ 0#1).signExtend 32⟩) := by
  rw [← signExtend_jumpOffset]
  exact jal_converts rd _

end Offsets

section Compressed

variable {c : U16}

theorem isCompressed_of_bits (opcode : BitVec 2) (funct3 : BitVec 3)
    (hq : (c.extractLsb' 0 2).toNat = opcode.toNat)
    (hf : (c.extractLsb' 13 3).toNat = funct3.toNat) :
    IsCompressed (c.setWidth 32) (opcode.setWidth 8) (funct3.setWidth 8) := by
  have hquadrant : ∀ c : U16, quadrant (c.setWidth 32) = (c.extractLsb' 0 2).setWidth 8 := by
    unfold quadrant
    exact OrLinear.eq_of_oneBit (by fun_prop) (by fun_prop) (by decide)
  have hfunct3 : ∀ c : U16, cFunct3 (c.setWidth 32) = (c.extractLsb' 13 3).setWidth 8 := by
    unfold cFunct3
    exact OrLinear.eq_of_oneBit (by fun_prop) (by fun_prop) (by decide)
  constructor
  · rw [hquadrant, BitVec.eq_of_toNat_eq hq]
  · rw [hfunct3, BitVec.eq_of_toNat_eq hf]

theorem cBit12_eq (c : U16) : cBit12 (c.setWidth 32) = (c.extractLsb' 12 1).setWidth 8 := by
  revert c
  unfold cBit12
  exact OrLinear.eq_of_oneBit (by fun_prop) (by fun_prop) (by decide)

theorem cBits11_10_eq (c : U16) :
    cBits11_10 (c.setWidth 32) = (c.extractLsb' 10 2).setWidth 8 := by
  revert c
  unfold cBits11_10
  exact OrLinear.eq_of_oneBit (by fun_prop) (by fun_prop) (by decide)

theorem cBits6_5_eq (c : U16) : cBits6_5 (c.setWidth 32) = (c.extractLsb' 5 2).setWidth 8 := by
  revert c
  unfold cBits6_5
  exact OrLinear.eq_of_oneBit (by fun_prop) (by fun_prop) (by decide)

end Compressed

section Execution

variable {M : Type} [Memory M]

/-- At register zero zero, the first instruction does what the second does when both are
two bytes long. -/
def ExecutesAs (M : Type) [Memory M] (inst inst' : Decoded) : Prop :=
  ∀ s : Interpreter M, s.registers.value 0 = 0 →
    (inst.action 2 s.registers s.programCounter).perform s =
      (inst'.action 2 s.registers s.programCounter).perform s

/-- A value for a destination that is ignored when it is register zero. -/
theorem perform_updateAction_eq_opImm {s : Interpreter M} (data : TypeI) (f : I32 → I32)
    (h : OpImm.compute data.func (s.registers.value data.rs1) data.imm =
      some (f (s.registers.value data.rdRs2))) :
    (updateAction 2 s.registers s.programCounter data.rdRs2 f).perform s =
      (OpImm.action 2 s.registers s.programCounter data).perform s := by
  rw [updateAction, OpImm.action, h]
  by_cases hrd : data.rdRs2 = 0
  · rw [if_pos hrd, hrd]
    rfl
  · rw [if_neg hrd, unlessZero_of_ne hrd]

theorem cAddi4spn_executesAs {rd : U8} {imm : I32} (hrd : rd ≠ 0) (himm : imm ≠ 0) :
    ExecutesAs M (.cAddi4spn ⟨rd, imm⟩) (.opImm ⟨rd, 2, imm, Embive.OpImm.addiFunc⟩) := by
  intro s _
  simp only [Decoded.action, OpImm.action, if_neg hrd, if_neg himm]
  rfl

theorem cLw_executesAs (rd rs1 : U8) (imm : I32) : ExecutesAs M (.cLw ⟨rd, rs1, imm⟩)
    (.loadStore ⟨rd, rs1, imm, LoadStore.lwFunc⟩) := fun _ _ => rfl

theorem cSw_executesAs (rs2 rs1 : U8) (imm : I32) : ExecutesAs M (.cSw ⟨rs2, rs1, imm⟩)
    (.loadStore ⟨rs2, rs1, imm, LoadStore.swFunc⟩) := fun _ _ => rfl

theorem cAddi_executesAs (rd : U8) (imm : I32) : ExecutesAs M (.cAddi ⟨rd, imm⟩)
    (.opImm ⟨rd, rd, imm, Embive.OpImm.addiFunc⟩) :=
  fun _ _ => perform_updateAction_eq_opImm ⟨rd, rd, imm, Embive.OpImm.addiFunc⟩ _ rfl

theorem cJal_executesAs (imm : I32) : ExecutesAs M (.cJal ⟨imm⟩) (.jal ⟨1, imm⟩) :=
  fun _ _ => rfl

theorem cLi_executesAs (rd : U8) (imm : I32) : ExecutesAs M (.cLi ⟨rd, imm⟩)
    (.opImm ⟨rd, 0, imm, Embive.OpImm.addiFunc⟩) := by
  intro s hs
  have hcompute : OpImm.compute Embive.OpImm.addiFunc (s.registers.value 0) imm = some imm := by
    rw [hs]
    exact congrArg some (BitVec.zero_add imm)
  exact perform_updateAction_eq_opImm ⟨rd, 0, imm, Embive.OpImm.addiFunc⟩ (fun _ => imm) hcompute

theorem cAddi16sp_executesAs (rd : U8) (imm : I32) : ExecutesAs M (.cAddi16sp ⟨rd, imm⟩)
    (.opImm ⟨2, 2, imm, Embive.OpImm.addiFunc⟩) := fun _ _ => rfl

theorem cLui_executesAs (rd : U8) (imm : I32) : ExecutesAs M (.cLui ⟨rd, imm⟩)
    (.lui ⟨rd, imm⟩) := fun _ _ => rfl

theorem cSrli_executesAs (rd : U8) (shamt : BitVec 5) :
    ExecutesAs M (.cSrli ⟨rd, (0#1 ++ shamt).setWidth 32⟩)
      (.opImm ⟨rd, rd, (0b0000000#7 ++ shamt).signExtend 32, Embive.OpImm.srliSraiFunc⟩) := by
  intro s _
  have hcompute : OpImm.compute Embive.OpImm.srliSraiFunc (s.registers.value rd)
      ((0b0000000#7 ++ shamt).signExtend 32) =
        some (wrappingShr (s.registers.value rd) ((0#1 ++ shamt).setWidth 32)) := by
    obtain ⟨hshamt, -, hbit, -⟩ := shamt_eq shamt
    rw [srliSrai_compute, if_neg (not_not.mpr hbit), hshamt]
  exact perform_updateAction_eq_opImm
    ⟨rd, rd, (0b0000000#7 ++ shamt).signExtend 32, Embive.OpImm.srliSraiFunc⟩
    (fun rs1 => wrappingShr rs1 ((0#1 ++ shamt).setWidth 32)) hcompute

theorem cSrai_executesAs (rd : U8) (shamt : BitVec 5) :
    ExecutesAs M (.cSrai ⟨rd, (0#1 ++ shamt).setWidth 32⟩)
      (.opImm ⟨rd, rd, (0b0100000#7 ++ shamt).signExtend 32, Embive.OpImm.srliSraiFunc⟩) := by
  intro s _
  have hcompute : OpImm.compute Embive.OpImm.srliSraiFunc (s.registers.value rd)
      ((0b0100000#7 ++ shamt).signExtend 32) =
        some (wrappingSar (s.registers.value rd) ((0#1 ++ shamt).setWidth 32)) := by
    obtain ⟨-, hshamt, -, hbit⟩ := shamt_eq shamt
    rw [srliSrai_compute, if_pos hbit, hshamt]
  exact perform_updateAction_eq_opImm
    ⟨rd, rd, (0b0100000#7 ++ shamt).signExtend 32, Embive.OpImm.srliSraiFunc⟩
    (fun rs1 => wrappingSar rs1 ((0#1 ++ shamt).setWidth 32)) hcompute

theorem cSlli_executesAs (rd : U8) (shamt : BitVec 5) :
    ExecutesAs M (.cSlli ⟨rd, (0#1 ++ shamt).setWidth 32⟩)
      (.opImm ⟨rd, rd, (0b0000000#7 ++ shamt).signExtend 32, Embive.OpImm.slliFunc⟩) := by
  intro s _
  have hcompute (imm : I32) : OpImm.compute Embive.OpImm.slliFunc (s.registers.value rd) imm =
      some (wrappingShl (s.registers.value rd) (imm &&& 0b11111)) := rfl
  refine perform_updateAction_eq_opImm
    ⟨rd, rd, (0b0000000#7 ++ shamt).signExtend 32, Embive.OpImm.slliFunc⟩
    (fun rs1 => wrappingShl rs1 ((0#1 ++ shamt).setWidth 32)) ?_
  rw [hcompute, (shamt_eq shamt).1]

theorem cAndi_executesAs (rd : U8) (imm : I32) : ExecutesAs M (.cAndi ⟨rd, imm⟩)
    (.opImm ⟨rd, rd, imm, Embive.OpImm.andiFunc⟩) :=
  fun _ _ => perform_updateAction_eq_opImm ⟨rd, rd, imm, Embive.OpImm.andiFunc⟩ _ rfl

theorem cSub_executesAs (rd rs2 : U8) : ExecutesAs M (.cSub ⟨rd, rs2⟩)
    (.opAmo ⟨rd, rd, rs2, OpAmo.subFunc⟩) := fun _ _ => rfl

theorem cXor_executesAs (rd rs2 : U8) : ExecutesAs M (.cXor ⟨rd, rs2⟩)
    (.opAmo ⟨rd, rd, rs2, OpAmo.xorFunc⟩) := fun _ _ => rfl

theorem cOr_executesAs (rd rs2 : U8) : ExecutesAs M (.cOr ⟨rd, rs2⟩)
    (.opAmo ⟨rd, rd, rs2, OpAmo.orFunc⟩) := fun _ _ => rfl

theorem cAnd_executesAs (rd rs2 : U8) : ExecutesAs M (.cAnd ⟨rd, rs2⟩)
    (.opAmo ⟨rd, rd, rs2, OpAmo.andFunc⟩) := fun _ _ => rfl

theorem cJ_executesAs (imm : I32) : ExecutesAs M (.cJ ⟨imm⟩) (.jal ⟨0, imm⟩) := fun _ _ => rfl

theorem cBeqz_executesAs (rs1 : U8) (imm : I32) : ExecutesAs M (.cBeqz ⟨rs1, imm⟩)
    (.branch ⟨rs1, 0, imm, Embive.Branch.beqFunc⟩) := by
  intro s hs
  have htaken : Branch.taken Embive.Branch.beqFunc (s.registers.value rs1) 0 =
      some (s.registers.value rs1 == 0) := rfl
  simp only [Decoded.action, Branch.action, hs, htaken]

theorem cBnez_executesAs (rs1 : U8) (imm : I32) : ExecutesAs M (.cBnez ⟨rs1, imm⟩)
    (.branch ⟨rs1, 0, imm, Embive.Branch.bneFunc⟩) := by
  intro s hs
  have htaken : Branch.taken Embive.Branch.bneFunc (s.registers.value rs1) 0 =
      some (s.registers.value rs1 != 0) := rfl
  simp only [Decoded.action, Branch.action, hs, htaken]

theorem cLwsp_executesAs (rd : U8) (imm : I32) : ExecutesAs M (.cLwsp ⟨rd, imm⟩)
    (.loadStore ⟨rd, 2, imm, LoadStore.lwFunc⟩) := fun _ _ => rfl

theorem cSwsp_executesAs (rs2 : U8) (imm : I32) : ExecutesAs M (.cSwsp ⟨rs2, imm⟩)
    (.loadStore ⟨rs2, 2, imm, LoadStore.swFunc⟩) := fun _ _ => rfl

theorem cJr_executesAs (rs1 : U8) : ExecutesAs M (.cJrMv ⟨rs1, 0⟩) (.jalr ⟨0, rs1, 0, 0⟩) := by
  intro s _
  simp only [Decoded.action, CJrMv.action, if_pos, add_zero, perform_goto, perform_write]
  rfl

theorem cMv_executesAs {rd rs2 : U8} (hrd : rd ≠ 0) (hrs2 : rs2 ≠ 0) :
    ExecutesAs M (.cJrMv ⟨rd, rs2⟩) (.opAmo ⟨rd, 0, rs2, OpAmo.addFunc⟩) := by
  intro s hs
  have hcompute : OpAmo.compute OpAmo.addFunc 0 (s.registers.value rs2) =
      some (s.registers.value rs2) := congrArg some (BitVec.zero_add _)
  simp only [Decoded.action, CJrMv.action, if_neg hrs2, OpAmo.effect, hs, hcompute,
    unlessZero_of_ne hrd]
  rfl

theorem cEbreak_executesAs : ExecutesAs M (.cEbreakJalrAdd ⟨0, 0⟩)
    (.systemMiscMem ⟨0, 0, SystemMiscMem.ebreakImm, SystemMiscMem.miscFunc⟩) := fun _ _ => rfl

theorem cJalr_executesAs {rs1 : U8} (hrs1 : rs1 ≠ 0) : ExecutesAs M (.cEbreakJalrAdd ⟨rs1, 0⟩)
    (.jalr ⟨1, rs1, 0, 0⟩) := by
  intro s _
  simp only [Decoded.action, CEbreakJalrAdd.action, if_neg hrs1, if_pos, add_zero]
  rfl

theorem cAdd_executesAs {rd rs2 : U8} (hrd : rd ≠ 0) (hrs2 : rs2 ≠ 0) :
    ExecutesAs M (.cEbreakJalrAdd ⟨rd, rs2⟩) (.opAmo ⟨rd, rd, rs2, OpAmo.addFunc⟩) := by
  intro s _
  have hcompute : OpAmo.compute OpAmo.addFunc (s.registers.value rd) (s.registers.value rs2) =
      some (s.registers.value rd + s.registers.value rs2) := rfl
  simp only [Decoded.action, CEbreakJalrAdd.action, if_neg hrs2, OpAmo.effect, hcompute,
    unlessZero_of_ne hrd]
  rfl

end Execution

section Fields

theorem signExtend_ne_zero {x : BitVec 12} (h : x ≠ 0) : x.signExtend 32 ≠ 0 := by
  have hlow : ∀ x : BitVec 12, (x.signExtend 32).setWidth 12 = x :=
    OrLinear.eq_of_oneBit (by fun_prop) (by fun_prop) (by decide)
  intro h0
  apply h
  rw [← hlow x, h0]
  rfl

theorem register_ne {x y : BitVec 5} (h : x ≠ y) : x.setWidth 8 ≠ y.setWidth 8 := by
  intro heq
  apply h
  have hlow := congrArg (BitVec.setWidth 5) heq
  simpa using hlow

theorem bit_ne {x : BitVec 1} (h : x ≠ 0) : x.setWidth 8 ≠ 0#8 := by
  revert x
  decide

theorem prime_ne_zero (x : BitVec 3) : (0b01#2 ++ x).setWidth 8 ≠ 0#8 := by
  revert x
  decide

theorem imm6_of_shamt {c : U16} (h : c.extractLsb' 12 1 = 0) : imm6 c = 0#1 ++ shamt c := by
  rw [imm6, h]
  rfl

end Fields

section Expansion

variable {M : Type} [Memory M] {c : U16} {w : U32}

/-- Both words are accepted, and the first runs as the second. -/
def Represents (M : Type) [Memory M] (c : U16) (w : U32) : Prop :=
  ∃ inst inst', ConvertsTo (c.setWidth 32) inst ∧ inst.size = .half ∧
    ConvertsTo w inst' ∧ inst'.size = .word ∧ ExecutesAs M inst inst'

theorem ExecutesAs.represents {inst inst' : Decoded} (h : ExecutesAs M inst inst')
    (hhalf : inst.size = .half) (hword : inst'.size = .word) (hc : ConvertsTo (c.setWidth 32) inst)
    (hw : ConvertsTo w inst') : Represents M c w :=
  ⟨inst, inst', hc, hhalf, hw, hword, h⟩

theorem represents_of_expandC0 (hq : (c.extractLsb' 0 2).toNat = 0) (h : expandC0 c = some w) :
    Represents M c w := by
  unfold expandC0 at h
  split at h
  next hf =>
    split_ifs at h with himm
    cases h
    exact (cAddi4spn_executesAs (prime_ne_zero _) (signExtend_ne_zero himm)).represents rfl rfl
      ⟨isCompressed_of_bits 0b00 0b000 hq hf, (fromRiscv_typeCIW c).symm⟩
      (opImm_converts _ 2 0b000 _ rfl)
  next hf =>
    cases h
    exact (cLw_executesAs _ _ _).represents rfl rfl
      ⟨isCompressed_of_bits 0b00 0b010 hq hf, (fromRiscv_typeCL c).symm⟩
      (load_converts _ _ 0b010 _ rfl)
  next hf =>
    cases h
    exact (cSw_executesAs _ _ _).represents rfl rfl
      ⟨isCompressed_of_bits 0b00 0b110 hq hf, (fromRiscv_typeCL c).symm⟩
      (store_converts _ _ 0b010 _ rfl)
  next => cases h

theorem isRegisterPair_of_bits (bits : BitVec 2) (hq : (c.extractLsb' 0 2).toNat = 1)
    (hf : (c.extractLsb' 13 3).toNat = 4) (h11_10 : (c.extractLsb' 10 2).toNat = 3)
    (h12 : c.extractLsb' 12 1 = 0) (h6_5 : (c.extractLsb' 5 2).toNat = bits.toNat) :
    IsRegisterPair (c.setWidth 32) (bits.setWidth 8) := by
  refine ⟨isCompressed_of_bits 0b01 0b100 hq hf, ?_, ?_, ?_⟩
  · rw [cBits11_10_eq, BitVec.eq_of_toNat_eq (y := 0b11#2) h11_10]
    rfl
  · rw [cBit12_eq, h12]
    rfl
  · rw [cBits6_5_eq, BitVec.eq_of_toNat_eq h6_5]

theorem represents_of_expandRegisterPair (hq : (c.extractLsb' 0 2).toNat = 1)
    (hf : (c.extractLsb' 13 3).toNat = 4) (h11_10 : (c.extractLsb' 10 2).toNat = 3)
    (h : expandRegisterPair c = some w) : Represents M c w := by
  unfold expandRegisterPair at h
  split_ifs at h with h12
  split at h
  next hbits =>
    cases h
    exact (cSub_executesAs _ _).represents rfl rfl
      ⟨isRegisterPair_of_bits 0b00 hq hf h11_10 h12 hbits, (fromRiscv_typeCS c).symm⟩
      (op_converts _ _ _ 0b000 0b0100000 rfl)
  next hbits =>
    cases h
    exact (cXor_executesAs _ _).represents rfl rfl
      ⟨isRegisterPair_of_bits 0b01 hq hf h11_10 h12 hbits, (fromRiscv_typeCS c).symm⟩
      (op_converts _ _ _ 0b100 0b0000000 rfl)
  next hbits =>
    cases h
    exact (cOr_executesAs _ _).represents rfl rfl
      ⟨isRegisterPair_of_bits 0b10 hq hf h11_10 h12 hbits, (fromRiscv_typeCS c).symm⟩
      (op_converts _ _ _ 0b110 0b0000000 rfl)
  next hbits =>
    cases h
    exact (cAnd_executesAs _ _).represents rfl rfl
      ⟨isRegisterPair_of_bits 0b11 hq hf h11_10 h12 hbits, (fromRiscv_typeCS c).symm⟩
      (op_converts _ _ _ 0b111 0b0000000 rfl)
  next => cases h

theorem cBits11_10_of_toNat (bits : BitVec 2) (h : (c.extractLsb' 10 2).toNat = bits.toNat) :
    cBits11_10 (c.setWidth 32) = bits.setWidth 8 := by
  rw [cBits11_10_eq, BitVec.eq_of_toNat_eq h]

theorem represents_of_expandC1 (hq : (c.extractLsb' 0 2).toNat = 1) (h : expandC1 c = some w) :
    Represents M c w := by
  unfold expandC1 at h
  split at h
  next hf =>
    cases h
    exact (cAddi_executesAs _ _).represents rfl rfl
      ⟨isCompressed_of_bits 0b01 0b000 hq hf, (fromRiscv_typeCI1 c).symm⟩
      (opImm6_converts _ _ 0b000 _ rfl)
  next hf =>
    cases h
    exact (cJal_executesAs _).represents rfl rfl
      ⟨isCompressed_of_bits 0b01 0b001 hq hf, (fromRiscv_typeCJ c).symm⟩ (jal11_converts 1 _)
  next hf =>
    cases h
    exact (cLi_executesAs _ _).represents rfl rfl
      ⟨isCompressed_of_bits 0b01 0b010 hq hf, (fromRiscv_typeCI1 c).symm⟩
      (opImm6_converts _ 0 0b000 _ rfl)
  next hf =>
    split_ifs at h with hrd himm himm <;> cases h
    · have hsp : (Format.fromRiscv (c.setWidth 32) : TypeCI3).rdRs1 = 2 := by
        rw [fromRiscv_typeCI3, hrd]
        rfl
      exact (cAddi16sp_executesAs _ _).represents rfl rfl
        ⟨isCompressed_of_bits 0b01 0b011 hq hf, hsp, (fromRiscv_typeCI2 c).symm⟩
        (opImm_converts 2 2 0b000 _ rfl)
    · have hsp : (Format.fromRiscv (c.setWidth 32) : TypeCI3).rdRs1 ≠ 2 := by
        rw [fromRiscv_typeCI3]
        exact register_ne hrd
      exact (cLui_executesAs _ _).represents rfl rfl
        ⟨isCompressed_of_bits 0b01 0b011 hq hf, hsp, (fromRiscv_typeCI3 c).symm⟩
        (lui_converts _ _)
  next hf =>
    split at h
    next hbits =>
      split_ifs at h with h12
      cases h
      exact (cSrli_executesAs _ (shamt c)).represents rfl rfl
        ⟨isCompressed_of_bits 0b01 0b100 hq hf, cBits11_10_of_toNat 0b00 hbits,
          imm6_of_shamt h12 ▸ (fromRiscv_typeCB1 c).symm⟩
        (opImm_converts _ _ 0b101 _ rfl)
    next hbits =>
      split_ifs at h with h12
      cases h
      exact (cSrai_executesAs _ (shamt c)).represents rfl rfl
        ⟨isCompressed_of_bits 0b01 0b100 hq hf, cBits11_10_of_toNat 0b01 hbits,
          imm6_of_shamt h12 ▸ (fromRiscv_typeCB1 c).symm⟩
        (opImm_converts _ _ 0b101 _ rfl)
    next hbits =>
      cases h
      exact (cAndi_executesAs _ _).represents rfl rfl
        ⟨isCompressed_of_bits 0b01 0b100 hq hf, cBits11_10_of_toNat 0b10 hbits,
          (fromRiscv_typeCB2 c).symm⟩
        (opImm6_converts _ _ 0b111 _ rfl)
    next hbits => exact represents_of_expandRegisterPair hq hf hbits h
    next => cases h
  next hf =>
    cases h
    exact (cJ_executesAs _).represents rfl rfl
      ⟨isCompressed_of_bits 0b01 0b101 hq hf, (fromRiscv_typeCJ c).symm⟩ (jal11_converts 0 _)
  next hf =>
    cases h
    exact (cBeqz_executesAs _ _).represents rfl rfl
      ⟨isCompressed_of_bits 0b01 0b110 hq hf, (fromRiscv_typeCB4 c).symm⟩
      (branch8_converts _ 0 0b000 _ rfl)
  next hf =>
    cases h
    exact (cBnez_executesAs _ _).represents rfl rfl
      ⟨isCompressed_of_bits 0b01 0b111 hq hf, (fromRiscv_typeCB4 c).symm⟩
      (branch8_converts _ 0 0b001 _ rfl)
  next => cases h

/-- A move, an addition or a load from the stack whose destination is register zero. -/
def WritesZero (c : U16) : Prop :=
  c.extractLsb' 0 2 = 2 ∧ rdFull c = 0 ∧
    (c.extractLsb' 13 3 = 2 ∨ c.extractLsb' 13 3 = 4 ∧ rs2Full c ≠ 0)

instance (c : U16) : Decidable (WritesZero c) := inferInstanceAs (Decidable (_ ∧ _ ∧ _))

theorem represents_of_expandRegister (hq : (c.extractLsb' 0 2).toNat = 2)
    (hf : (c.extractLsb' 13 3).toNat = 4) (hrd : ¬WritesZero c)
    (h : expandRegister c = some w) : Represents M c w := by
  have hrd' (hrs2 : rs2Full c ≠ 0) : rdFull c ≠ 0 := by
    intro h0
    exact hrd ⟨BitVec.eq_of_toNat_eq hq, h0, .inr ⟨BitVec.eq_of_toNat_eq hf, hrs2⟩⟩
  have hc := isCompressed_of_bits 0b10 0b100 hq hf
  have hbit (h12 : c.extractLsb' 12 1 = 0) : cBit12 (c.setWidth 32) = C2.cJrMvBit12 := by
    rw [cBit12_eq, h12]
    rfl
  have hbit' (h12 : c.extractLsb' 12 1 ≠ 0) : cBit12 (c.setWidth 32) ≠ C2.cJrMvBit12 := by
    rw [cBit12_eq]
    exact bit_ne h12
  have hdata := fromRiscv_typeCR c
  unfold expandRegister at h
  split_ifs at h with h12 hrs2 hrd0 hrs2 hrd0 <;> cases h
  · rw [hrs2] at hdata
    exact (cJr_executesAs _).represents rfl rfl ⟨hc, hbit h12, hdata.symm⟩ (jalr_converts 0 _ 0)
  · exact (cMv_executesAs (register_ne (hrd' hrs2)) (register_ne hrs2)).represents rfl rfl
      ⟨hc, hbit h12, hdata.symm⟩ (op_converts _ 0 _ 0b000 0b0000000 rfl)
  · rw [hrs2, hrd0] at hdata
    exact cEbreak_executesAs.represents rfl rfl ⟨hc, hbit' h12, hdata.symm⟩ ebreak_converts
  · rw [hrs2] at hdata
    exact (cJalr_executesAs (register_ne hrd0)).represents rfl rfl ⟨hc, hbit' h12, hdata.symm⟩
      (jalr_converts 1 _ 0)
  · exact (cAdd_executesAs (register_ne (hrd' hrs2)) (register_ne hrs2)).represents rfl rfl
      ⟨hc, hbit' h12, hdata.symm⟩ (op_converts _ _ _ 0b000 0b0000000 rfl)

theorem represents_of_expandC2 (hq : (c.extractLsb' 0 2).toNat = 2) (hrd : ¬WritesZero c)
    (h : expandC2 c = some w) : Represents M c w := by
  unfold expandC2 at h
  split at h
  next hf =>
    split_ifs at h with h12
    cases h
    exact (cSlli_executesAs _ (shamt c)).represents rfl rfl
      ⟨isCompressed_of_bits 0b10 0b000 hq hf, imm6_of_shamt h12 ▸ (fromRiscv_typeCI4 c).symm⟩
      (opImm_converts _ _ 0b001 _ rfl)
  next hf =>
    cases h
    exact (cLwsp_executesAs _ _).represents rfl rfl
      ⟨isCompressed_of_bits 0b10 0b010 hq hf, (fromRiscv_typeCI5 c).symm⟩
      (load_converts _ 2 0b010 _ rfl)
  next hf => exact represents_of_expandRegister hq hf hrd h
  next hf =>
    cases h
    exact (cSwsp_executesAs _ _).represents rfl rfl
      ⟨isCompressed_of_bits 0b10 0b110 hq hf, (fromRiscv_typeCSS c).symm⟩
      (store_converts 2 _ 0b010 _ rfl)
  next => cases h

theorem represents_of_expand (h : expand c = some w) (hrd : ¬WritesZero c) :
    Represents M c w := by
  unfold expand at h
  split at h
  next hq => exact represents_of_expandC0 hq h
  next hq => exact represents_of_expandC1 hq h
  next hq => exact represents_of_expandC2 hq hrd h
  next => cases h

/-- A compressed word and its expansion are both accepted, and executing their
conversions gives the same result and the same state, the expansion taken as two bytes
long. -/
theorem compressed_executes_as_expansion [ElfCrate] (h : expand c = some w)
    (hrd : ¬WritesZero c) :
    ∃ rc rw, convert (c.setWidth 32) = .ok rc ∧ rc.size = .half ∧
      convert w = .ok rw ∧ rw.size = .word ∧
      ∀ s : Interpreter M, s.registers.value 0 = 0 →
        decodeExecute rc.data s = decodeExecuteSized 2 rw.data s := by
  obtain ⟨inst, inst', hc, hhalf, hw, hword, hexecutes⟩ :=
    represents_of_expand (M := M) h hrd
  refine ⟨embiveRaw inst, embiveRaw inst', convert_of_convertsTo hc, hhalf,
    convert_of_convertsTo hw, hword, ?_⟩
  intro s hs
  have hdec := decodeInstruction_embiveRaw hc.fits
  have hdec' := decodeInstruction_embiveRaw hw.fits
  rw [decodeExecute_eq_sized hdec, decodeExecuteSized_eq_perform _ s hdec,
    decodeExecuteSized_eq_perform _ s hdec', hhalf]
  exact hexecutes s hs

end Expansion

/-- The move of register one to register two and its expansion. -/
theorem compressed_executes_as_expansion_cMv :
    letI := Target.release64
    letI := ElfCrate.parsesNothing
    expand 0x8106 = some 0x00100133 ∧
      ∃ rc rw, convert 0x00008106 = .ok rc ∧ rc.size = .half ∧
        convert 0x00100133 = .ok rw ∧ rw.size = .word ∧
        ∀ s : Interpreter SliceMemory, s.registers.value 0 = 0 →
          decodeExecute rc.data s = decodeExecuteSized 2 rw.data s := by
  let _ := Target.release64
  let _ := ElfCrate.parsesNothing
  have hexpand : expand 0x8106 = some 0x00100133 := by decide
  exact ⟨hexpand, compressed_executes_as_expansion hexpand (by decide)⟩

end Embive.Transpiler
