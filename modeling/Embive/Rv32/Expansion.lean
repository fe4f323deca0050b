import Embive.Rv32.Assembly

/-! # The standard expansion of the compressed instructions

Every compressed instruction of the integer base stands for one full-size instruction.
The tables name the registers and scatter the immediate; a reserved word has no
expansion, nor have the floating-point loads and stores.
-/

namespace Embive.Rv32

open Lib

section Fields

variable (c : U16)

def rdFull : BitVec 5 := c.extractLsb' 7 5

def rs2Full : BitVec 5 := c.extractLsb' 2 5

/-- A register field of three bits names the registers eight to fifteen. -/
def rdPrime : BitVec 5 := 0b01#2 ++ c.extractLsb' 2 3

def rs1Prime : BitVec 5 := 0b01#2 ++ c.extractLsb' 7 3

/-- The immediate bits are `5:4`, `9:6`, `2` and `3`. -/
def addi4spnImm : BitVec 12 :=
  (c.extractLsb' 7 4 ++ c.extractLsb' 11 2 ++ c.extractLsb' 5 1 ++ c.extractLsb' 6 1 ++
    0#2).setWidth 12

/-- The immediate bits are `5:3`, `2` and `6`. -/
def lwImm : BitVec 12 :=
  (c.extractLsb' 5 1 ++ c.extractLsb' 10 3 ++ c.extractLsb' 6 1 ++ 0#2).setWidth 12

/-- The immediate bits are `5` and `4:0`. -/
def imm6 : BitVec 6 := c.extractLsb' 12 1 ++ c.extractLsb' 2 5

def shamt : BitVec 5 := c.extractLsb' 2 5

/-- The immediate bits are `9`, `4`, `6`, `8:7` and `5`. -/
def addi16spImm : BitVec 12 :=
  (c.extractLsb' 12 1 ++ c.extractLsb' 3 2 ++ c.extractLsb' 5 1 ++ c.extractLsb' 2 1 ++
    c.extractLsb' 6 1 ++ 0#4).signExtend 12

/-- The offset bits are `11`, `4`, `9:8`, `10`, `6`, `7`, `3:1` and `5`. -/
def jumpOffset : BitVec 11 :=
  c.extractLsb' 12 1 ++ c.extractLsb' 8 1 ++ c.extractLsb' 9 2 ++ c.extractLsb' 6 1 ++
    c.extractLsb' 7 1 ++ c.extractLsb' 2 1 ++ c.extractLsb' 11 1 ++ c.extractLsb' 3 3

/-- The offset bits are `8`, `4:3`, `7:6`, `2:1` and `5`. -/
def branchOffset : BitVec 8 :=
  c.extractLsb' 12 1 ++ c.extractLsb' 5 2 ++ c.extractLsb' 2 1 ++ c.extractLsb' 10 2 ++
    c.extractLsb' 3 2

/-- The immediate bits are `5`, `4:2` and `7:6`. -/
def lwspImm : BitVec 12 :=
  (c.extractLsb' 2 2 ++ c.extractLsb' 12 1 ++ c.extractLsb' 4 3 ++ 0#2).setWidth 12

/-- The immediate bits are `5:2` and `7:6`. -/
def swspImm : BitVec 12 := (c.extractLsb' 7 2 ++ c.extractLsb' 9 4 ++ 0#2).setWidth 12

end Fields

/-- Quadrant zero: register-based loads and stores, and the stack pointer addition. -/
def expandC0 (c : U16) : Option U32 :=
  match (c.extractLsb' 13 3).toNat with
  | 0 => if addi4spnImm c = 0 then none else some (addi (rdPrime c) 2 (addi4spnImm c))
  | 2 => some (lw (rdPrime c) (rs1Prime c) (lwImm c))
  | 6 => some (sw (rs1Prime c) (rdPrime c) (lwImm c))
  | _ => none

/-- The two-register operations. -/
def expandRegisterPair (c : U16) : Option U32 :=
  if c.extractLsb' 12 1 = 0 then
    match (c.extractLsb' 5 2).toNat with
    | 0 => some (sub (rs1Prime c) (rs1Prime c) (rdPrime c))
    | 1 => some (xor (rs1Prime c) (rs1Prime c) (rdPrime c))
    | 2 => some (or (rs1Prime c) (rs1Prime c) (rdPrime c))
    | 3 => some (and (rs1Prime c) (rs1Prime c) (rdPrime c))
    | _ => none
  else none

/-- Quadrant one: immediates, jumps, branches and arithmetic. -/
def expandC1 (c : U16) : Option U32 :=
  match (c.extractLsb' 13 3).toNat with
  | 0 => some (addi (rdFull c) (rdFull c) ((imm6 c).signExtend 12))
  | 1 => some (jal 1 ((jumpOffset c).signExtend 20))
  | 2 => some (addi (rdFull c) 0 ((imm6 c).signExtend 12))
  | 3 =>
    if rdFull c = 2 then
      if addi16spImm c = 0 then none else some (addi 2 2 (addi16spImm c))
    else if imm6 c = 0 then none else some (lui (rdFull c) ((imm6 c).signExtend 20))
  | 4 =>
    match (c.extractLsb' 10 2).toNat with
    | 0 => if c.extractLsb' 12 1 = 0 then some (srli (rs1Prime c) (rs1Prime c) (shamt c)) else none
    | 1 => if c.extractLsb' 12 1 = 0 then some (srai (rs1Prime c) (rs1Prime c) (shamt c)) else none
    | 2 => some (andi (rs1Prime c) (rs1Prime c) ((imm6 c).signExtend 12))
    | 3 => expandRegisterPair c
    | _ => none
  | 5 => some (jal 0 ((jumpOffset c).signExtend 20))
  | 6 => some (beq (rs1Prime c) 0 ((branchOffset c).signExtend 12))
  | 7 => some (bne (rs1Prime c) 0 ((branchOffset c).signExtend 12))
  | _ => none

/-- Jump register, move, break, jump and link register, and add. -/
def expandRegister (c : U16) : Option U32 :=
  if c.extractLsb' 12 1 = 0 then
    if rs2Full c = 0 then
      if rdFull c = 0 then none else some (jalr 0 (rdFull c) 0)
    else some (add (rdFull c) 0 (rs2Full c))
  else if rs2Full c = 0 then
    if rdFull c = 0 then some ebreak else some (jalr 1 (rdFull c) 0)
  else some (add (rdFull c) (rdFull c) (rs2Full c))

/-- Quadrant two: the shift, stack-pointer loads and stores, and register moves. -/
def expandC2 (c : U16) : Option U32 :=
  match (c.extractLsb' 13 3).toNat with
  | 0 => if c.extractLsb' 12 1 = 0 then some (slli (rdFull c) (rdFull c) (shamt c)) else none
  | 2 => some (lw (rdFull c) 2 (lwspImm c))
  | 4 => expandRegister c
  | 6 => some (sw 2 (rs2Full c) (swspImm c))
  | _ => none

/-- The full-size instruction that a compressed word stands for, if it is not reserved. -/
def expand (c : U16) : Option U32 :=
  match (c.extractLsb' 0 2).toNat with
  | 0 => expandC0 c
  | 1 => expandC1 c
  | 2 => expandC2 c
  | _ => none

/-- The three-bit field with its offset is the five-bit register number. -/
theorem prime_eq (x : BitVec 3) :
    x.setWidth 8 + compressedRegisterOffset = (0b01#2 ++ x).setWidth 8 := by
  revert x
  decide

section WordFields

variable (w : U32)

theorem rdPrime_eq : ((w >>> 2) &&& 0b111).setWidth 8 + compressedRegisterOffset =
    (rdPrime (w.setWidth 16)).setWidth 8 := by
  have hfield : ∀ w : U32, ((w >>> 2) &&& 0b111#32).setWidth 8 =
      ((w.setWidth 16).extractLsb' 2 3).setWidth 8 :=
    OrLinear.eq_of_oneBit (by fun_prop) (by fun_prop) (by decide)
  rw [rdPrime, ← prime_eq]
  exact congrArg (· + compressedRegisterOffset) (hfield w)

theorem rs1Prime_eq : ((w >>> 7) &&& 0b111).setWidth 8 + compressedRegisterOffset =
    (rs1Prime (w.setWidth 16)).setWidth 8 := by
  have hfield : ∀ w : U32, ((w >>> 7) &&& 0b111#32).setWidth 8 =
      ((w.setWidth 16).extractLsb' 7 3).setWidth 8 :=
    OrLinear.eq_of_oneBit (by fun_prop) (by fun_prop) (by decide)
  rw [rs1Prime, ← prime_eq]
  exact congrArg (· + compressedRegisterOffset) (hfield w)

theorem typeCIW_fields : (Format.fromRiscv w : TypeCIW) =
    ⟨(rdPrime (w.setWidth 16)).setWidth 8, (addi4spnImm (w.setWidth 16)).signExtend 32⟩ := by
  simp only [Format.fromRiscv, TypeCIW.mk.injEq, rdPrime_eq, addi4spnImm, true_and]
  revert w
  exact OrLinear.eq_of_oneBit (by fun_prop) (by fun_prop) (by decide)

theorem typeCL_fields : (Format.fromRiscv w : TypeCL) =
    ⟨(rdPrime (w.setWidth 16)).setWidth 8, (rs1Prime (w.setWidth 16)).setWidth 8,
      (lwImm (w.setWidth 16)).signExtend 32⟩ := by
  simp only [Format.fromRiscv, TypeCL.mk.injEq, rdPrime_eq, rs1Prime_eq, lwImm, true_and]
  revert w
  exact OrLinear.eq_of_oneBit (by fun_prop) (by fun_prop) (by decide)

theorem typeCI1_fields : (Format.fromRiscv w : TypeCI1) =
    ⟨(rdFull (w.setWidth 16)).setWidth 8, (imm6 (w.setWidth 16)).signExtend 32⟩ := by
  simp only [Format.fromRiscv, TypeCI1.mk.injEq, rdFull, imm6]
  refine ⟨?_, ?_⟩ <;>
    (revert w; exact OrLinear.eq_of_oneBit (by fun_prop) (by fun_prop) (by decide))

theorem typeCI2_fields : (Format.fromRiscv w : TypeCI2) =
    ⟨(rdFull (w.setWidth 16)).setWidth 8, (addi16spImm (w.setWidth 16)).signExtend 32⟩ := by
  simp only [Format.fromRiscv, TypeCI2.mk.injEq, rdFull, addi16spImm]
  refine ⟨?_, ?_⟩ <;>
    (revert w; exact OrLinear.eq_of_oneBit (by fun_prop) (by fun_prop) (by decide))

theorem typeCI3_fields : (Format.fromRiscv w : TypeCI3) =
    ⟨(rdFull (w.setWidth 16)).setWidth 8, (imm6 (w.setWidth 16)).signExtend 20 ++ 0#12⟩ := by
  simp only [Format.fromRiscv, TypeCI3.mk.injEq, rdFull, imm6]
  refine ⟨?_, ?_⟩ <;>
    (revert w; exact OrLinear.eq_of_oneBit (by fun_prop) (by fun_prop) (by decide))

theorem typeCI4_fields : (Format.fromRiscv w : TypeCI4) =
    ⟨(rdFull (w.setWidth 16)).setWidth 8, (imm6 (w.setWidth 16)).setWidth 32⟩ := by
  simp only [Format.fromRiscv, TypeCI4.mk.injEq, rdFull, imm6]
  refine ⟨?_, ?_⟩ <;>
    (revert w; exact OrLinear.eq_of_oneBit (by fun_prop) (by fun_prop) (by decide))

theorem typeCI5_fields : (Format.fromRiscv w : TypeCI5) =
    ⟨(rdFull (w.setWidth 16)).setWidth 8, (lwspImm (w.setWidth 16)).signExtend 32⟩ := by
  simp only [Format.fromRiscv, TypeCI5.mk.injEq, rdFull, lwspImm]
  refine ⟨?_, ?_⟩ <;>
    (revert w; exact OrLinear.eq_of_oneBit (by fun_prop) (by fun_prop) (by decide))

theorem typeCB1_fields : (Format.fromRiscv w : TypeCB1) =
    ⟨(rs1Prime (w.setWidth 16)).setWidth 8, (imm6 (w.setWidth 16)).setWidth 32⟩ := by
  simp only [Format.fromRiscv, TypeCB1.mk.injEq, rs1Prime_eq, imm6, true_and]
  revert w
  exact OrLinear.eq_of_oneBit (by fun_prop) (by fun_prop) (by decide)

theorem typeCB2_fields : (Format.fromRiscv w : TypeCB2) =
    ⟨(rs1Prime (w.setWidth 16)).setWidth 8, (imm6 (w.setWidth 16)).signExtend 32⟩ := by
  simp only [Format.fromRiscv, TypeCB2.mk.injEq, rs1Prime_eq, imm6, true_and]
  revert w
  exact OrLinear.eq_of_oneBit (by fun_prop) (by fun_prop) (by decide)

theorem typeCB4_fields : (Format.fromRiscv w : TypeCB4) =
    ⟨(rs1Prime (w.setWidth 16)).setWidth 8,
      (branchOffset (w.setWidth 16) ++ 0#1).signExtend 32⟩ := by
  simp only [Format.fromRiscv, TypeCB4.mk.injEq, rs1Prime_eq, branchOffset, true_and]
  revert w
  exact OrLinear.eq_of_oneBit (by fun_prop) (by fun_prop) (by decide)

theorem typeCR_fields : (Format.fromRiscv w : TypeCR) =
    ⟨(rdFull (w.setWidth 16)).setWidth 8, (rs2Full (w.setWidth 16)).setWidth 8⟩ := by
  simp only [Format.fromRiscv, TypeCR.mk.injEq, rdFull, rs2Full]
  refine ⟨?_, ?_⟩ <;>
    (revert w; exact OrLinear.eq_of_oneBit (by fun_prop) (by fun_prop) (by decide))

theorem typeCS_fields : (Format.fromRiscv w : TypeCS) =
    ⟨(rs1Prime (w.setWidth 16)).setWidth 8, (rdPrime (w.setWidth 16)).setWidth 8⟩ := by
  simp only [Format.fromRiscv, rs1Prime_eq, rdPrime_eq]

theorem typeCSS_fields : (Format.fromRiscv w : TypeCSS) =
    ⟨(rs2Full (w.setWidth 16)).setWidth 8, (swspImm (w.setWidth 16)).signExtend 32⟩ := by
  simp only [Format.fromRiscv, TypeCSS.mk.injEq, rs2Full, swspImm]
  refine ⟨?_, ?_⟩ <;>
    (revert w; exact OrLinear.eq_of_oneBit (by fun_prop) (by fun_prop) (by decide))

theorem typeCJ_fields : (Format.fromRiscv w : TypeCJ) =
    ⟨(jumpOffset (w.setWidth 16) ++ 0#1).signExtend 32⟩ := by
  simp only [Format.fromRiscv, TypeCJ.mk.injEq, jumpOffset]
  revert w
  exact OrLinear.eq_of_oneBit (by fun_prop) (by fun_prop) (by decide)

end WordFields

section CompressedFormats

variable (c : U16)

theorem setWidth_low : (c.setWidth 32).setWidth 16 = c := by
  rw [BitVec.setWidth_setWidth_of_le _ (by decide), BitVec.setWidth_eq]

theorem fromRiscv_typeCIW : (Format.fromRiscv (c.setWidth 32) : TypeCIW) =
    ⟨(rdPrime c).setWidth 8, (addi4spnImm c).signExtend 32⟩ := by
  rw [typeCIW_fields, setWidth_low]

theorem fromRiscv_typeCL : (Format.fromRiscv (c.setWidth 32) : TypeCL) =
    ⟨(rdPrime c).setWidth 8, (rs1Prime c).setWidth 8, (lwImm c).signExtend 32⟩ := by
  rw [typeCL_fields, setWidth_low]

theorem fromRiscv_typeCI1 : (Format.fromRiscv (c.setWidth 32) : TypeCI1) =
    ⟨(rdFull c).setWidth 8, (imm6 c).signExtend 32⟩ := by
  rw [typeCI1_fields, setWidth_low]

theorem fromRiscv_typeCI2 : (Format.fromRiscv (c.setWidth 32) : TypeCI2) =
    ⟨(rdFull c).setWidth 8, (addi16spImm c).signExtend 32⟩ := by
  rw [typeCI2_fields, setWidth_low]

theorem fromRiscv_typeCI3 : (Format.fromRiscv (c.setWidth 32) : TypeCI3) =
    ⟨(rdFull c).setWidth 8, (imm6 c).signExtend 20 ++ 0#12⟩ := by
  rw [typeCI3_fields, setWidth_low]

theorem fromRiscv_typeCI4 : (Format.fromRiscv (c.setWidth 32) : TypeCI4) =
    ⟨(rdFull c).setWidth 8, (imm6 c).setWidth 32⟩ := by
  rw [typeCI4_fields, setWidth_low]

theorem fromRiscv_typeCI5 : (Format.fromRiscv (c.setWidth 32) : TypeCI5) =
    ⟨(rdFull c).setWidth 8, (lwspImm c).signExtend 32⟩ := by
  rw [typeCI5_fields, setWidth_low]

theorem fromRiscv_typeCB1 : (Format.fromRiscv (c.setWidth 32) : TypeCB1) =
    ⟨(rs1Prime c).setWidth 8, (imm6 c).setWidth 32⟩ := by
  rw [typeCB1_fields, setWidth_low]

theorem fromRiscv_typeCB2 : (Format.fromRiscv (c.setWidth 32) : TypeCB2) =
    ⟨(rs1Prime c).setWidth 8, (imm6 c).signExtend 32⟩ := by
  rw [typeCB2_fields, setWidth_low]

theorem fromRiscv_typeCB4 : (Format.fromRiscv (c.setWidth 32) : TypeCB4) =
    ⟨(rs1Prime c).setWidth 8, (branchOffset c ++ 0#1).signExtend 32⟩ := by
  rw [typeCB4_fields, setWidth_low]

theorem fromRiscv_typeCR : (Format.fromRiscv (c.setWidth 32) : TypeCR) =
    ⟨(rdFull c).setWidth 8, (rs2Full c).setWidth 8⟩ := by
  rw [typeCR_fields, setWidth_low]

theorem fromRiscv_typeCS : (Format.fromRiscv (c.setWidth 32) : TypeCS) =
    ⟨(rs1Prime c).setWidth 8, (rdPrime c).setWidth 8⟩ := by
  rw [typeCS_fields, setWidth_low]

theorem fromRiscv_typeCSS : (Format.fromRiscv (c.setWidth 32) : TypeCSS) =
    ⟨(rs2Full c).setWidth 8, (swspImm c).signExtend 32⟩ := by
  rw [typeCSS_fields, setWidth_low]

theorem fromRiscv_typeCJ : (Format.fromRiscv (c.setWidth 32) : TypeCJ) =
    ⟨(jumpOffset c ++ 0#1).signExtend 32⟩ := by
  rw [typeCJ_fields, setWidth_low]

end CompressedFormats

end Embive.Rv32
