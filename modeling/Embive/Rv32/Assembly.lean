import Embive.Format
import Embive.Lib.OrLinear

/-! # RISC-V instruction words and the fields they are read as

The base formats assemble a word from its fields; offsets of jumps and branches
count halfwords. Each assembled word is read in its format as the fields it was
assembled from.
-/

namespace Embive.Rv32

open Lib

def rType (funct7 : BitVec 7) (rs2 rs1 : BitVec 5) (funct3 : BitVec 3) (rd : BitVec 5)
    (opcode : BitVec 7) : U32 :=
  funct7 ++ rs2 ++ rs1 ++ funct3 ++ rd ++ opcode

def iType (imm : BitVec 12) (rs1 : BitVec 5) (funct3 : BitVec 3) (rd : BitVec 5)
    (opcode : BitVec 7) : U32 :=
  imm ++ rs1 ++ funct3 ++ rd ++ opcode

def sType (imm : BitVec 12) (rs2 rs1 : BitVec 5) (funct3 : BitVec 3) (opcode : BitVec 7) : U32 :=
  imm.extractLsb' 5 7 ++ rs2 ++ rs1 ++ funct3 ++ imm.extractLsb' 0 5 ++ opcode

/-- The immediate bits are `12`, `10:5`, `4:1` and `11` of the offset in bytes. -/
def bType (offset : BitVec 12) (rs2 rs1 : BitVec 5) (funct3 : BitVec 3) (opcode : BitVec 7) :
    U32 :=
  offset.extractLsb' 11 1 ++ offset.extractLsb' 4 6 ++ rs2 ++ rs1 ++ funct3 ++
    offset.extractLsb' 0 4 ++ offset.extractLsb' 10 1 ++ opcode

def uType (imm : BitVec 20) (rd : BitVec 5) (opcode : BitVec 7) : U32 := imm ++ rd ++ opcode

/-- The immediate bits are `20`, `10:1`, `11` and `19:12` of the offset in bytes. -/
def jType (offset : BitVec 20) (rd : BitVec 5) (opcode : BitVec 7) : U32 :=
  offset.extractLsb' 19 1 ++ offset.extractLsb' 0 10 ++ offset.extractLsb' 10 1 ++
    offset.extractLsb' 11 8 ++ rd ++ opcode

section Mnemonics

variable (rd rs1 rs2 : BitVec 5)

def lw (imm : BitVec 12) : U32 := iType imm rs1 0b010 rd 0b0000011

def sw (imm : BitVec 12) : U32 := sType imm rs2 rs1 0b010 0b0100011

def addi (imm : BitVec 12) : U32 := iType imm rs1 0b000 rd 0b0010011

def andi (imm : BitVec 12) : U32 := iType imm rs1 0b111 rd 0b0010011

def slli (shamt : BitVec 5) : U32 := iType (0b0000000#7 ++ shamt) rs1 0b001 rd 0b0010011

def srli (shamt : BitVec 5) : U32 := iType (0b0000000#7 ++ shamt) rs1 0b101 rd 0b0010011

def srai (shamt : BitVec 5) : U32 := iType (0b0100000#7 ++ shamt) rs1 0b101 rd 0b0010011

def add : U32 := rType 0b0000000 rs2 rs1 0b000 rd 0b0110011

def sub : U32 := rType 0b0100000 rs2 rs1 0b000 rd 0b0110011

def xor : U32 := rType 0b0000000 rs2 rs1 0b100 rd 0b0110011

def or : U32 := rType 0b0000000 rs2 rs1 0b110 rd 0b0110011

def and : U32 := rType 0b0000000 rs2 rs1 0b111 rd 0b0110011

def lui (imm : BitVec 20) : U32 := uType imm rd 0b0110111

def jal (offset : BitVec 20) : U32 := jType offset rd 0b1101111

def jalr (imm : BitVec 12) : U32 := iType imm rs1 0b000 rd 0b1100111

def beq (offset : BitVec 12) : U32 := bType offset rs2 rs1 0b000 0b1100011

def bne (offset : BitVec 12) : U32 := bType offset rs2 rs1 0b001 0b1100011

def ebreak : U32 := iType 1 0 0b000 0 0b1110011

end Mnemonics

section Fields

variable (w : U32)

theorem typeR_fields : (Format.fromRiscv w : TypeR) =
    ⟨(w.extractLsb' 7 5).setWidth 8, (w.extractLsb' 15 5).setWidth 8,
      (w.extractLsb' 20 5).setWidth 8,
      (w.extractLsb' 25 7 ++ w.extractLsb' 12 3).setWidth 16⟩ := by
  simp only [Format.fromRiscv, TypeR.mk.injEq]
  refine ⟨?_, ?_, ?_, ?_⟩ <;>
    (revert w; exact OrLinear.eq_of_oneBit (by fun_prop) (by fun_prop) (by decide))

theorem typeI_fields : (Format.fromRiscv w : TypeI) =
    ⟨(w.extractLsb' 7 5).setWidth 8, (w.extractLsb' 15 5).setWidth 8,
      (w.extractLsb' 20 12).signExtend 32, (w.extractLsb' 12 3).setWidth 8⟩ := by
  simp only [Format.fromRiscv, TypeI.mk.injEq]
  refine ⟨?_, ?_, ?_, ?_⟩ <;>
    (revert w; exact OrLinear.eq_of_oneBit (by fun_prop) (by fun_prop) (by decide))

theorem typeS_fields : (Format.fromRiscv w : TypeS) =
    ⟨(w.extractLsb' 15 5).setWidth 8, (w.extractLsb' 20 5).setWidth 8,
      (w.extractLsb' 25 7 ++ w.extractLsb' 7 5).signExtend 32,
      (w.extractLsb' 12 3).setWidth 8⟩ := by
  simp only [Format.fromRiscv, TypeS.mk.injEq]
  refine ⟨?_, ?_, ?_, ?_⟩ <;>
    (revert w; exact OrLinear.eq_of_oneBit (by fun_prop) (by fun_prop) (by decide))

theorem typeB_fields : (Format.fromRiscv w : TypeB) =
    ⟨(w.extractLsb' 15 5).setWidth 8, (w.extractLsb' 20 5).setWidth 8,
      (w.extractLsb' 31 1 ++ w.extractLsb' 7 1 ++ w.extractLsb' 25 6 ++ w.extractLsb' 8 4 ++
        0#1).signExtend 32,
      (w.extractLsb' 12 3).setWidth 8⟩ := by
  simp only [Format.fromRiscv, TypeB.mk.injEq]
  refine ⟨?_, ?_, ?_, ?_⟩ <;>
    (revert w; exact OrLinear.eq_of_oneBit (by fun_prop) (by fun_prop) (by decide))

theorem typeU_fields : (Format.fromRiscv w : TypeU) =
    ⟨(w.extractLsb' 7 5).setWidth 8, w.extractLsb' 12 20 ++ 0#12⟩ := by
  simp only [Format.fromRiscv, TypeU.fromRiscv, TypeU.mk.injEq]
  refine ⟨?_, ?_⟩ <;>
    (revert w; exact OrLinear.eq_of_oneBit (by fun_prop) (by fun_prop) (by decide))

theorem typeJ_fields : (Format.fromRiscv w : TypeJ) =
    ⟨(w.extractLsb' 7 5).setWidth 8,
      (w.extractLsb' 31 1 ++ w.extractLsb' 12 8 ++ w.extractLsb' 20 1 ++ w.extractLsb' 21 10 ++
        0#1).signExtend 32⟩ := by
  simp only [Format.fromRiscv, TypeJ.mk.injEq]
  refine ⟨?_, ?_⟩ <;>
    (revert w; exact OrLinear.eq_of_oneBit (by fun_prop) (by fun_prop) (by decide))

end Fields

section Assembled

variable (rd rs1 rs2 : BitVec 5) (funct3 : BitVec 3) (opcode : BitVec 7)

theorem fromRiscv_rType (funct7 : BitVec 7) :
    (Format.fromRiscv (rType funct7 rs2 rs1 funct3 rd opcode) : TypeR) =
      ⟨rd.setWidth 8, rs1.setWidth 8, rs2.setWidth 8, (funct7 ++ funct3).setWidth 16⟩ := by
  rw [typeR_fields, rType]
  simp (disch := omega) only [BitVec.extractLsb'_append_eq_of_le,
    BitVec.extractLsb'_append_eq_of_add_le, Nat.reduceSub, BitVec.extractLsb'_eq_self]

theorem fromRiscv_iType (imm : BitVec 12) :
    (Format.fromRiscv (iType imm rs1 funct3 rd opcode) : TypeI) =
      ⟨rd.setWidth 8, rs1.setWidth 8, imm.signExtend 32, funct3.setWidth 8⟩ := by
  rw [typeI_fields, iType]
  simp (disch := omega) only [BitVec.extractLsb'_append_eq_of_le,
    BitVec.extractLsb'_append_eq_of_add_le, Nat.reduceSub, BitVec.extractLsb'_eq_self]

theorem fromRiscv_sType (imm : BitVec 12) :
    (Format.fromRiscv (sType imm rs2 rs1 funct3 opcode) : TypeS) =
      ⟨rs1.setWidth 8, rs2.setWidth 8, imm.signExtend 32, funct3.setWidth 8⟩ := by
  have himm : ∀ x : BitVec 12, x.extractLsb' 5 7 ++ x.extractLsb' 0 5 = x :=
    OrLinear.eq_of_oneBit (by fun_prop) (by fun_prop) (by decide)
  rw [typeS_fields, sType]
  simp (disch := omega) only [BitVec.extractLsb'_append_eq_of_le,
    BitVec.extractLsb'_append_eq_of_add_le, Nat.reduceSub, BitVec.extractLsb'_eq_self, himm]

theorem fromRiscv_bType (offset : BitVec 12) :
    (Format.fromRiscv (bType offset rs2 rs1 funct3 opcode) : TypeB) =
      ⟨rs1.setWidth 8, rs2.setWidth 8, (offset ++ 0#1).signExtend 32, funct3.setWidth 8⟩ := by
  have hoffset : ∀ x : BitVec 12, x.extractLsb' 11 1 ++ x.extractLsb' 10 1 ++
      x.extractLsb' 4 6 ++ x.extractLsb' 0 4 ++ 0#1 = x ++ 0#1 :=
    OrLinear.eq_of_oneBit (by fun_prop) (by fun_prop) (by decide)
  rw [typeB_fields, bType]
  simp (disch := omega) only [BitVec.extractLsb'_append_eq_of_le,
    BitVec.extractLsb'_append_eq_of_add_le, Nat.reduceSub, BitVec.extractLsb'_eq_self, hoffset]

theorem fromRiscv_uType (imm : BitVec 20) :
    (Format.fromRiscv (uType imm rd opcode) : TypeU) = ⟨rd.setWidth 8, imm ++ 0#12⟩ := by
  rw [typeU_fields, uType]
  simp (disch := omega) only [BitVec.extractLsb'_append_eq_of_le,
    BitVec.extractLsb'_append_eq_of_add_le, Nat.reduceSub, BitVec.extractLsb'_eq_self]

theorem fromRiscv_jType (offset : BitVec 20) :
    (Format.fromRiscv (jType offset rd opcode) : TypeJ) =
      ⟨rd.setWidth 8, (offset ++ 0#1).signExtend 32⟩ := by
  have hoffset : ∀ x : BitVec 20, x.extractLsb' 19 1 ++ x.extractLsb' 11 8 ++
      x.extractLsb' 10 1 ++ x.extractLsb' 0 10 ++ 0#1 = x ++ 0#1 :=
    OrLinear.eq_of_oneBit (by fun_prop) (by fun_prop) (by decide)
  rw [typeJ_fields, jType]
  simp (disch := omega) only [BitVec.extractLsb'_append_eq_of_le,
    BitVec.extractLsb'_append_eq_of_add_le, Nat.reduceSub, BitVec.extractLsb'_eq_self, hoffset]

end Assembled

end Embive.Rv32
