import Embive.Format
import Embive.Lib.OrLinear

/-! # The bits that a RISC-V format reads

The fields of each format determine the bits of the RISC-V word that the format reads:
two words with the same fields agree on these bits.
-/

namespace Embive

open Lib

/-- The fields of a RISC-V format as one bit vector, and the bits they determine. -/
class RiscvLayout (F : Type) [Format F] where
  {width : ℕ}
  fields : F → BitVec width
  bits : U32
  linear : OrLinear (fun w : U32 => fields (Format.fromRiscv w))
  covered : ∀ i : Fin 32, bits.getLsbD i = true →
    fields (Format.fromRiscv (BitVec.twoPow 32 i)) |||
      fields (Format.fromRiscv (~~~BitVec.twoPow 32 i)) ≠
        fields (Format.fromRiscv (~~~BitVec.twoPow 32 i))

/-- Words that a format reads alike agree on the bits that it reads. -/
theorem bits_eq_of_fromRiscv_eq {F : Type} [Format F] [RiscvLayout F] {x y : U32}
    (h : (Format.fromRiscv x : F) = Format.fromRiscv y) :
    x &&& RiscvLayout.bits F = y &&& RiscvLayout.bits F :=
  RiscvLayout.linear.mask_eq_of_eq _ RiscvLayout.covered (congrArg RiscvLayout.fields h)

instance : RiscvLayout TypeR where
  fields data := data.rd ++ data.rs1 ++ data.rs2 ++ data.func
  bits := 0xFFFFFF80
  linear := by
    simp only [Format.fromRiscv]
    fun_prop
  covered := by decide

instance : RiscvLayout TypeI where
  fields data := data.rdRs2 ++ data.rs1 ++ data.imm ++ data.func
  bits := 0xFFFFFF80
  linear := by
    simp only [Format.fromRiscv]
    fun_prop
  covered := by decide

instance : RiscvLayout TypeS where
  fields data := data.rs1 ++ data.rs2 ++ data.imm ++ data.func
  bits := 0xFFFFFF80
  linear := by
    simp only [Format.fromRiscv]
    fun_prop
  covered := by decide

instance : RiscvLayout TypeB where
  fields data := data.rs1 ++ data.rs2 ++ data.imm ++ data.func
  bits := 0xFFFFFF80
  linear := by
    simp only [Format.fromRiscv]
    fun_prop
  covered := by decide

instance : RiscvLayout TypeU where
  fields data := data.rd ++ data.imm
  bits := 0xFFFFFF80
  linear := by
    simp only [Format.fromRiscv, TypeU.fromRiscv]
    fun_prop
  covered := by decide

instance : RiscvLayout TypeJ where
  fields data := data.rd ++ data.imm
  bits := 0xFFFFFF80
  linear := by
    simp only [Format.fromRiscv]
    fun_prop
  covered := by decide

instance : RiscvLayout TypeCIW where
  fields data := (data.rd - compressedRegisterOffset) ++ data.imm
  bits := 0x1FFC
  linear := by
    simp only [Format.fromRiscv, BitVec.add_sub_cancel]
    fun_prop
  covered := by decide

instance : RiscvLayout TypeCL where
  fields data :=
    (data.rdRs2 - compressedRegisterOffset) ++ (data.rs1 - compressedRegisterOffset) ++ data.imm
  bits := 0x1FFC
  linear := by
    simp only [Format.fromRiscv, BitVec.add_sub_cancel]
    fun_prop
  covered := by decide

instance : RiscvLayout TypeCI1 where
  fields data := data.rdRs1 ++ data.imm
  bits := 0x1FFC
  linear := by
    simp only [Format.fromRiscv]
    fun_prop
  covered := by decide

instance : RiscvLayout TypeCI2 where
  fields data := data.rdRs1 ++ data.imm
  bits := 0x1FFC
  linear := by
    simp only [Format.fromRiscv]
    fun_prop
  covered := by decide

instance : RiscvLayout TypeCI3 where
  fields data := data.rdRs1 ++ data.imm
  bits := 0x1FFC
  linear := by
    simp only [Format.fromRiscv]
    fun_prop
  covered := by decide

instance : RiscvLayout TypeCI4 where
  fields data := data.rdRs1 ++ data.imm
  bits := 0x1FFC
  linear := by
    simp only [Format.fromRiscv]
    fun_prop
  covered := by decide

instance : RiscvLayout TypeCI5 where
  fields data := data.rdRs1 ++ data.imm
  bits := 0x1FFC
  linear := by
    simp only [Format.fromRiscv]
    fun_prop
  covered := by decide

instance : RiscvLayout TypeCB1 where
  fields data := (data.rdRs1 - compressedRegisterOffset) ++ data.imm
  bits := 0x13FC
  linear := by
    simp only [Format.fromRiscv, BitVec.add_sub_cancel]
    fun_prop
  covered := by decide

instance : RiscvLayout TypeCB2 where
  fields data := (data.rdRs1 - compressedRegisterOffset) ++ data.imm
  bits := 0x13FC
  linear := by
    simp only [Format.fromRiscv, BitVec.add_sub_cancel]
    fun_prop
  covered := by decide

instance : RiscvLayout TypeCB4 where
  fields data := (data.rs1 - compressedRegisterOffset) ++ data.imm
  bits := 0x1FFC
  linear := by
    simp only [Format.fromRiscv, BitVec.add_sub_cancel]
    fun_prop
  covered := by decide

instance : RiscvLayout TypeCR where
  fields data := data.rdRs1 ++ data.rs2
  bits := 0x0FFC
  linear := by
    simp only [Format.fromRiscv]
    fun_prop
  covered := by decide

instance : RiscvLayout TypeCS where
  fields data := (data.rdRs1 - compressedRegisterOffset) ++ (data.rs2 - compressedRegisterOffset)
  bits := 0x039C
  linear := by
    simp only [Format.fromRiscv, BitVec.add_sub_cancel]
    fun_prop
  covered := by decide

instance : RiscvLayout TypeCSS where
  fields data := data.rs2 ++ data.imm
  bits := 0x1FFC
  linear := by
    simp only [Format.fromRiscv]
    fun_prop
  covered := by decide

instance : RiscvLayout TypeCJ where
  fields data := data.imm
  bits := 0x1FFC
  linear := by
    simp only [Format.fromRiscv]
    fun_prop
  covered := by decide
end Embive
