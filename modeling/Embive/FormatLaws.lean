import Embive.Instruction
import Embive.Lib.OrLinear

/-! # Laws of the instruction formats

Reading an Embive word looks at its payload bits only, writing leaves the opcode
bits clear, and what was read from a RISC-V word survives being written to and read
from an Embive word.
-/

namespace Embive

open Lib

/-- The bits of an Embive word that belong to an instruction of this size, without
the opcode. -/
def Size.payload : Size → U32
  | .half => 0x0000FFE0
  | .word => 0xFFFFFFE0

/-- The laws of a format that Embive instructions are written in. -/
class LawfulFormat (F : Type) [Format F] : Prop where
  fromEmbive_payload : ∀ w : U32,
    (Format.fromEmbive (w &&& (Format.size F).payload) : F) = Format.fromEmbive w
  toEmbive_opcode : ∀ x : F, Format.toEmbive x &&& 0x1F = 0
  fits_fromRiscv : ∀ w : U32,
    Format.fromEmbive (Format.toEmbive (Format.fromRiscv w : F)) = (Format.fromRiscv w : F)

/-- The opcode bits are clear. -/
def OpcodeClear (x : U32) : Prop := x &&& 0x1F = 0

namespace OpcodeClear

theorem or {x y : U32} (hx : OpcodeClear x) (hy : OpcodeClear y) : OpcodeClear (x ||| y) := by
  have h := (OrLinear.id.mask (0x1F : U32)).or x y
  rw [OpcodeClear, h, hx, hy]
  exact BitVec.or_zero

theorem shiftLeft (x : U32) {k : ℕ} (hk : 5 ≤ k) : OpcodeClear (x <<< k) := by
  have h5 : ∀ y : U32, (y <<< 5) &&& 0x1F = 0#32 :=
    OrLinear.eq_of_oneBit (by fun_prop) (by fun_prop) (by decide)
  obtain ⟨d, rfl⟩ := Nat.exists_eq_add_of_le' hk
  rw [OpcodeClear, BitVec.shiftLeft_add]
  exact h5 _

theorem mask (x : U32) {c : U32} (hc : c &&& 0x1F = 0) : OpcodeClear (x &&& c) := by
  rw [OpcodeClear, BitVec.and_assoc, hc]
  exact BitVec.and_zero

end OpcodeClear

section Words

variable {j k l m : ℕ}

theorem append_injective {x x' : BitVec j} {y y' : BitVec k} (h : x ++ y = x' ++ y') :
    x = x' ∧ y = y' := by
  constructor
  · have hx := congrArg (BitVec.extractLsb' k j) h
    rwa [BitVec.extractLsb'_append_eq_left, BitVec.extractLsb'_append_eq_left] at hx
  · have hy := congrArg (BitVec.setWidth k) h
    rwa [BitVec.setWidth_append_eq_right, BitVec.setWidth_append_eq_right] at hy

theorem append₃_injective {x x' : BitVec j} {y y' : BitVec k} {z z' : BitVec l}
    (h : x ++ y ++ z = x' ++ y' ++ z') : x = x' ∧ y = y' ∧ z = z' := by
  obtain ⟨hxy, hz⟩ := append_injective h
  obtain ⟨hx, hy⟩ := append_injective hxy
  exact ⟨hx, hy, hz⟩

theorem append₄_injective {x x' : BitVec j} {y y' : BitVec k} {z z' : BitVec l} {u u' : BitVec m}
    (h : x ++ y ++ z ++ u = x' ++ y' ++ z' ++ u') : x = x' ∧ y = y' ∧ z = z' ∧ u = u' := by
  obtain ⟨hxyz, hu⟩ := append_injective h
  obtain ⟨hx, hy, hz⟩ := append₃_injective hxyz
  exact ⟨hx, hy, hz, hu⟩

theorem OpcodeClear.shifts₂ (x y : U32) (hj : 5 ≤ j) (hk : 5 ≤ k) :
    OpcodeClear (x <<< j ||| y <<< k) :=
  (shiftLeft x hj).or (shiftLeft y hk)

theorem OpcodeClear.shift_mask (x y : U32) {c : U32} (hj : 5 ≤ j) (hc : c &&& 0x1F = 0) :
    OpcodeClear (x <<< j ||| y &&& c) :=
  (shiftLeft x hj).or (mask y hc)

theorem OpcodeClear.shifts₄ (x y z u : U32) (hj : 5 ≤ j) (hk : 5 ≤ k) (hl : 5 ≤ l)
    (hm : 5 ≤ m) : OpcodeClear (x <<< j ||| y <<< k ||| z <<< l ||| u <<< m) :=
  ((shifts₂ x y hj hk).or (shiftLeft z hl)).or (shiftLeft u hm)

end Words

section Packed

variable {F : Type} [Format F] {n : ℕ} (pack : F → BitVec n)

/-- When the fields of an Embive word are moved bits, the opcode is not read if it is not in the
words with one bit set. -/
theorem fromEmbive_payload_of_linear (hpack : ∀ x y, pack x = pack y → x = y)
    (hread : OrLinear (fun w => pack (Format.fromEmbive w)))
    (hpayload : ∀ i : Fin 32,
      pack (Format.fromEmbive (BitVec.twoPow 32 i &&& (Format.size F).payload)) =
        pack (Format.fromEmbive (BitVec.twoPow 32 i))) (w : U32) :
    (Format.fromEmbive (w &&& (Format.size F).payload) : F) = Format.fromEmbive w :=
  hpack _ _ (OrLinear.eq_of_oneBit (hread.comp (OrLinear.id.mask _)) hread hpayload w)

/-- A format that moves bits, with the fields in one word that tells them apart. Its laws are
those of the words with one bit set. -/
theorem LawfulFormat.of_linear (hopcode : ∀ x : F, OpcodeClear (Format.toEmbive x))
    (hpack : ∀ x y, pack x = pack y → x = y)
    (hread : OrLinear (fun w => pack (Format.fromEmbive w)) := by
      simp only [Format.fromEmbive, TypeU.fromRiscv, BitVec.add_sub_cancel]
      fun_prop)
    (hsource : OrLinear (fun w => pack (Format.fromRiscv w)) := by
      simp only [Format.fromRiscv, TypeU.fromRiscv, BitVec.add_sub_cancel]
      fun_prop)
    (hround : OrLinear (fun w =>
      pack (Format.fromEmbive (Format.toEmbive (Format.fromRiscv w : F)))) := by
      simp only [Format.fromEmbive, Format.toEmbive, Format.fromRiscv, TypeU.fromRiscv,
        BitVec.add_sub_cancel]
      fun_prop)
    (hpayload : ∀ i : Fin 32,
      pack (Format.fromEmbive (BitVec.twoPow 32 i &&& (Format.size F).payload)) =
        pack (Format.fromEmbive (BitVec.twoPow 32 i)) := by decide)
    (hfits : ∀ i : Fin 32,
      pack (Format.fromEmbive (Format.toEmbive (Format.fromRiscv (BitVec.twoPow 32 i) : F))) =
        pack (Format.fromRiscv (BitVec.twoPow 32 i)) := by decide) :
    LawfulFormat F where
  fromEmbive_payload := fromEmbive_payload_of_linear pack hpack hread hpayload
  toEmbive_opcode := hopcode
  fits_fromRiscv w := hpack _ _ (OrLinear.eq_of_oneBit hround hsource hfits w)

/-- The same for a format that moves the bits of a word and of the register offset. -/
theorem LawfulFormat.of_offset (hopcode : ∀ x : F, OpcodeClear (Format.toEmbive x))
    (hpack : ∀ x y, pack x = pack y → x = y) (source : U8 → U32 → F)
    (hoffset : ∀ w, Format.fromRiscv w = source compressedRegisterOffset w)
    (hread : OrLinear (fun w => pack (Format.fromEmbive w)) := by
      simp only [Format.fromEmbive]
      fun_prop)
    (hsource : OrLinear (fun v : BitVec (8 + 32) =>
      pack (source (v.extractLsb' 32 8) (v.extractLsb' 0 32))) := by
      simp only [Format.fromRiscv]
      fun_prop)
    (hround : OrLinear (fun v : BitVec (8 + 32) =>
      pack (Format.fromEmbive (Format.toEmbive
        (source (v.extractLsb' 32 8) (v.extractLsb' 0 32))))) := by
      simp only [Format.fromEmbive, Format.toEmbive, Format.fromRiscv]
      fun_prop)
    (hpayload : ∀ i : Fin 32,
      pack (Format.fromEmbive (BitVec.twoPow 32 i &&& (Format.size F).payload)) =
        pack (Format.fromEmbive (BitVec.twoPow 32 i)) := by decide)
    (hfits : ∀ i : Fin (8 + 32),
      pack (Format.fromEmbive (Format.toEmbive
        (source ((BitVec.twoPow (8 + 32) i).extractLsb' 32 8)
          ((BitVec.twoPow (8 + 32) i).extractLsb' 0 32)))) =
        pack (source ((BitVec.twoPow (8 + 32) i).extractLsb' 32 8)
          ((BitVec.twoPow (8 + 32) i).extractLsb' 0 32)) := by decide) :
    LawfulFormat F where
  fromEmbive_payload := fromEmbive_payload_of_linear pack hpack hread hpayload
  toEmbive_opcode := hopcode
  fits_fromRiscv w := by
    rw [hoffset]
    exact hpack _ _ (OrLinear.eq_of_oneBit₂ (f := fun offset w =>
      pack (Format.fromEmbive (Format.toEmbive (source offset w))))
      (g := fun offset w => pack (source offset w)) hround hsource hfits compressedRegisterOffset w)

end Packed

/-- The offset of a three-bit register field sets its bit 3. -/
theorem compressedField_eq_or (w : U32) (k : ℕ) :
    ((w >>> k) &&& 0b111).setWidth 8 + compressedRegisterOffset =
      ((w >>> k) &&& 0b111).setWidth 8 ||| (compressedRegisterOffset &&& 8) := by
  have hclear : ∀ x : U32, (x &&& 0b111).setWidth 8 &&& compressedRegisterOffset = 0#8 :=
    OrLinear.eq_of_oneBit (by fun_prop) (by fun_prop) (by decide)
  exact BitVec.add_eq_or_of_and_eq_zero _ _ (hclear _)

instance : LawfulFormat TypeR :=
  .of_linear (fun x => x.rd ++ x.rs1 ++ x.rs2 ++ x.func)
    (fun _ => .shifts₄ _ _ _ _ (by decide) (by decide) (by decide) (by decide))
    (by rintro ⟨⟩ ⟨⟩ h; simpa using append₄_injective h)

instance : LawfulFormat TypeI :=
  .of_linear (fun x => x.rdRs2 ++ x.rs1 ++ x.imm ++ x.func)
    (fun _ => .shifts₄ _ _ _ _ (by decide) (by decide) (by decide) (by decide))
    (by rintro ⟨⟩ ⟨⟩ h; simpa using append₄_injective h)

instance : LawfulFormat TypeB :=
  .of_linear (fun x => x.rs1 ++ x.rs2 ++ x.imm ++ x.func)
    (fun _ => .shifts₄ _ _ _ _ (by decide) (by decide) (by decide) (by decide))
    (by rintro ⟨⟩ ⟨⟩ h; simpa using append₄_injective h)

instance : LawfulFormat TypeU :=
  .of_linear (fun x => x.rd ++ x.imm)
    (fun _ => .shift_mask _ _ (by decide) (by decide))
    (by rintro ⟨⟩ ⟨⟩ h; simpa using append_injective h)

instance : LawfulFormat TypeJ :=
  .of_linear (fun x => x.rd ++ x.imm)
    (fun _ => .shifts₂ _ _ (by decide) (by decide))
    (by rintro ⟨⟩ ⟨⟩ h; simpa using append_injective h)

instance : LawfulFormat TypeCIW :=
  .of_linear (fun x => (x.rd - compressedRegisterOffset) ++ x.imm)
    (fun _ => .shift_mask _ _ (by decide) (by decide))
    (by rintro ⟨⟩ ⟨⟩ h; simpa using append_injective h)

instance : LawfulFormat TypeCL :=
  .of_linear (fun x => (x.rdRs2 - compressedRegisterOffset) ++ (x.rs1 - compressedRegisterOffset) ++
      x.imm)
    (fun _ => (OpcodeClear.shifts₂ _ _ (by decide) (by decide)).or (.shiftLeft _ (by decide)))
    (by rintro ⟨⟩ ⟨⟩ h; simpa using append₃_injective h)

instance : LawfulFormat TypeCI1 :=
  .of_linear (fun x => x.rdRs1 ++ x.imm)
    (fun _ => .shift_mask _ _ (by decide) (by decide))
    (by rintro ⟨⟩ ⟨⟩ h; simpa using append_injective h)

instance : LawfulFormat TypeCI2 :=
  .of_linear (fun x => x.rdRs1 ++ x.imm)
    (fun _ => .shift_mask _ _ (by decide) (by decide))
    (by rintro ⟨⟩ ⟨⟩ h; simpa using append_injective h)

instance : LawfulFormat TypeCI3 :=
  .of_linear (fun x => x.rdRs1 ++ x.imm)
    (fun _ => .shift_mask _ _ (by decide) (by decide))
    (by rintro ⟨⟩ ⟨⟩ h; simpa using append_injective h)

instance : LawfulFormat TypeCI4 :=
  .of_linear (fun x => x.rdRs1 ++ x.imm)
    (fun _ => .shifts₂ _ _ (by decide) (by decide))
    (by rintro ⟨⟩ ⟨⟩ h; simpa using append_injective h)

instance : LawfulFormat TypeCI5 :=
  .of_linear (fun x => x.rdRs1 ++ x.imm)
    (fun _ => .shifts₂ _ _ (by decide) (by decide))
    (by rintro ⟨⟩ ⟨⟩ h; simpa using append_injective h)

instance : LawfulFormat TypeCB4 :=
  .of_linear (fun x => (x.rs1 - compressedRegisterOffset) ++ x.imm)
    (fun _ => .shift_mask _ _ (by decide) (by decide))
    (by rintro ⟨⟩ ⟨⟩ h; simpa using append_injective h)

instance : LawfulFormat TypeCR :=
  .of_linear (fun x => x.rdRs1 ++ x.rs2)
    (fun _ => .shifts₂ _ _ (by decide) (by decide))
    (by rintro ⟨⟩ ⟨⟩ h; simpa using append_injective h)

instance : LawfulFormat TypeCSS :=
  .of_linear (fun x => x.rs2 ++ x.imm)
    (fun _ => .shifts₂ _ _ (by decide) (by decide))
    (by rintro ⟨⟩ ⟨⟩ h; simpa using append_injective h)

instance : LawfulFormat TypeCJ :=
  .of_linear (fun x => x.imm)
    (fun _ => .mask _ (by decide))
    (fun ⟨_⟩ ⟨_⟩ h => congrArg _ h)

instance : LawfulFormat TypeCB1 :=
  .of_offset (fun x => x.rdRs1 ++ x.imm)
    (fun _ => .shifts₂ _ _ (by decide) (by decide))
    (by rintro ⟨⟩ ⟨⟩ h; simpa using append_injective h)
    (fun offset w => { (Format.fromRiscv w : TypeCB1) with
      rdRs1 := ((w >>> 7) &&& 0b111).setWidth 8 ||| (offset &&& 8) })
    (fun w => by simp only [Format.fromRiscv, compressedField_eq_or])

instance : LawfulFormat TypeCB2 :=
  .of_offset (fun x => x.rdRs1 ++ x.imm)
    (fun _ => .shift_mask _ _ (by decide) (by decide))
    (by rintro ⟨⟩ ⟨⟩ h; simpa using append_injective h)
    (fun offset w => { (Format.fromRiscv w : TypeCB2) with
      rdRs1 := ((w >>> 7) &&& 0b111).setWidth 8 ||| (offset &&& 8) })
    (fun w => by simp only [Format.fromRiscv, compressedField_eq_or])

instance : LawfulFormat TypeCS :=
  .of_offset (fun x => x.rdRs1 ++ x.rs2)
    (fun _ => .shifts₂ _ _ (by decide) (by decide))
    (by rintro ⟨⟩ ⟨⟩ h; simpa using append_injective h)
    (fun offset w =>
      { rdRs1 := ((w >>> 7) &&& 0b111).setWidth 8 ||| (offset &&& 8)
        rs2 := ((w >>> 2) &&& 0b111).setWidth 8 ||| (offset &&& 8) })
    (fun w => by simp only [Format.fromRiscv, compressedField_eq_or])

/-- A register instruction read from a RISC-V word keeps any ten-bit function. -/
theorem TypeR.fits_func (w : U32) (func : BitVec 10) :
    let inst : TypeR := { (Format.fromRiscv w : TypeR) with func := func.setWidth 16 }
    Format.fromEmbive (Format.toEmbive inst) = inst := by
  simp only [Format.fromEmbive, Format.toEmbive, Format.fromRiscv, TypeR.mk.injEq]
  refine ⟨?_, ?_, ?_, ?_⟩ <;>
    (revert w func; exact OrLinear.eq_of_oneBit₂ (by fun_prop) (by fun_prop) (by decide))

/-- A branch read from a RISC-V word keeps any three-bit function. -/
theorem TypeB.fits_func (w : U32) (func : BitVec 3) :
    let inst : TypeB := { (Format.fromRiscv w : TypeB) with func := func.setWidth 8 }
    Format.fromEmbive (Format.toEmbive inst) = inst := by
  simp only [Format.fromEmbive, Format.toEmbive, Format.fromRiscv, TypeB.mk.injEq]
  refine ⟨?_, ?_, ?_, ?_⟩ <;>
    (revert w func; exact OrLinear.eq_of_oneBit₂ (by fun_prop) (by fun_prop) (by decide))

/-- An instruction with an immediate read from a RISC-V word keeps any three-bit
function. -/
theorem TypeI.fits_func (w : U32) (func : BitVec 3) :
    let inst : TypeI := { (Format.fromRiscv w : TypeI) with func := func.setWidth 8 }
    Format.fromEmbive (Format.toEmbive inst) = inst := by
  simp only [Format.fromEmbive, Format.toEmbive, Format.fromRiscv, TypeI.mk.injEq]
  refine ⟨?_, ?_, ?_, ?_⟩ <;>
    (revert w func; exact OrLinear.eq_of_oneBit₂ (by fun_prop) (by fun_prop) (by decide))

/-- It also keeps any twelve-bit immediate with any three-bit function. -/
theorem TypeI.fits_imm (w : U32) (fields : BitVec 15) :
    let inst : TypeI := { (Format.fromRiscv w : TypeI) with
      func := (fields.extractLsb' 0 3).setWidth 8
      imm := (fields.extractLsb' 3 12).signExtend 32 }
    Format.fromEmbive (Format.toEmbive inst) = inst := by
  simp only [Format.fromEmbive, Format.toEmbive, Format.fromRiscv, TypeI.mk.injEq]
  refine ⟨?_, ?_, ?_, ?_⟩ <;>
    (revert w fields; exact OrLinear.eq_of_oneBit₂ (by fun_prop) (by fun_prop) (by decide))

/-- A store read from a RISC-V word fits the Embive format of loads and stores. -/
theorem TypeS.fits_func (w : U32) (func : BitVec 3) :
    let instS : TypeS := Format.fromRiscv w
    let inst : TypeI :=
      { imm := instS.imm, rs1 := instS.rs1, rdRs2 := instS.rs2, func := func.setWidth 8 }
    Format.fromEmbive (Format.toEmbive inst) = inst := by
  simp only [Format.fromEmbive, Format.toEmbive, Format.fromRiscv, TypeI.mk.injEq]
  refine ⟨?_, ?_, ?_, ?_⟩ <;>
    (revert w func; exact OrLinear.eq_of_oneBit₂ (by fun_prop) (by fun_prop) (by decide))

end Embive
