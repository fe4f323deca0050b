import Embive.Rv32.Multiply
import Embive.Transpiler.Conformance

/-! # Multiplication and division conform to RV32M

The words of the multiplications and divisions convert to operations that compute the
exact results through 64-bit products.
-/

namespace Embive.Transpiler

open Rv32

section Products

variable (a b : U32)

/-- The product whose high word is the result of MULH. -/
def signedProduct : U64 := a.signExtend 64 * b.signExtend 64

/-- The product whose high word is the result of MULHSU. -/
def mixedProduct : U64 := a.signExtend 64 * b.setWidth 64

/-- The product whose high word is the result of MULHU. -/
def unsignedProduct : U64 := a.setWidth 64 * b.setWidth 64

/-- No intermediate value overflows: the products and the quotient are exact, and the
high words are cast to words without loss. -/
structure NoOverflow : Prop where
  signed : (signedProduct a b).toInt = a.toInt * b.toInt
  mixed : (mixedProduct a b).toInt = a.toInt * b.toNat
  unsigned : (unsignedProduct a b).toNat = a.toNat * b.toNat
  signedHigh : (((signedProduct a b).sshiftRight 32).setWidth 32).toInt =
    ((signedProduct a b).sshiftRight 32).toInt
  mixedHigh : (((mixedProduct a b).sshiftRight 32).setWidth 32).toInt =
    ((mixedProduct a b).sshiftRight 32).toInt
  unsignedHigh : ((unsignedProduct a b >>> 32).setWidth 32).toNat =
    (unsignedProduct a b >>> 32).toNat
  quotient : b ≠ 0 → ¬(a = BitVec.intMin 32 ∧ b = -1) →
    (a.sdiv b).toInt = a.toInt.tdiv b.toInt

theorem toInt_mul_of_fits {x y : U64} (hlow : -2 ^ 63 ≤ x.toInt * y.toInt)
    (hhigh : x.toInt * y.toInt < 2 ^ 63) : (x * y).toInt = x.toInt * y.toInt := by
  rw [BitVec.toInt_mul]
  exact Int.bmod_eq_of_le hlow hhigh

theorem toInt_signedProduct : (signedProduct a b).toInt = a.toInt * b.toInt := by
  have ha : (a.signExtend 64).toInt = a.toInt := BitVec.toInt_signExtend_of_le (by decide)
  have hb : (b.signExtend 64).toInt = b.toInt := BitVec.toInt_signExtend_of_le (by decide)
  obtain ⟨hlow, hhigh⟩ := signed_bounds a b
  rw [← ha, ← hb] at hlow hhigh ⊢
  exact toInt_mul_of_fits hlow hhigh

theorem toInt_mixedProduct : (mixedProduct a b).toInt = a.toInt * b.toNat := by
  have ha : (a.signExtend 64).toInt = a.toInt := BitVec.toInt_signExtend_of_le (by decide)
  have hb : (b.setWidth 64).toInt = b.toNat := by
    rw [BitVec.toInt_eq_toNat_of_lt, BitVec.toNat_setWidth_of_le (by decide)]
    rw [BitVec.toNat_setWidth_of_le (by decide)]
    omega
  obtain ⟨hlow, hhigh⟩ := mixed_bounds a b
  rw [← ha, ← hb] at hlow hhigh ⊢
  exact toInt_mul_of_fits hlow hhigh

theorem toNat_unsignedProduct : (unsignedProduct a b).toNat = a.toNat * b.toNat := by
  rw [unsignedProduct, BitVec.toNat_mul, BitVec.toNat_setWidth_of_le (by decide),
    BitVec.toNat_setWidth_of_le (by decide), Nat.mod_eq_of_lt (unsigned_bound a b)]

/-- The high word of a double word is the quotient by `2 ^ 32`. -/
theorem signedHigh_eq (x : U64) :
    (x.sshiftRight 32).setWidth 32 = BitVec.ofInt 32 (x.toInt / 2 ^ 32) := by
  rw [← BitVec.signExtend_eq_setWidth_of_le _ (by decide), BitVec.signExtend,
    BitVec.toInt_sshiftRight, Int.shiftRight_eq_div_pow]
  rfl

theorem unsignedHigh_eq (x : U64) :
    (x >>> 32).setWidth 32 = BitVec.ofNat 32 (x.toNat / 2 ^ 32) := by
  rw [← Nat.shiftRight_eq_div_pow, ← BitVec.toNat_ushiftRight, BitVec.ofNat_toNat]

theorem toInt_signedHigh (x : U64) :
    ((x.sshiftRight 32).setWidth 32).toInt = (x.sshiftRight 32).toInt := by
  have hlow := BitVec.le_toInt (x := x)
  have hhigh := BitVec.toInt_lt (x := x)
  rw [signedHigh_eq, BitVec.toInt_sshiftRight, Int.shiftRight_eq_div_pow]
  exact BitVec.toInt_ofInt_eq_self (by decide) (by omega) (by omega)

theorem noOverflow : NoOverflow a b where
  signed := toInt_signedProduct a b
  mixed := toInt_mixedProduct a b
  unsigned := toNat_unsignedProduct a b
  signedHigh := toInt_signedHigh _
  mixedHigh := toInt_signedHigh _
  unsignedHigh := by
    rw [BitVec.toNat_setWidth, BitVec.toNat_ushiftRight, Nat.shiftRight_eq_div_pow]
    omega
  quotient := fun _ hcorner => toInt_sdiv_of_not_corner a b hcorner

end Products

/-- The operation is renumbered to a function that computes it. -/
theorem mulDivOp_computes (op : MulDivOp) :
    ∃ func, Riscv.Op.embiveFunc ((0b0000001#7 ++ op.funct3).setWidth 16) = some func ∧
      ∀ a b, OpAmo.compute func a b = some (op.result a b) := by
  cases op with
  | mul => exact ⟨_, rfl, fun _ _ => rfl⟩
  | mulh =>
    refine ⟨_, rfl, ?_⟩
    intro a b
    rw [MulDivOp.result, ← toInt_signedProduct, ← signedHigh_eq]
    rfl
  | mulhsu =>
    refine ⟨_, rfl, ?_⟩
    intro a b
    rw [MulDivOp.result, ← toInt_mixedProduct, ← signedHigh_eq]
    rfl
  | mulhu =>
    refine ⟨_, rfl, ?_⟩
    intro a b
    rw [MulDivOp.result, ← toNat_unsignedProduct, ← unsignedHigh_eq]
    rfl
  | div =>
    refine ⟨_, rfl, ?_⟩
    intro a b
    rw [MulDivOp.result, sdiv_eq, apply_ite some]
    rfl
  | divu =>
    refine ⟨_, rfl, ?_⟩
    intro a b
    rw [MulDivOp.result, udiv_eq, apply_ite some]
    rfl
  | rem =>
    refine ⟨_, rfl, ?_⟩
    intro a b
    rw [MulDivOp.result, srem_eq, apply_ite some]
    rfl
  | remu =>
    refine ⟨_, rfl, ?_⟩
    intro a b
    rw [MulDivOp.result, umod_eq, apply_ite some]
    rfl

/-- Every multiplication and division is accepted, and its conversion writes the result
for the values that its registers hold, with exact arithmetic and no overflow on the way. -/
theorem multiply_conforms [ElfCrate] {M : Type} [Memory M] :
    ExactArithmetic MulDivOp.result ∧ (∀ a b, NoOverflow a b) ∧
    ∀ (op : MulDivOp) (rd rs1 rs2 : BitVec 5),
      ∃ r, convert (op.encode rd rs1 rs2) = .ok r ∧ r.size = .word ∧
        ∀ s : Interpreter M, decodeExecute r.data s = .ok .running
          (s.advance rd (op.result (s.registers.value (rs1.setWidth 8))
            (s.registers.value (rs2.setWidth 8))) (s.programCounter + 4)) := by
  refine ⟨exactArithmetic_result, noOverflow, ?_⟩
  intro op rd rs1 rs2
  obtain ⟨func, hfunc, hcompute⟩ := mulDivOp_computes op
  obtain ⟨hconvert, hsize, hexecute⟩ := (op_converts rd rs1 rs2 _ _ hfunc).executes M rfl
  refine ⟨_, hconvert, hsize, ?_⟩
  intro s
  rw [hexecute]
  simp only [Decoded.action, OpAmo.effect, hcompute, perform_value, retire_eq]

end Embive.Transpiler
