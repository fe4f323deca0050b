import Embive.Rv32.Assembly

/-! # The multiplications and divisions of RV32M

Each instruction writes one word of an exact product, or the quotient or remainder of a
division that truncates towards zero. Together the words determine the arithmetic.
-/

namespace Embive.Rv32

inductive MulDivOp where
  | mul | mulh | mulhsu | mulhu | div | divu | rem | remu
  deriving DecidableEq

namespace MulDivOp

def funct3 : MulDivOp → BitVec 3
  | .mul => 0b000
  | .mulh => 0b001
  | .mulhsu => 0b010
  | .mulhu => 0b011
  | .div => 0b100
  | .divu => 0b101
  | .rem => 0b110
  | .remu => 0b111

def encode (op : MulDivOp) (rd rs1 rs2 : BitVec 5) : U32 :=
  rType 0b0000001 rs2 rs1 op.funct3 rd 0b0110011

/-- The value for the destination. -/
def result (op : MulDivOp) (a b : U32) : U32 :=
  match op with
  | .mul => a * b
  | .mulh => BitVec.ofInt 32 (a.toInt * b.toInt / 2 ^ 32)
  | .mulhsu => BitVec.ofInt 32 (a.toInt * b.toNat / 2 ^ 32)
  | .mulhu => BitVec.ofNat 32 (a.toNat * b.toNat / 2 ^ 32)
  | .div => if b = 0 then -1 else BitVec.ofInt 32 (a.toInt.tdiv b.toInt)
  | .divu => if b = 0 then -1 else BitVec.ofNat 32 (a.toNat / b.toNat)
  | .rem => if b = 0 then a else BitVec.ofInt 32 (a.toInt.tmod b.toInt)
  | .remu => if b = 0 then a else BitVec.ofNat 32 (a.toNat % b.toNat)

end MulDivOp

/-- The quotient and remainder of a division that truncates towards zero. -/
structure IsTruncatedDivision (a b q r : ℤ) : Prop where
  sum : a = b * q + r
  lt : |r| < |b|
  sign : r = 0 ∨ r.sign = a.sign

theorem isTruncatedDivision_tdiv (a : ℤ) {b : ℤ} (hb : b ≠ 0) :
    IsTruncatedDivision a b (a.tdiv b) (a.tmod b) where
  sum := (Int.mul_tdiv_add_tmod a b).symm
  lt := by
    rw [Int.abs_eq_natAbs, Int.abs_eq_natAbs, Int.natAbs_tmod]
    exact_mod_cast Nat.mod_lt _ (Int.natAbs_pos.mpr hb)
  sign := by
    rw [Int.sign_tmod]
    by_cases hdvd : b ∣ a
    · exact .inl (Int.tmod_eq_zero_of_dvd hdvd)
    · exact .inr (if_neg hdvd)

/-- There is one such quotient and one such remainder. -/
theorem isTruncatedDivision_iff {a b q r : ℤ} (hb : b ≠ 0) :
    IsTruncatedDivision a b q r ↔ q = a.tdiv b ∧ r = a.tmod b := by
  constructor
  · intro h
    have hlt := h.lt
    rw [Int.abs_eq_natAbs, Int.abs_eq_natAbs] at hlt
    have hsum : r + b * q = a := by rw [h.sum, add_comm]
    rcases le_total 0 a with ha | ha
    · have hr : 0 ≤ r := by
        rcases h.sign with hzero | hsign
        · exact hzero.ge
        · rw [← Int.sign_nonneg_iff, hsign]
          exact Int.sign_nonneg_iff.mpr ha
      obtain ⟨hq, hr⟩ := (Int.tdiv_tmod_unique ha hb).mpr ⟨hsum, hr, by omega⟩
      exact ⟨hq.symm, hr.symm⟩
    · have hr : r ≤ 0 := by
        rcases h.sign with hzero | hsign
        · exact hzero.le
        · rw [← Int.sign_nonpos_iff, hsign]
          exact Int.sign_nonpos_iff.mpr ha
      obtain ⟨hq, hr⟩ := (Int.tdiv_tmod_unique' ha hb).mpr ⟨hsum, by omega, hr⟩
      exact ⟨hq.symm, hr.symm⟩
  · rintro ⟨rfl, rfl⟩
    exact isTruncatedDivision_tdiv a hb

/-- The words of an exact product or division: a product is its high word times `2 ^ 32`
and its low word, a division by zero gives all ones and the dividend, and the one quotient
that is no word wraps. -/
structure ExactArithmetic (result : MulDivOp → U32 → U32 → U32) : Prop where
  signed : ∀ a b, (result .mulh a b).toInt * 2 ^ 32 + (result .mul a b).toNat =
    a.toInt * b.toInt
  mixed : ∀ a b, (result .mulhsu a b).toInt * 2 ^ 32 + (result .mul a b).toNat =
    a.toInt * b.toNat
  unsigned : ∀ a b, (result .mulhu a b).toNat * 2 ^ 32 + (result .mul a b).toNat =
    a.toNat * b.toNat
  div_rem : ∀ a b, b ≠ 0 → ¬(a = BitVec.intMin 32 ∧ b = -1) → ∀ q r,
    IsTruncatedDivision a.toInt b.toInt q r ↔
      q = (result .div a b).toInt ∧ r = (result .rem a b).toInt
  divu_remu : ∀ a b, b ≠ 0 → (result .divu a b).toNat = a.toNat / b.toNat ∧
    (result .remu a b).toNat = a.toNat % b.toNat
  by_zero : ∀ a, result .div a 0 = BitVec.allOnes 32 ∧ result .divu a 0 = BitVec.allOnes 32 ∧
    result .rem a 0 = a ∧ result .remu a 0 = a
  overflow : result .div (BitVec.intMin 32) (-1) = BitVec.intMin 32 ∧
    result .rem (BitVec.intMin 32) (-1) = 0

section Words

variable (a b : U32)

/-- The low word of the product is the same for every reading of the operands. -/
theorem mul_eq_signed : a * b = BitVec.ofInt 32 (a.toInt * b.toInt) := by
  rw [BitVec.ofInt_mul, BitVec.ofInt_toInt, BitVec.ofInt_toInt]

theorem mul_eq_mixed : a * b = BitVec.ofInt 32 (a.toInt * b.toNat) := by
  rw [BitVec.ofInt_mul, BitVec.ofInt_toInt, BitVec.ofInt_natCast, BitVec.ofNat_toNat,
    BitVec.setWidth_eq]

/-- A double word is its high word times `2 ^ 32` and its low word. -/
theorem words_of_int {p : ℤ} (hlow : -2 ^ 63 ≤ p) (hhigh : p < 2 ^ 63) :
    (BitVec.ofInt 32 (p / 2 ^ 32)).toInt * 2 ^ 32 + (BitVec.ofInt 32 p).toNat = p := by
  rw [BitVec.toInt_ofInt_eq_self (by decide) (by omega) (by omega), BitVec.toNat_ofInt]
  have hnonneg : 0 ≤ p % (2 ^ 32 : ℕ) := by omega
  rw [Int.toNat_of_nonneg hnonneg]
  omega

theorem words_of_nat {p : ℕ} (hhigh : p < 2 ^ 64) :
    (BitVec.ofNat 32 (p / 2 ^ 32)).toNat * 2 ^ 32 + (BitVec.ofNat 32 p).toNat = p := by
  rw [BitVec.toNat_ofNat, BitVec.toNat_ofNat]
  omega

theorem signed_bounds : -2 ^ 63 ≤ a.toInt * b.toInt ∧ a.toInt * b.toInt < 2 ^ 63 := by
  have hle := BitVec.toInt_mul_toInt_le (x := a) (y := b)
  have hge := BitVec.le_toInt_mul_toInt (x := a) (y := b)
  omega

theorem mixed_bounds : -2 ^ 63 ≤ a.toInt * b.toNat ∧ a.toInt * b.toNat < 2 ^ 63 := by
  have ha := BitVec.le_toInt (x := a)
  have ha' : a.toInt ≤ 2 ^ 31 - 1 := Int.le_sub_one_of_lt BitVec.toInt_lt
  have hb : (b.toNat : ℤ) < 2 ^ 32 := by exact_mod_cast b.isLt
  have hlow := mul_le_mul_of_nonneg_right ha (Int.natCast_nonneg b.toNat)
  have hhigh := mul_le_mul_of_nonneg_right ha' (Int.natCast_nonneg b.toNat)
  omega

theorem unsigned_bound : a.toNat * b.toNat < 2 ^ 64 :=
  calc a.toNat * b.toNat < 2 ^ 32 * 2 ^ 32 := Nat.mul_lt_mul'' a.isLt b.isLt
    _ = 2 ^ 64 := by norm_num

/-- The division of the machine is the truncated one, wrapped. -/
theorem sdiv_eq : BitVec.ofInt 32 (a.toInt.tdiv b.toInt) = a.sdiv b := by
  apply BitVec.eq_of_toInt_eq
  rw [BitVec.toInt_ofInt, BitVec.toInt_sdiv]

theorem toInt_sdiv_of_not_corner (h : ¬(a = BitVec.intMin 32 ∧ b = -1)) :
    (a.sdiv b).toInt = a.toInt.tdiv b.toInt := by
  apply BitVec.toInt_sdiv_of_ne_or_ne
  by_contra! hcorner
  exact h hcorner

theorem srem_eq : BitVec.ofInt 32 (a.toInt.tmod b.toInt) = a.srem b := by
  rw [← BitVec.toInt_srem, BitVec.ofInt_toInt]

theorem udiv_eq : BitVec.ofNat 32 (a.toNat / b.toNat) = a.udiv b := by
  rw [← BitVec.toNat_udiv, BitVec.ofNat_toNat, BitVec.setWidth_eq]
  rfl

theorem umod_eq : BitVec.ofNat 32 (a.toNat % b.toNat) = a.umod b := by
  rw [← BitVec.toNat_umod, BitVec.ofNat_toNat, BitVec.setWidth_eq]
  rfl

end Words

theorem exactArithmetic_result : ExactArithmetic MulDivOp.result where
  signed a b := by
    rw [MulDivOp.result, MulDivOp.result, mul_eq_signed]
    exact words_of_int (signed_bounds a b).1 (signed_bounds a b).2
  mixed a b := by
    rw [MulDivOp.result, MulDivOp.result, mul_eq_mixed]
    exact words_of_int (mixed_bounds a b).1 (mixed_bounds a b).2
  unsigned a b := by
    rw [MulDivOp.result, MulDivOp.result, BitVec.mul_def]
    exact words_of_nat (unsigned_bound a b)
  div_rem a b hb hcorner q r := by
    have hb' : b.toInt ≠ 0 := by
      rw [← BitVec.toInt_zero, BitVec.toInt_ne]
      exact hb
    rw [isTruncatedDivision_iff hb', MulDivOp.result, MulDivOp.result, if_neg hb, if_neg hb,
      sdiv_eq, srem_eq, toInt_sdiv_of_not_corner a b hcorner, BitVec.toInt_srem]
  divu_remu a b hb := by
    rw [MulDivOp.result, MulDivOp.result, if_neg hb, if_neg hb, udiv_eq, umod_eq]
    exact ⟨BitVec.toNat_udiv, BitVec.toNat_umod⟩
  by_zero a := ⟨rfl, rfl, rfl, rfl⟩
  overflow := by decide

end Embive.Rv32
