import Mathlib

/-! # Maps of bit vectors that distribute over bitwise or

Masking, shifting, truncating and extending a word all distribute over `|||`.
A composition of such maps is determined by its values on the words with one
bit set, so an identity between two ways of moving the bits of a word is
decided by as many evaluations as the word has bits.
-/

namespace Embive.Lib

/-- `f` sends the zero word to the zero word and distributes over bitwise or. -/
@[fun_prop]
structure OrLinear {m n : ℕ} (f : BitVec m → BitVec n) : Prop where
  zero : f 0#m = 0#n
  or : ∀ x y, f (x ||| y) = f x ||| f y

namespace OrLinear

variable {k m n : ℕ} {f g : BitVec k → BitVec m}

@[fun_prop] theorem id : OrLinear (fun x : BitVec n => x) := ⟨rfl, fun _ _ => rfl⟩

theorem comp {g : BitVec m → BitVec n} (hg : OrLinear g) (hf : OrLinear f) :
    OrLinear (fun x => g (f x)) where
  zero := by rw [hf.zero, hg.zero]
  or x y := by rw [hf.or, hg.or]

@[fun_prop] theorem const_zero : OrLinear (fun _ : BitVec m => 0#n) :=
  ⟨rfl, fun _ _ => BitVec.or_zero.symm⟩

@[fun_prop] theorem sup (hf : OrLinear f) (hg : OrLinear g) : OrLinear (fun x => f x ||| g x) where
  zero := by rw [hf.zero, hg.zero, BitVec.or_zero]
  or x y := by
    rw [hf.or, hg.or]
    ext i hi
    simp only [BitVec.getElem_or]
    cases (f x)[i] <;> cases (f y)[i] <;> cases (g x)[i] <;> rfl

@[fun_prop] theorem mask (hf : OrLinear f) (c : BitVec m) : OrLinear (fun x => f x &&& c) where
  zero := by rw [hf.zero, BitVec.zero_and]
  or x y := by
    rw [hf.or]
    ext i hi
    simp only [BitVec.getElem_and, BitVec.getElem_or, Bool.and_or_distrib_right]

@[fun_prop] theorem shiftLeft (hf : OrLinear f) (c : ℕ) : OrLinear (fun x => f x <<< c) where
  zero := by rw [hf.zero, BitVec.zero_shiftLeft]
  or x y := by rw [hf.or, BitVec.shiftLeft_or_distrib]

@[fun_prop] theorem ushiftRight (hf : OrLinear f) (c : ℕ) : OrLinear (fun x => f x >>> c) where
  zero := by rw [hf.zero, BitVec.zero_ushiftRight]
  or x y := by rw [hf.or, BitVec.ushiftRight_or_distrib]

@[fun_prop] theorem sshiftRight (hf : OrLinear f) (c : ℕ) :
    OrLinear (fun x => (f x).sshiftRight c) where
  zero := by rw [hf.zero, BitVec.zero_sshiftRight]
  or x y := by rw [hf.or, BitVec.sshiftRight_or_distrib]

@[fun_prop] theorem setWidth (hf : OrLinear f) (c : ℕ) : OrLinear (fun x => (f x).setWidth c) where
  zero := by rw [hf.zero, BitVec.setWidth_zero]
  or x y := by rw [hf.or, BitVec.setWidth_or]

@[fun_prop] theorem signExtend (hf : OrLinear f) (c : ℕ) :
    OrLinear (fun x => (f x).signExtend c) where
  zero := by
    rw [hf.zero]
    ext i hi
    simp [BitVec.getElem_signExtend]
  or x y := by rw [hf.or, BitVec.signExtend_or]

@[fun_prop] theorem extractLsb' (hf : OrLinear f) (s c : ℕ) :
    OrLinear (fun x => (f x).extractLsb' s c) where
  zero := by rw [hf.zero, BitVec.extractLsb'_zero]
  or x y := by rw [hf.or, BitVec.extractLsb'_or]

@[fun_prop] theorem append {f : BitVec k → BitVec m} {g : BitVec k → BitVec n}
    (hf : OrLinear f) (hg : OrLinear g) : OrLinear (fun x => f x ++ g x) where
  zero := by rw [hf.zero, hg.zero, BitVec.zero_append_zero]
  or x y := by rw [hf.or, hg.or, BitVec.or_append]

/-- Two such maps agree on the words with their set bits below `j` when they
agree on one-bit words; the induction adds one bit position at a time. -/
private theorem eq_of_bits_below (hf : OrLinear f) (hg : OrLinear g)
    (h : ∀ i : Fin k, f (BitVec.twoPow k i) = g (BitVec.twoPow k i)) (j : ℕ) (hj : j ≤ k) :
    ∀ x : BitVec k, (∀ i, j ≤ i → x.getLsbD i = false) → f x = g x := by
  induction j with
  | zero =>
    intro x hx
    have h0 : x = 0#k := BitVec.eq_of_getLsbD_eq (fun i _ => by simp [hx i (Nat.zero_le i)])
    rw [h0, hf.zero, hg.zero]
  | succ j ih =>
    intro x hx
    let y := x &&& ~~~ BitVec.twoPow k j
    have hy : f y = g y := by
      refine ih (by omega) y (fun i hi => ?_)
      by_cases hij : i = j
      · subst i
        simp [y, show j < k by omega]
      · simp [y, hx i (by omega)]
    by_cases hb : x.getLsbD j
    · have hxy : x = y ||| BitVec.twoPow k j := by
        refine BitVec.eq_of_getLsbD_eq (fun i hi => ?_)
        by_cases hij : j = i
        · subst i
          simp [hb, hi]
        · simp [y, hi, Ne.symm hij]
      rw [hxy, hf.or, hg.or, hy, h ⟨j, by omega⟩]
    · refine ih (by omega) x (fun i hi => ?_)
      by_cases hij : i = j
      · subst i
        simpa using hb
      · exact hx i (by omega)

/-- Two such maps that agree on the one-bit words are equal. -/
theorem eq_of_oneBit (hf : OrLinear f) (hg : OrLinear g)
    (h : ∀ i : Fin k, f (BitVec.twoPow k i) = g (BitVec.twoPow k i)) : ∀ x, f x = g x :=
  fun x => eq_of_bits_below hf hg h k le_rfl x (fun i hi => BitVec.getLsbD_of_ge x i hi)

/-- The same for two maps of two words, as maps of the words' concatenation. -/
theorem eq_of_oneBit₂ {j : ℕ} {f g : BitVec j → BitVec k → BitVec m}
    (hf : OrLinear (fun v : BitVec (j + k) => f (v.extractLsb' k j) (v.extractLsb' 0 k)))
    (hg : OrLinear (fun v : BitVec (j + k) => g (v.extractLsb' k j) (v.extractLsb' 0 k)))
    (h : ∀ i : Fin (j + k),
      f ((BitVec.twoPow (j + k) i).extractLsb' k j) ((BitVec.twoPow (j + k) i).extractLsb' 0 k) =
        g ((BitVec.twoPow (j + k) i).extractLsb' k j) ((BitVec.twoPow (j + k) i).extractLsb' 0 k)) :
    ∀ x y, f x y = g x y := by
  intro x y
  have hx : (x ++ y).extractLsb' k j = x := by
    rw [BitVec.extractLsb'_append_eq_of_le le_rfl]
    simp
  have hy : (x ++ y).extractLsb' 0 k = y := by
    rw [BitVec.extractLsb'_append_eq_of_add_le (by omega)]
    simp
  have hxy := eq_of_oneBit hf hg h (x ++ y)
  rwa [hx, hy] at hxy

/-- Such a map is monotone in the set bits. -/
theorem le_of_or_eq (hf : OrLinear f) {x y : BitVec k} (h : x ||| y = y) : f x ||| f y = f y := by
  rw [← hf.or, h]

/-- When no masked bit's image is covered by the images of the other bits, the map
determines the masked bits of its argument. -/
theorem mask_eq_of_eq (hf : OrLinear f) (c : BitVec k)
    (h : ∀ i : Fin k, c.getLsbD i = true →
      f (BitVec.twoPow k i) ||| f (~~~BitVec.twoPow k i) ≠ f (~~~BitVec.twoPow k i))
    {x y : BitVec k} (hxy : f x = f y) : x &&& c = y &&& c := by
  have hbit (x y : BitVec k) (hxy : f x = f y) (i : ℕ) (hi : i < k) (hc : c.getLsbD i = true)
      (hx : x.getLsbD i = true) : y.getLsbD i = true := by
    by_contra hy
    have hone : BitVec.twoPow k i ||| x = x := by
      refine BitVec.eq_of_getLsbD_eq (fun j hj => ?_)
      by_cases hij : i = j
      · subst j
        simp [hx]
      · simp [hij]
    have hrest : y ||| ~~~BitVec.twoPow k i = ~~~BitVec.twoPow k i := by
      refine BitVec.eq_of_getLsbD_eq (fun j hj => ?_)
      by_cases hij : i = j
      · subst j
        simpa using hy
      · simp [hj, Ne.symm hij]
    have h1 := hf.le_of_or_eq hone
    have h2 := hf.le_of_or_eq hrest
    refine h ⟨i, hi⟩ hc ?_
    calc f (BitVec.twoPow k i) ||| f (~~~BitVec.twoPow k i)
        = f (BitVec.twoPow k i) ||| (f y ||| f (~~~BitVec.twoPow k i)) := by rw [h2]
      _ = f (BitVec.twoPow k i) ||| f x ||| f (~~~BitVec.twoPow k i) := by
        rw [hxy, BitVec.or_assoc]
      _ = f (~~~BitVec.twoPow k i) := by rw [h1, hxy, h2]
  refine BitVec.eq_of_getLsbD_eq (fun i hi => ?_)
  rw [BitVec.getLsbD_and, BitVec.getLsbD_and]
  by_cases hc : c.getLsbD i = true
  · have hiff : x.getLsbD i = true ↔ y.getLsbD i = true :=
      ⟨hbit x y hxy i hi hc, hbit y x hxy.symm i hi hc⟩
    rw [Bool.eq_iff_iff.mpr hiff]
  · simp [hc]

end OrLinear

end Embive.Lib
