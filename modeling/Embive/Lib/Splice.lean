import Mathlib

/-! # Slices of a list and overwriting them

A splice replaces as many elements of a list as it is given, from an index on. It is
read back by the slice at its place, and the slices apart from it are not changed.
-/

universe u

namespace Embive.Lib

variable {α : Type u} {xs ys zs : List α} {i j n m : ℕ}

/-- The elements from an index on, as many as are asked for. -/
def slice (xs : List α) (i n : ℕ) : List α := (xs.drop i).take n

/-- The list with the elements from an index on replaced. -/
def splice (xs : List α) (i : ℕ) (ys : List α) : List α :=
  xs.take i ++ ys ++ xs.drop (i + ys.length)

theorem slice_get : (slice xs i n)[j]? = if j < n then xs[i + j]? else none := by
  rw [slice, List.getElem?_take, List.getElem?_drop]

theorem slice_length (h : i + n ≤ xs.length) : (slice xs i n).length = n := by
  rw [slice, List.length_take, List.length_drop]
  omega

theorem slice_take (h : i + n ≤ m) : slice (xs.take m) i n = slice xs i n := by
  apply List.ext_getElem?
  intro k
  rw [slice_get, slice_get]
  by_cases hk : k < n
  · rw [if_pos hk, if_pos hk, List.getElem?_take, if_pos (by omega)]
  · rw [if_neg hk, if_neg hk]

@[simp] theorem splice_nil : splice xs i [] = xs := by
  rw [splice, List.append_nil, List.length_nil, Nat.add_zero, List.take_append_drop]

section Inside

variable (h : i + ys.length ≤ xs.length)

include h

theorem splice_length : (splice xs i ys).length = xs.length := by
  rw [splice, List.length_append, List.length_append, List.length_take, List.length_drop]
  omega

theorem splice_take : (splice xs i ys).take (i + ys.length) = xs.take i ++ ys := by
  apply List.take_left'
  rw [List.length_append, List.length_take]
  omega

theorem splice_drop : (splice xs i ys).drop (i + ys.length) = xs.drop (i + ys.length) := by
  apply List.drop_left'
  rw [List.length_append, List.length_take]
  omega

theorem splice_get :
    (splice xs i ys)[j]? = if i ≤ j ∧ j < i + ys.length then ys[j - i]? else xs[j]? := by
  have hfront : (xs.take i ++ ys).length = i + ys.length := by
    rw [List.length_append, List.length_take]
    omega
  have htake : (xs.take i).length = i := by
    rw [List.length_take]
    omega
  by_cases hend : j < i + ys.length
  · rw [splice, List.getElem?_append_left (hfront ▸ hend)]
    by_cases hstart : i ≤ j
    · rw [if_pos ⟨hstart, hend⟩, List.getElem?_append_right (by omega), htake]
    · rw [if_neg (by omega), List.getElem?_append_left (by omega), List.getElem?_take,
        if_pos (by omega)]
  · rw [if_neg (by omega), splice, List.getElem?_append_right (by omega), hfront,
      List.getElem?_drop, Nat.add_sub_cancel' (by omega)]

/-- A splice is read back. -/
theorem slice_splice : slice (splice xs i ys) i ys.length = ys := by
  apply List.ext_getElem?
  intro k
  rw [slice_get, splice_get h]
  by_cases hk : k < ys.length
  · rw [if_pos hk, if_pos (by omega), Nat.add_sub_cancel_left]
  · rw [if_neg hk, List.getElem?_eq_none (by omega)]

/-- A slice apart from a splice is not changed. -/
theorem slice_splice_of_disjoint (hdisjoint : j + n ≤ i ∨ i + ys.length ≤ j) :
    slice (splice xs i ys) j n = slice xs j n := by
  apply List.ext_getElem?
  intro k
  rw [slice_get, slice_get, splice_get h]
  by_cases hk : k < n
  · rw [if_pos hk, if_pos hk, if_neg (by omega)]
  · rw [if_neg hk, if_neg hk]

/-- A splice is overwritten by another one in its place. -/
theorem splice_splice (hlength : zs.length = ys.length) :
    splice (splice xs i ys) i zs = splice xs i zs := by
  have h' : i + zs.length ≤ xs.length := hlength ▸ h
  have h'' : i + zs.length ≤ (splice xs i ys).length := (splice_length h).symm ▸ h'
  apply List.ext_getElem?
  intro k
  rw [splice_get h'', splice_get h', splice_get h, hlength]
  by_cases hk : i ≤ k ∧ k < i + ys.length
  · rw [if_pos hk, if_pos hk]
  · rw [if_neg hk, if_neg hk, if_neg hk]

/-- A splice of the first elements is the same splice of the whole list. -/
theorem splice_of_take (hm : i + ys.length ≤ m) :
    splice (xs.take m) i ys = (splice xs i ys).take m := by
  have hfits : i + ys.length ≤ (xs.take m).length := by
    rw [List.length_take]
    omega
  apply List.ext_getElem?
  intro k
  rw [splice_get hfits, List.getElem?_take, List.getElem?_take, splice_get h]
  by_cases hk : i ≤ k ∧ k < i + ys.length
  · rw [if_pos hk, if_pos hk, if_pos (by omega)]
  · rw [if_neg hk, if_neg hk]

end Inside

/-- Apply patches, each an index and the elements that belong there, in their order. -/
def patch (patches : List (ℕ × List α)) (xs : List α) : List α :=
  patches.foldl (fun xs p => splice xs p.1 p.2) xs

@[simp] theorem patch_nil : patch [] xs = xs := rfl

@[simp] theorem patch_cons (p : ℕ × List α) (patches : List (ℕ × List α)) :
    patch (p :: patches) xs = patch patches (splice xs p.1 p.2) := rfl

section Patches

variable {patches : List (ℕ × List α)}

theorem patch_length (h : ∀ p ∈ patches, p.1 + p.2.length ≤ xs.length) :
    (patch patches xs).length = xs.length := by
  induction patches generalizing xs with
  | nil => rfl
  | cons p patches ih =>
    have hp := h p List.mem_cons_self
    have hlength := splice_length hp
    rw [patch_cons, ih, hlength]
    intro q hq
    rw [hlength]
    exact h q (List.mem_cons_of_mem p hq)

/-- An element that no patch reaches is not changed. -/
theorem patch_get (h : ∀ p ∈ patches, p.1 + p.2.length ≤ xs.length)
    (hj : ∀ p ∈ patches, j < p.1 ∨ p.1 + p.2.length ≤ j) : (patch patches xs)[j]? = xs[j]? := by
  induction patches generalizing xs with
  | nil => rfl
  | cons p patches ih =>
    have hp := h p List.mem_cons_self
    have hjp := hj p List.mem_cons_self
    have hlength := splice_length hp
    rw [patch_cons, ih, splice_get hp, if_neg (by omega)]
    · intro q hq
      rw [hlength]
      exact h q (List.mem_cons_of_mem p hq)
    · intro q hq
      exact hj q (List.mem_cons_of_mem p hq)

/-- An element that a patch reaches does not depend on the list, whatever later ones do. -/
theorem patch_get_congr (hlength : xs.length = ys.length)
    (h : ∀ p ∈ patches, p.1 + p.2.length ≤ xs.length)
    (hj : xs[j]? = ys[j]? ∨ ∃ p ∈ patches, p.1 ≤ j ∧ j < p.1 + p.2.length) :
    (patch patches xs)[j]? = (patch patches ys)[j]? := by
  induction patches generalizing xs ys with
  | nil =>
    apply hj.resolve_right
    rintro ⟨p, hp, -⟩
    cases hp
  | cons p patches ih =>
    have hp := h p List.mem_cons_self
    have hp' := hlength ▸ hp
    have hfirst := splice_length hp
    have hsecond := splice_length hp'
    rw [patch_cons, patch_cons]
    apply ih (by rw [hfirst, hsecond, hlength])
    · intro q hq
      rw [hfirst]
      exact h q (List.mem_cons_of_mem p hq)
    · rw [splice_get hp, splice_get hp']
      by_cases hin : p.1 ≤ j ∧ j < p.1 + p.2.length
      · rw [if_pos hin, if_pos hin]
        exact .inl rfl
      · rw [if_neg hin, if_neg hin]
        apply hj.imp_right
        rintro ⟨q, hq, hqj⟩
        rcases List.mem_cons.mp hq with rfl | hq
        · exact absurd hqj hin
        · exact ⟨q, hq, hqj⟩

/-- A slice that no patch reaches is not changed. -/
theorem slice_patch (h : ∀ p ∈ patches, p.1 + p.2.length ≤ xs.length)
    (hdisjoint : ∀ p ∈ patches, ∀ k, j ≤ k → k < j + n → k < p.1 ∨ p.1 + p.2.length ≤ k) :
    slice (patch patches xs) j n = slice xs j n := by
  apply List.ext_getElem?
  intro k
  rw [slice_get, slice_get]
  by_cases hk : k < n
  · rw [if_pos hk, if_pos hk, patch_get h]
    intro p hp
    exact hdisjoint p hp (j + k) (by omega) (by omega)
  · rw [if_neg hk, if_neg hk]

/-- A patch is read back when no later one reaches it. -/
theorem slice_patch_self {p : ℕ × List α} {before after : List (ℕ × List α)}
    (h : ∀ q ∈ before ++ p :: after, q.1 + q.2.length ≤ xs.length)
    (hdisjoint : ∀ q ∈ after, ∀ k, p.1 ≤ k → k < p.1 + p.2.length →
      k < q.1 ∨ q.1 + q.2.length ≤ k) :
    slice (patch (before ++ p :: after) xs) p.1 p.2.length = p.2 := by
  have hsplit : patch (before ++ p :: after) xs = patch after (splice (patch before xs) p.1 p.2) :=
    List.foldl_append
  have hbefore : (patch before xs).length = xs.length :=
    patch_length (fun q hq => h q (List.mem_append_left _ hq))
  have hp : p.1 + p.2.length ≤ (patch before xs).length := by
    rw [hbefore]
    exact h p (List.mem_append_right _ List.mem_cons_self)
  rw [hsplit, slice_patch, slice_splice hp]
  · intro q hq
    rw [splice_length hp, hbefore]
    exact h q (List.mem_append_right _ (List.mem_cons_of_mem p hq))
  · exact hdisjoint

end Patches

end Embive.Lib
