import Mathlib

/-! # A table of slots

A slot is free or holds a value, and the same value may be in several slots. Filling a free
slot and freeing a filled one add a value to the multiset of those in the table and take one
copy of it away.
-/

universe u

namespace Embive.Lib.SlotTable

variable {α : Type u} [DecidableEq α] {N : ℕ} {slots : Vector (Option α) N}

omit [DecidableEq α] in
/-- The values in the table, as often as they are in it. -/
def contents (slots : Vector (Option α) N) : Multiset α :=
  (slots.toList : Multiset (Option α)).filterMap id

theorem count_contents (a : α) : (contents slots).count a = slots.count (some a) := by
  have hfilter : ∀ xs : List (Option α), (xs.filterMap id).count a = xs.count (some a) := by
    intro xs
    induction xs with
    | nil => rfl
    | cons x xs ih =>
      cases x with
      | none =>
        rw [List.filterMap_cons_none rfl, ih]
        simp
      | some b =>
        have hcons : (some b :: xs).filterMap id = b :: xs.filterMap id := rfl
        rw [hcons, List.count_cons, List.count_cons, ih]
        simp
  rw [contents, Multiset.filterMap_coe, Multiset.coe_count, hfilter]
  exact Vector.count_toList

omit [DecidableEq α] in
theorem mem_contents {a : α} : a ∈ contents slots ↔ some a ∈ slots := by
  simp [contents]

omit [DecidableEq α] in
/-- There is room for another value where a slot is free. -/
theorem card_contents_lt_iff : (contents slots).card < N ↔ none ∈ slots := by
  have hlength : slots.toList.length = N := Vector.length_toList
  rw [contents, Multiset.filterMap_coe, Multiset.coe_card]
  nth_rewrite 2 [← hlength]
  rw [List.length_filterMap_lt_length_iff_exists, ← Vector.mem_toList_iff]
  simp

omit [DecidableEq α] in
theorem contents_replicate : contents (Vector.replicate N (none : Option α)) = 0 := by
  simp [contents]

omit [DecidableEq α] in
/-- The slot that a search finds is one that it looks for. -/
theorem of_findFinIdx? {p : Option α → Bool} {i : Fin N} (h : slots.findFinIdx? p = some i) :
    p (slots.get i) = true := by
  rcases slots with ⟨slots, rfl⟩
  obtain ⟨hi, -⟩ : p slots[i.val] = true ∧ ∀ j, j < i → p slots[j.val] = false := by
    simpa using h
  exact hi

/-- Filling a free slot adds a value. -/
theorem contents_fill {i : Fin N} (h : slots.get i = none) (a : α) :
    contents (slots.set i (some a)) = a ::ₘ contents slots := by
  have hi : slots[i.val] = none := h
  ext b
  rw [count_contents, Vector.count_set, Multiset.count_cons, count_contents, hi]
  by_cases hb : b = a
  · subst hb
    simp
  · simp [hb, Ne.symm hb]

/-- Freeing a slot takes one copy of its value away. -/
theorem contents_free {i : Fin N} {a : α} (h : slots.get i = some a) :
    contents (slots.set i none) = (contents slots).erase a := by
  have hi : slots[i.val] = some a := h
  ext b
  rw [count_contents, Vector.count_set, hi]
  by_cases hb : b = a
  · subst hb
    rw [Multiset.count_erase_self, count_contents]
    simp
  · rw [Multiset.count_erase_of_ne hb, count_contents]
    simp [Ne.symm hb]

end Embive.Lib.SlotTable
