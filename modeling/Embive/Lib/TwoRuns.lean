import Embive.Lib.Fallible

/-! # Two runs side by side

Two computations relate from one relation of states to another when they return the same
value and leave related states, or fail with the same error. The rules follow the
operations of the monad.
-/

universe u

namespace EStateM

variable {ε σ τ α β : Type u}

/-- Two outcomes are equal up to their states, which are related after a return. -/
def Matches (S : α → σ → τ → Prop) : Result ε σ α → Result ε τ α → Prop
  | .ok a s, .ok b t => a = b ∧ S a s t
  | .error e _, .error e' _ => e = e'
  | _, _ => False

/-- From related states two computations have matching outcomes. -/
def Relates (R : σ → τ → Prop) (S : α → σ → τ → Prop) (x : EStateM ε σ α)
    (y : EStateM ε τ α) : Prop :=
  ∀ s t, R s t → Matches S (x s) (y t)

variable {R : σ → τ → Prop} {S : α → σ → τ → Prop} {T : β → σ → τ → Prop}
  {x : EStateM ε σ α} {y : EStateM ε τ α} {f : α → EStateM ε σ β} {g : α → EStateM ε τ β}

/-- Matching outcomes are two returns or two failures. -/
theorem Matches.cases {r : Result ε σ α} {r' : Result ε τ α} (h : Matches S r r') :
    (∃ a s t, r = .ok a s ∧ r' = .ok a t ∧ S a s t) ∨
      ∃ e s t, r = .error e s ∧ r' = .error e t := by
  cases r with
  | ok a s =>
    cases r' with
    | ok b t =>
      obtain ⟨rfl, hst⟩ := h
      exact .inl ⟨a, s, t, rfl, rfl, hst⟩
    | error e t => exact h.elim
  | error e s =>
    cases r' with
    | ok b t => exact h.elim
    | error e' t =>
      obtain rfl : e = e' := h
      exact .inr ⟨e, s, t, rfl, rfl⟩

theorem relates_pure {a : α} (h : ∀ s t, R s t → S a s t) :
    Relates R S (pure a : EStateM ε σ α) (pure a) :=
  fun s t hst => ⟨rfl, h s t hst⟩

theorem relates_throw (e : ε) : Relates R S (throw e : EStateM ε σ α) (throw e) :=
  fun _ _ _ => rfl

theorem Relates.bind (hx : Relates R S x y) (hf : ∀ a, Relates (S a) T (f a) (g a)) :
    Relates R T (x >>= f) (y >>= g) := by
  intro s t hst
  rcases (hx s t hst).cases with ⟨a, s', t', hxs, hyt, hst'⟩ | ⟨e, s', t', hxs, hyt⟩
  · rw [bind_ok hxs, bind_ok hyt]
    exact hf a s' t' hst'
  · rw [bind_error hxs, bind_error hyt]
    rfl

/-- The second run returns when the first one does. -/
theorem Relates.ok (h : Relates R S x y) {s s' : σ} {t : τ} {a : α} (hst : R s t)
    (hs : x s = .ok a s') : ∃ t', y t = .ok a t' ∧ S a s' t' := by
  rcases (h s t hst).cases with ⟨b, s'', t', hxs, hyt, hst'⟩ | ⟨e, s'', t', hxs, -⟩
  · rw [hs] at hxs
    cases hxs
    exact ⟨t', hyt, hst'⟩
  · rw [hs] at hxs
    cases hxs

/-- Two runs that match leave states with any relation that two returns give. -/
theorem Relates.strengthen {S' : α → σ → τ → Prop} {R' : σ → τ → Prop} (h : Relates R S x y)
    (hR : ∀ s t, R' s t → R s t) (hreturn : ∀ s t a s' t', R' s t → x s = .ok a s' →
      y t = .ok a t' → S' a s' t') : Relates R' S' x y := by
  intro s t hst
  rcases (h s t (hR s t hst)).cases with ⟨a, s', t', hxs, hyt, -⟩ | ⟨e, s', t', hxs, hyt⟩
  · rw [hxs, hyt]
    exact ⟨rfl, hreturn s t a s' t' hst hxs hyt⟩
  · rw [hxs, hyt]
    rfl

end EStateM
