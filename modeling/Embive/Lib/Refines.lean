import Embive.Lib.Polling

/-! # Refinement of failing computations

A computation refines another one when it returns what the other one returns, in a related
state, and fails where the other one fails. Some failures of the other one say that nothing is
specified, and then the first one may do anything. The rules follow the operations of the
monad, lists of computations and loops.
-/

universe u v

namespace EStateM

variable {ε δ σ τ α β : Type u} {κ : Type v}

/-- The second outcome is one that the first one allows. -/
def Allows (U : δ → Prop) (R : σ → τ → Prop) : Result δ τ α → Result ε σ α → Prop
  | .ok a t, .ok b s => a = b ∧ R s t
  | .ok _ _, .error _ _ => False
  | .error d _, .ok _ _ => U d
  | .error _ _, .error _ _ => True

/-- From related states the first computation ends as the second one allows. -/
def Refines (U : δ → Prop) (R : σ → τ → Prop) (x : EStateM ε σ α) (y : EStateM δ τ α) : Prop :=
  ∀ s t, R s t → Allows U R (y t) (x s)

variable {U : δ → Prop} {R : σ → τ → Prop} {x : EStateM ε σ α} {y : EStateM δ τ α}
  {f : α → EStateM ε σ β} {g : α → EStateM δ τ β}

theorem allows_unspecified {d : δ} (h : U d) (t : τ) (r : Result ε σ α) :
    Allows U R (.error d t) r := by
  cases r with
  | ok a s => exact h
  | error e s => trivial

theorem Allows.ok {a : α} {t : τ} {r : Result ε σ α} (h : Allows U R (.ok a t) r) :
    ∃ s, r = .ok a s ∧ R s t := by
  cases r with
  | ok b s =>
    obtain ⟨rfl, hst⟩ := h
    exact ⟨s, rfl, hst⟩
  | error e s => exact h.elim

/-- The relation may say more when the state that the first one ends in does. -/
theorem Allows.strengthen {R' : σ → τ → Prop} {r : Result δ τ α} {r' : Result ε σ α}
    (h : Allows U R r r') (hstate : ∀ t, R r'.state t → R' r'.state t) : Allows U R' r r' := by
  cases r with
  | ok a t =>
    obtain ⟨s, rfl, hst⟩ := h.ok
    exact ⟨rfl, hstate t hst⟩
  | error d t =>
    cases r' with
    | ok b s => exact h
    | error e s => trivial

theorem refines_pure (a : α) : Refines U R (pure a : EStateM ε σ α) (pure a) :=
  fun _ _ h => ⟨rfl, h⟩

theorem Refines.bind (hx : Refines U R x y) (hf : ∀ a, Refines U R (f a) (g a)) :
    Refines U R (x >>= f) (y >>= g) := by
  intro s t hst
  have hfirst := hx s t hst
  rw [bind_apply, bind_apply]
  cases hy : y t with
  | ok a t' =>
    rw [hy] at hfirst
    obtain ⟨s', hs, hst'⟩ := hfirst.ok
    rw [hs]
    exact hf a s' t' hst'
  | error d t' =>
    rw [hy] at hfirst
    cases hs : x s with
    | ok b s' =>
      rw [hs] at hfirst
      have hd : U d := hfirst
      exact allows_unspecified hd t' _
    | error e s' => trivial

theorem Refines.map (h : Refines U R x y) (f : α → β) : Refines U R (f <$> x) (f <$> y) :=
  h.bind (fun a => refines_pure (f a))

/-- Related parts of related states. -/
theorem Refines.onPart {σ' τ' : Type u} {R' : σ' → τ' → Prop} {x : EStateM ε σ' α}
    {y : EStateM δ τ' α} {part : σ → σ'} {set : σ' → σ → σ} {part' : τ → τ'} {set' : τ' → τ → τ}
    (h : Refines U R' x y) (hpart : ∀ s t, R s t → R' (part s) (part' t))
    (hset : ∀ s t, R s t → ∀ a b, R' a b → R (set a s) (set' b t)) :
    Refines U R (EStateM.onPart part set x) (EStateM.onPart part' set' y) := by
  intro s t hst
  have hallows := h (part s) (part' t) (hpart s t hst)
  rw [onPart_apply, onPart_apply]
  cases hy : y (part' t) with
  | ok a b =>
    rw [hy] at hallows
    obtain ⟨c, hx, hab⟩ := hallows.ok
    rw [hx]
    exact ⟨rfl, hset s t hst c b hab⟩
  | error d b =>
    rw [hy] at hallows
    cases hx : x (part s) with
    | ok a c =>
      rw [hx] at hallows
      exact hallows
    | error e c => trivial

/-- The kind of the first one's errors does not matter. -/
theorem Refines.adaptExcept {ε' : Type u} (h : Refines U R x y) (f : ε → ε') :
    Refines U R (x.adaptExcept f) y := by
  intro s t hst
  have hallows := h s t hst
  rw [EStateM.adaptExcept]
  cases hx : x s with
  | ok a s' =>
    rw [hx] at hallows
    cases hy : y t with
    | ok b t' =>
      rw [hy] at hallows
      exact hallows
    | error d t' =>
      rw [hy] at hallows
      exact hallows
  | error e s' =>
    rw [hx] at hallows
    cases hy : y t with
    | ok b t' =>
      rw [hy] at hallows
      exact hallows.elim
    | error d t' => trivial

/-- A computation refines itself, whatever the kind of its errors is said to be. -/
theorem refines_adaptExcept (x : EStateM ε σ α) (f : ε → δ) :
    Refines U Eq x (x.adaptExcept f) := by
  rintro s _ rfl
  rw [adaptExcept_apply]
  cases x s with
  | ok a t => exact ⟨rfl, rfl⟩
  | error e t => trivial

section Loops

open Embive.Lib

variable {body : EStateM ε σ (Option β)} {body' : EStateM δ τ (Option β)}

theorem Refines.andThen {next : EStateM ε σ (Option β)} {next' : EStateM δ τ (Option β)}
    (h : Refines U R body body') (hnext : Refines U R next next') :
    Refines U R (andThen body next) (andThen body' next') := by
  apply h.bind
  intro a
  cases a with
  | none => exact hnext
  | some b => exact refines_pure (some b)

theorem Refines.forUpTo (h : Refines U R body body') (n : ℕ) :
    Refines U R (forUpTo body n) (forUpTo body' n) := by
  induction n with
  | zero => exact refines_pure none
  | succ n ih =>
    apply h.bind
    intro a
    cases a with
    | none => exact ih
    | some b => exact refines_pure (some b)

end Loops

end EStateM
