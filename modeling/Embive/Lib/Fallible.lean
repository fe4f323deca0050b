import Mathlib

/-! # Computations that change a state and may fail

A method that takes `&mut self` and returns a `Result` is an `EStateM`
computation: a failure keeps the state reached so far. The lemmas here say what
the monad's operations do at a given state, and how a computation on one
component acts on the whole state.
-/

universe u

namespace Except

variable {ε α β : Type u}

theorem bind_ok {x : Except ε α} {a : α} (h : x = .ok a) (f : α → Except ε β) :
    (x >>= f) = f a := by
  rw [h]
  rfl

theorem bind_eq_ok {x : Except ε α} {f : α → Except ε β} {b : β} (h : (x >>= f) = .ok b) :
    ∃ a, x = .ok a ∧ f a = .ok b := by
  cases x with
  | error e => cases h
  | ok a => exact ⟨a, rfl, h⟩

end Except

namespace EStateM

variable {ε σ τ α β : Type u}

/-- The state a computation ends in, whether it succeeded or failed. -/
def Result.state : Result ε σ α → σ
  | .ok _ s => s
  | .error _ s => s

/-- The same outcome with another final state. -/
def Result.mapState (f : σ → τ) : Result ε σ α → Result ε τ α
  | .ok a s => .ok a (f s)
  | .error e s => .error e (f s)

@[simp] theorem Result.state_ok (a : α) (s : σ) : (Result.ok a s : Result ε σ α).state = s := rfl

@[simp] theorem Result.state_error (e : ε) (s : σ) :
    (Result.error e s : Result ε σ α).state = s := rfl

@[simp] theorem Result.mapState_ok (f : σ → τ) (a : α) (s : σ) :
    (Result.ok a s : Result ε σ α).mapState f = .ok a (f s) := rfl

@[simp] theorem Result.mapState_error (f : σ → τ) (e : ε) (s : σ) :
    (Result.error e s : Result ε σ α).mapState f = .error e (f s) := rfl

@[simp] theorem Result.state_mapState (f : σ → τ) (r : Result ε σ α) :
    (r.mapState f).state = f r.state := by
  cases r <;> rfl

@[simp] theorem bind_apply (x : EStateM ε σ α) (f : α → EStateM ε σ β) (s : σ) :
    (x >>= f) s = match x s with
      | .ok a t => f a t
      | .error e t => .error e t := rfl

@[simp] theorem map_apply (f : α → β) (x : EStateM ε σ α) (s : σ) :
    (f <$> x) s = match x s with
      | .ok a t => .ok (f a) t
      | .error e t => .error e t := rfl

@[simp] theorem pure_apply (a : α) (s : σ) : (pure a : EStateM ε σ α) s = .ok a s := rfl

@[simp] theorem throw_apply (e : ε) (s : σ) : (throw e : EStateM ε σ α) s = .error e s := rfl

@[simp] theorem get_apply (s : σ) : (get : EStateM ε σ σ) s = .ok s s := rfl

@[simp] theorem modify_apply (f : σ → σ) (s : σ) :
    (modify f : EStateM ε σ PUnit) s = .ok ⟨⟩ (f s) := rfl

theorem bind_ok {x : EStateM ε σ α} {a : α} {s t : σ} (h : x s = .ok a t)
    (f : α → EStateM ε σ β) : (x >>= f) s = f a t := by
  rw [bind_apply, h]

theorem bind_error {x : EStateM ε σ α} {e : ε} {s t : σ} (h : x s = .error e t)
    (f : α → EStateM ε σ β) : (x >>= f) s = .error e t := by
  rw [bind_apply, h]

theorem bind_eq_ok {x : EStateM ε σ α} {f : α → EStateM ε σ β} {b : β} {s t : σ}
    (h : (x >>= f) s = .ok b t) : ∃ a u, x s = .ok a u ∧ f a u = .ok b t := by
  rw [bind_apply] at h
  cases hx : x s with
  | ok a u =>
    rw [hx] at h
    exact ⟨a, u, rfl, h⟩
  | error e u =>
    rw [hx] at h
    cases h

theorem bind_eq_error {x : EStateM ε σ α} {f : α → EStateM ε σ β} {e : ε} {s t : σ}
    (h : (x >>= f) s = .error e t) :
    x s = .error e t ∨ ∃ a u, x s = .ok a u ∧ f a u = .error e t := by
  rw [bind_apply] at h
  cases hx : x s with
  | ok a u =>
    rw [hx] at h
    exact .inr ⟨a, u, rfl, h⟩
  | error e' u =>
    rw [hx] at h
    cases h
    exact .inl rfl

/-- A method that only reads its state and may fail. -/
def reads (f : σ → Except ε α) : EStateM ε σ α := fun s =>
  match f s with
  | .ok a => .ok a s
  | .error e => .error e s

/-- A method that replaces its state, or fails and leaves it alone. -/
def updates (f : σ → Except ε σ) : EStateM ε σ PUnit := fun s =>
  match f s with
  | .ok t => .ok ⟨⟩ t
  | .error e => .error e s

/-- Run a computation on one component of a larger state. -/
def onPart (get : σ → τ) (set : τ → σ → σ) (x : EStateM ε τ α) : EStateM ε σ α := fun s =>
  (x (get s)).mapState (fun t => set t s)

theorem adaptExcept_apply {ε' : Type u} (f : ε → ε') (x : EStateM ε σ α) (s : σ) :
    x.adaptExcept f s = match x s with
      | .ok a t => .ok a t
      | .error e t => .error (f e) t := by
  rw [adaptExcept]
  cases x s <;> rfl

theorem reads_apply (f : σ → Except ε α) (s : σ) :
    reads f s = match f s with
      | .ok a => .ok a s
      | .error e => .error e s := rfl

theorem updates_apply (f : σ → Except ε σ) (s : σ) :
    updates f s = match f s with
      | .ok t => .ok ⟨⟩ t
      | .error e => .error e s := rfl

theorem onPart_apply (get : σ → τ) (set : τ → σ → σ) (x : EStateM ε τ α) (s : σ) :
    onPart get set x s = (x (get s)).mapState (fun t => set t s) := rfl

/-! ## What a computation leaves alone -/

/-- The invariant holds after the computation, also when it failed. -/
def Preserves (I : σ → Prop) (x : EStateM ε σ α) : Prop := ∀ s, I s → I (x s).state

/-- The computation neither looks at nor changes what `g` changes. -/
def Commutes (g : σ → σ) (x : EStateM ε σ α) : Prop := ∀ s, x (g s) = (x s).mapState g

/-- The computation fails with these errors only. -/
def Raises (E : ε → Prop) (x : EStateM ε σ α) : Prop := ∀ s e t, x s = .error e t → E e

section Preserves

variable {I : σ → Prop} {x : EStateM ε σ α} {f : α → EStateM ε σ β}

theorem preserves_pure (a : α) : Preserves I (pure a : EStateM ε σ α) := fun _ h => h

theorem preserves_throw (e : ε) : Preserves I (throw e : EStateM ε σ α) := fun _ h => h

theorem Preserves.bind (hx : Preserves I x) (hf : ∀ a, Preserves I (f a)) :
    Preserves I (x >>= f) := by
  intro s hs
  have ht := hx s hs
  rw [bind_apply]
  cases h : x s with
  | ok a t =>
    rw [h] at ht
    exact hf a t ht
  | error e t =>
    rw [h] at ht
    exact ht

theorem preserves_onPart {part : σ → τ} {set : τ → σ → σ} (h : ∀ t s, I s → I (set t s))
    (y : EStateM ε τ α) : Preserves I (onPart part set y) := by
  intro s hs
  rw [onPart_apply, Result.state_mapState]
  exact h _ s hs

end Preserves

section Raises

variable {E : ε → Prop} {x : EStateM ε σ α} {f : α → EStateM ε σ β}

theorem raises_pure (a : α) : Raises E (pure a : EStateM ε σ α) := by
  intro s e t h
  cases h

theorem raises_throw {e : ε} (he : E e) : Raises E (throw e : EStateM ε σ α) := by
  intro s e t h
  cases h
  exact he

theorem Raises.bind (hx : Raises E x) (hf : ∀ a, Raises E (f a)) : Raises E (x >>= f) := by
  intro s e t h
  rcases bind_eq_error h with hfirst | ⟨a, u, _, hrest⟩
  · exact hx s e t hfirst
  · exact hf a u e t hrest

theorem raises_reads {f : σ → Except ε α} (h : ∀ s e, f s = .error e → E e) :
    Raises E (reads f) := by
  intro s e t hr
  rw [reads_apply] at hr
  cases hf : f s with
  | ok a =>
    rw [hf] at hr
    cases hr
  | error e' =>
    rw [hf] at hr
    cases hr
    exact h s e hf

theorem raises_updates {f : σ → Except ε σ} (h : ∀ s e, f s = .error e → E e) :
    Raises E (updates f) := by
  intro s e t hr
  rw [updates_apply] at hr
  cases hf : f s with
  | ok a =>
    rw [hf] at hr
    cases hr
  | error e' =>
    rw [hf] at hr
    cases hr
    exact h s e hf

theorem raises_onPart {part : σ → τ} {set : τ → σ → σ} {y : EStateM ε τ α} (h : Raises E y) :
    Raises E (onPart part set y) := by
  intro s e t hr
  rw [onPart_apply] at hr
  cases hy : y (part s) with
  | ok a u =>
    rw [hy] at hr
    cases hr
  | error e' u =>
    rw [hy] at hr
    cases hr
    exact h _ _ _ hy

end Raises

section Commutes

variable {g : σ → σ} {x : EStateM ε σ α} {f : α → EStateM ε σ β}

theorem commutes_pure (a : α) : Commutes g (pure a : EStateM ε σ α) := fun _ => rfl

theorem commutes_throw (e : ε) : Commutes g (throw e : EStateM ε σ α) := fun _ => rfl

theorem Commutes.bind (hx : Commutes g x) (hf : ∀ a, Commutes g (f a)) : Commutes g (x >>= f) := by
  intro s
  rw [bind_apply, bind_apply, hx s]
  cases x s with
  | ok a t => exact hf a t
  | error e t => rfl

theorem commutes_modify {h : σ → σ} (hg : ∀ s, h (g s) = g (h s)) :
    Commutes g (modify h : EStateM ε σ PUnit) := by
  intro s
  simp [hg s]

theorem commutes_onPart {part : σ → τ} {set : τ → σ → σ} (hpart : ∀ s, part (g s) = part s)
    (hset : ∀ t s, set t (g s) = g (set t s)) (y : EStateM ε τ α) :
    Commutes g (onPart part set y) := by
  intro s
  rw [onPart_apply, onPart_apply, hpart]
  cases y (part s) with
  | ok a t => exact congrArg (Result.ok a) (hset t s)
  | error e t => exact congrArg (Result.error e) (hset t s)

end Commutes

end EStateM
