import Embive.Lib.Loop

/-! # Computations that follow one another

One computation tracks another from related states when it does the same and ends in a related
state, unless the other one fails with an error that says it could not get on. The rules follow
the operations of the monad and bounded loops.
-/

universe u

namespace EStateM

variable {ε ε' δ σ σ' τ τ' α β : Type u}

/-- The outcomes are the same and the states related. -/
def Coincide (R : σ → τ → Prop) : Result ε σ α → Result ε τ α → Prop
  | .ok a s, .ok b t => a = b ∧ R s t
  | .error e s, .error e' t => e = e' ∧ R s t
  | _, _ => False

/-- From related states the second computation does what the first one does, unless that fails
with an error of this kind. -/
def Tracks (U : ε → Prop) (R : σ → τ → Prop) (x : EStateM ε σ α) (y : EStateM ε τ α) : Prop :=
  ∀ s t, R s t → (∃ e s', x s = .error e s' ∧ U e) ∨ Coincide R (x s) (y t)

variable {U : ε → Prop} {R : σ → τ → Prop} {x : EStateM ε σ α} {y : EStateM ε τ α}
  {f : α → EStateM ε σ β} {g : α → EStateM ε τ β}

theorem Tracks.ok (h : Tracks U R x y) {a : α} {s s' : σ} {t : τ} (hst : R s t)
    (hs : x s = .ok a s') : ∃ t', y t = .ok a t' ∧ R s' t' := by
  rcases h s t hst with ⟨e, s', he, -⟩ | hsame
  · rw [hs] at he
    cases he
  · rw [hs] at hsame
    cases hy : y t with
    | ok b t' =>
      rw [hy] at hsame
      obtain ⟨rfl, hst'⟩ := hsame
      exact ⟨t', rfl, hst'⟩
    | error e t' =>
      rw [hy] at hsame
      exact hsame.elim

theorem Tracks.error (h : Tracks U R x y) {e : ε} {s s' : σ} {t : τ} (hst : R s t)
    (hs : x s = .error e s') (he : ¬U e) : ∃ t', y t = .error e t' ∧ R s' t' := by
  rcases h s t hst with ⟨e', s', hs', he'⟩ | hsame
  · rw [hs] at hs'
    cases hs'
    exact absurd he' he
  · rw [hs] at hsame
    cases hy : y t with
    | ok b t' =>
      rw [hy] at hsame
      exact hsame.elim
    | error e' t' =>
      rw [hy] at hsame
      obtain ⟨rfl, hst'⟩ := hsame
      exact ⟨t', rfl, hst'⟩

theorem tracks_pure (a : α) : Tracks U R (pure a : EStateM ε σ α) (pure a) :=
  fun _ _ h => .inr ⟨rfl, h⟩

theorem tracks_throw (e : ε) : Tracks U R (throw e : EStateM ε σ α) (throw e) :=
  fun _ _ h => .inr ⟨rfl, h⟩

theorem tracks_modify {h : σ → σ} {h' : τ → τ} (hR : ∀ s t, R s t → R (h s) (h' t)) :
    Tracks U R (modify h : EStateM ε σ PUnit) (modify h') :=
  fun s t hst => .inr ⟨rfl, hR s t hst⟩

theorem Tracks.bind (hx : Tracks U R x y) (hf : ∀ a, Tracks U R (f a) (g a)) :
    Tracks U R (x >>= f) (y >>= g) := by
  intro s t hst
  cases hs : x s with
  | ok a s' =>
    obtain ⟨t', ht, hst'⟩ := hx.ok hst hs
    rw [bind_ok hs, bind_ok ht]
    exact hf a s' t' hst'
  | error e s' =>
    rw [bind_error hs]
    by_cases he : U e
    · exact .inl ⟨e, s', rfl, he⟩
    · obtain ⟨t', ht, hst'⟩ := hx.error hst hs he
      rw [bind_error ht]
      exact .inr ⟨rfl, hst'⟩

theorem tracks_reads {f : σ → Except ε α} {g : τ → Except ε α}
    (hok : ∀ s t a, R s t → f s = .ok a → g t = .ok a)
    (herror : ∀ s e, f s = .error e → U e) : Tracks U R (reads f) (reads g) := by
  intro s t hst
  rw [reads_apply, reads_apply]
  cases hs : f s with
  | ok a =>
    rw [hok s t a hst hs]
    exact .inr ⟨rfl, hst⟩
  | error e => exact .inl ⟨e, s, rfl, herror s e hs⟩

theorem tracks_updates {f : σ → Except ε σ} {g : τ → Except ε τ}
    (hok : ∀ s t s', R s t → f s = .ok s' → ∃ t', g t = .ok t' ∧ R s' t')
    (herror : ∀ s e, f s = .error e → U e) : Tracks U R (updates f) (updates g) := by
  intro s t hst
  rw [updates_apply, updates_apply]
  cases hs : f s with
  | ok s' =>
    obtain ⟨t', ht, hst'⟩ := hok s t s' hst hs
    rw [ht]
    exact .inr ⟨rfl, hst'⟩
  | error e => exact .inl ⟨e, s, rfl, herror s e hs⟩

/-- Related parts of related states. -/
theorem Tracks.onPart {S : σ' → τ' → Prop} {x : EStateM ε σ' α} {y : EStateM ε τ' α}
    {part : σ → σ'} {set : σ' → σ → σ} {part' : τ → τ'} {set' : τ' → τ → τ}
    (h : Tracks U S x y) (hpart : ∀ s t, R s t → S (part s) (part' t))
    (hset : ∀ s t, R s t → ∀ a b, S a b → R (set a s) (set' b t)) :
    Tracks U R (EStateM.onPart part set x) (EStateM.onPart part' set' y) := by
  intro s t hst
  rw [onPart_apply, onPart_apply]
  cases hs : x (part s) with
  | ok a b =>
    obtain ⟨c, ht, hbc⟩ := h.ok (hpart s t hst) hs
    rw [ht]
    exact .inr ⟨rfl, hset s t hst b c hbc⟩
  | error e b =>
    by_cases he : U e
    · exact .inl ⟨e, set b s, rfl, he⟩
    · obtain ⟨c, ht, hbc⟩ := h.error (hpart s t hst) hs he
      rw [ht]
      exact .inr ⟨rfl, hset s t hst b c hbc⟩

theorem Tracks.adaptExcept {U' : ε' → Prop} (h : Tracks U R x y) {f : ε → ε'}
    (hU : ∀ e, U e → U' (f e)) : Tracks U' R (x.adaptExcept f) (y.adaptExcept f) := by
  intro s t hst
  rw [adaptExcept_apply, adaptExcept_apply]
  cases hs : x s with
  | ok a s' =>
    obtain ⟨t', ht, hst'⟩ := h.ok hst hs
    rw [ht]
    exact .inr ⟨rfl, hst'⟩
  | error e s' =>
    by_cases he : U e
    · exact .inl ⟨f e, s', rfl, hU e he⟩
    · obtain ⟨t', ht, hst'⟩ := h.error hst hs he
      rw [ht]
      exact .inr ⟨rfl, hst'⟩

theorem Tracks.forUpTo {body : EStateM ε σ (Option β)} {body' : EStateM ε τ (Option β)}
    (h : Tracks U R body body') (n : ℕ) :
    Tracks U R (Embive.Lib.forUpTo body n) (Embive.Lib.forUpTo body' n) := by
  induction n with
  | zero => exact tracks_pure none
  | succ n ih =>
    apply h.bind
    intro a
    cases a with
    | none => exact ih
    | some b => exact tracks_pure (some b)

end EStateM
