import Embive.Lib.Fallible

/-! # Loops with an early exit

A loop body either leaves the loop with a value or goes round again. The
bounded loop makes at most a given number of rounds, the unbounded one is
followed as far as its fuel reaches. Cutting a loop into bounded slices changes
nothing: the slices together are the bounded loop of their total length. A
computation may also be repeated whatever it returns.
-/

universe u

namespace Embive.Lib

open EStateM

variable {ε σ β : Type u}

/-- At most `n` rounds; `none` means that all of them asked for another one. -/
def forUpTo (body : EStateM ε σ (Option β)) : ℕ → EStateM ε σ (Option β)
  | 0 => pure none
  | n + 1 => do
    match ← body with
    | some b => pure (some b)
    | none => forUpTo body n

/-- Rounds until the body leaves the loop; `none` means that the fuel ran out first. -/
def loopFuel (body : EStateM ε σ (Option β)) : ℕ → σ → Option (Result ε σ β)
  | 0, _ => none
  | n + 1, s =>
    match body s with
    | .ok (some b) t => some (.ok b t)
    | .ok none t => loopFuel body n t
    | .error e t => some (.error e t)

/-- Run slices of the given lengths one after the other until one leaves the loop. -/
def slices (body : EStateM ε σ (Option β)) : (ℕ → ℕ) → ℕ → EStateM ε σ (Option β)
  | _, 0 => pure none
  | limits, k + 1 => do
    match ← forUpTo body (limits 0) with
    | some b => pure (some b)
    | none => slices body (fun i => limits (i + 1)) k

/-- `Takes body k s r`: executing the body `k` times from `s` gives `r`, where
only the last execution may have left the loop or failed. -/
inductive Takes (body : EStateM ε σ (Option β)) : ℕ → σ → Result ε σ (Option β) → Prop
  | stay (s : σ) : Takes body 0 s (.ok none s)
  | leave {s t : σ} {b : β} (h : body s = .ok (some b) t) : Takes body 1 s (.ok (some b) t)
  | fail {s t : σ} {e : ε} (h : body s = .error e t) : Takes body 1 s (.error e t)
  | round {k : ℕ} {s t : σ} {r : Result ε σ (Option β)} (h : body s = .ok none t)
      (rest : Takes body k t r) : Takes body (k + 1) s r

/-- The outcome of a bounded loop read as the outcome of the unbounded one. -/
def stopped : Result ε σ (Option β) → Option (Result ε σ β)
  | .ok (some b) t => some (.ok b t)
  | .ok none _ => none
  | .error e t => some (.error e t)

variable (body : EStateM ε σ (Option β))

theorem forUpTo_succ (n : ℕ) (s : σ) :
    forUpTo body (n + 1) s = match body s with
      | .ok (some b) t => .ok (some b) t
      | .ok none t => forUpTo body n t
      | .error e t => .error e t := by
  rw [forUpTo, bind_apply]
  cases body s with
  | ok a t => cases a <;> rfl
  | error e t => rfl

theorem slices_succ (limits : ℕ → ℕ) (k : ℕ) (s : σ) :
    slices body limits (k + 1) s = match forUpTo body (limits 0) s with
      | .ok (some b) t => .ok (some b) t
      | .ok none t => slices body (fun i => limits (i + 1)) k t
      | .error e t => .error e t := by
  rw [slices, bind_apply]
  cases forUpTo body (limits 0) s with
  | ok a t => cases a <;> rfl
  | error e t => rfl

/-- A bounded loop splits at any round: the second part only runs, from where
the first one ended, when the first one used up its rounds. -/
theorem forUpTo_add (n m : ℕ) (s : σ) :
    forUpTo body (n + m) s = match forUpTo body n s with
      | .ok none t => forUpTo body m t
      | .ok (some b) t => .ok (some b) t
      | .error e t => .error e t := by
  induction n generalizing s with
  | zero => simp [forUpTo]
  | succ n ih =>
    rw [show n + 1 + m = n + m + 1 by omega, forUpTo_succ, forUpTo_succ]
    cases body s with
    | ok a t =>
      cases a with
      | none => exact ih t
      | some b => rfl
    | error e t => rfl

/-- One more round after those that asked for another one. -/
theorem forUpTo_succ_of_none {body : EStateM ε σ (Option β)} {n : ℕ} {s t : σ}
    (h : forUpTo body n s = .ok none t) : forUpTo body (n + 1) s = body t := by
  rw [forUpTo_add, h]
  dsimp only
  rw [forUpTo_succ]
  cases body t with
  | ok a u => cases a <;> rfl
  | error e u => rfl

/-- Once a bounded loop has stopped, more rounds change nothing. -/
theorem forUpTo_of_stopped {n m : ℕ} {s : σ} {r : Result ε σ β} (hnm : n ≤ m)
    (h : stopped (forUpTo body n s) = some r) : forUpTo body m s = forUpTo body n s := by
  obtain ⟨d, rfl⟩ := Nat.exists_eq_add_of_le hnm
  rw [forUpTo_add]
  cases hn : forUpTo body n s with
  | ok a t =>
    cases a with
    | none => simp [hn, stopped] at h
    | some b => rfl
  | error e t => rfl

/-- The unbounded loop, as far as the fuel reaches, is the bounded loop. -/
theorem loopFuel_eq_stopped (n : ℕ) (s : σ) :
    loopFuel body n s = stopped (forUpTo body n s) := by
  induction n generalizing s with
  | zero => rfl
  | succ n ih =>
    rw [loopFuel, forUpTo_succ]
    cases body s with
    | ok a t =>
      cases a with
      | none => exact ih t
      | some b => rfl
    | error e t => rfl

/-- Slices of any lengths make the bounded loop of their total length. -/
theorem slices_eq_forUpTo (limits : ℕ → ℕ) (k : ℕ) (s : σ) :
    slices body limits k s = forUpTo body (∑ i ∈ Finset.range k, limits i) s := by
  induction k generalizing limits s with
  | zero => rfl
  | succ k ih =>
    rw [slices_succ, Finset.sum_range_succ', Nat.add_comm, forUpTo_add]
    cases forUpTo body (limits 0) s with
    | ok a t =>
      cases a with
      | none => exact ih _ t
      | some b => rfl
    | error e t => rfl

/-- Slices of positive lengths reach the stop of the unbounded loop. -/
theorem slices_of_loopFuel (limits : ℕ → ℕ) (hpos : ∀ i, 0 < limits i) {n : ℕ} {s : σ}
    {r : Result ε σ β} (h : loopFuel body n s = some r) :
    stopped (slices body limits n s) = some r := by
  have hn : n ≤ ∑ i ∈ Finset.range n, limits i := by
    calc n = ∑ _i ∈ Finset.range n, 1 := by simp
      _ ≤ ∑ i ∈ Finset.range n, limits i := Finset.sum_le_sum (fun i _ => hpos i)
  rw [loopFuel_eq_stopped] at h
  rw [slices_eq_forUpTo, forUpTo_of_stopped body hn h, h]

/-- A bounded loop executes its body at most as often as its bound says. -/
theorem forUpTo_takes (n : ℕ) (s : σ) : ∃ k ≤ n, Takes body k s (forUpTo body n s) := by
  induction n generalizing s with
  | zero => exact ⟨0, le_rfl, .stay s⟩
  | succ n ih =>
    rw [forUpTo_succ]
    cases hs : body s with
    | ok a t =>
      cases a with
      | none =>
        obtain ⟨k, hk, hr⟩ := ih t
        exact ⟨k + 1, by omega, .round hs hr⟩
      | some b => exact ⟨1, by omega, .leave hs⟩
    | error e t => exact ⟨1, by omega, .fail hs⟩

/-- A bounded loop neither looks at nor changes what its body does not. -/
theorem forUpTo_commutes {g : σ → σ} {body : EStateM ε σ (Option β)} (h : Commutes g body)
    (n : ℕ) : Commutes g (forUpTo body n) := by
  induction n with
  | zero => exact commutes_pure none
  | succ n ih =>
    refine h.bind (fun a => ?_)
    cases a with
    | none => exact ih
    | some b => exact commutes_pure (some b)

/-- What every executed round preserves holds after the loop. The rounds executed
are those from the states a shorter loop ends in. -/
theorem forUpTo_invariant {I : σ → Prop} {n : ℕ} {s : σ} (hs : I s)
    (h : ∀ k < n, ∀ t, forUpTo body k s = .ok none t → I t → I (body t).state) :
    I (forUpTo body n s).state := by
  induction n with
  | zero => exact hs
  | succ n ih =>
    have hn := ih (fun k hk => h k (by omega))
    cases hr : forUpTo body n s with
    | error e t =>
      rw [hr] at hn
      rw [forUpTo_add, hr]
      exact hn
    | ok a t =>
      rw [hr] at hn
      cases a with
      | some b =>
        rw [forUpTo_add, hr]
        exact hn
      | none =>
        rw [forUpTo_succ_of_none hr]
        exact h n (by omega) t hr hn

section Projection

variable {τ : Type u} {π : σ → τ} {body : EStateM ε σ (Option β)}
  {body' : EStateM ε τ (Option β)}

theorem stopped_ok_none (s : σ) : stopped (.ok none s : Result ε σ (Option β)) = none := rfl

theorem of_stopped_eq_none {r : Result ε σ (Option β)} (h : stopped r = none) :
    ∃ t, r = .ok none t := by
  cases r with
  | ok a t =>
    cases a with
    | none => exact ⟨t, rfl⟩
    | some b => cases h
  | error e t => cases h

theorem stopped_mapState (r : Result ε σ (Option β)) :
    stopped (r.mapState π) = (stopped r).map (fun r => r.mapState π) := by
  cases r with
  | ok a t => cases a <;> rfl
  | error e t => rfl

/-- A loop that has not stopped had not stopped a round before either. -/
theorem forUpTo_pred {n : ℕ} {s u : σ} (h : forUpTo body (n + 1) s = .ok none u) :
    ∃ t, forUpTo body n s = .ok none t ∧ body t = .ok none u := by
  cases hn : forUpTo body n s with
  | ok a t =>
    cases a with
    | none =>
      rw [forUpTo_succ_of_none hn] at h
      exact ⟨t, rfl, h⟩
    | some b =>
      rw [forUpTo_add, hn] at h
      cases h
  | error e t =>
    rw [forUpTo_add, hn] at h
    cases h

/-- A loop is followed by the loop of a body that does the same to a part of the state in
every round they reach together. -/
theorem forUpTo_project {n : ℕ} {s : σ}
    (h : ∀ k < n, ∀ t, forUpTo body k s = .ok none t → forUpTo body' k (π s) = .ok none (π t) →
      (body t).mapState π = body' (π t)) :
    (forUpTo body n s).mapState π = forUpTo body' n (π s) := by
  induction n with
  | zero => rfl
  | succ n ih =>
    have hn := ih (fun k hk => h k (by omega))
    cases hr : forUpTo body n s with
    | ok a t =>
      rw [hr] at hn
      cases a with
      | none =>
        rw [forUpTo_succ_of_none hr, forUpTo_succ_of_none hn.symm]
        exact h n (by omega) t hr hn.symm
      | some b =>
        rw [forUpTo_add, forUpTo_add, hr, ← hn]
        rfl
    | error e t =>
      rw [hr] at hn
      rw [forUpTo_add, forUpTo_add, hr, ← hn]
      rfl

end Projection

section Times

variable {α : Type u} {x y : EStateM ε σ α}

/-- Execute a computation `n` times in a row and collect what it returns. -/
def times (x : EStateM ε σ α) : ℕ → EStateM ε σ (List α)
  | 0 => pure []
  | n + 1 => do
    let a ← x
    let rest ← times x n
    return a :: rest

theorem times_succ_ok {n : ℕ} {s t u : σ} {a : α} {rest : List α} (h : x s = .ok a t)
    (hrest : times x n t = .ok rest u) : times x (n + 1) s = .ok (a :: rest) u := by
  rw [times, bind_ok h, bind_ok hrest]
  rfl

/-- Two computations that agree wherever the first one gets to repeat alike. -/
theorem times_eq_of_agree {I : σ → Prop} (hx : Preserves I x) {n : ℕ} {s : σ} (hs : I s)
    (h : ∀ k < n, ∀ as t, times x k s = .ok as t → I t → x t = y t) :
    times x n s = times y n s := by
  induction n generalizing s with
  | zero => rfl
  | succ n ih =>
    have hfirst : x s = y s := h 0 (by omega) [] s rfl hs
    have hkeeps := hx s hs
    rw [times, times, bind_apply, bind_apply, ← hfirst]
    cases hr : x s with
    | error e t => rfl
    | ok a t =>
      rw [hr] at hkeeps
      have hagree : times x n t = times y n t := by
        apply ih hkeeps
        intro k hk as u hu hI
        exact h (k + 1) (by omega) (a :: as) u (times_succ_ok hr hu) hI
      dsimp only
      rw [bind_apply, bind_apply, hagree]

end Times

end Embive.Lib
