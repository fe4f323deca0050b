import Embive.Lib.Loop

/-! # Loops that look for input every so many rounds

A round or a look at the input leaves the loop or lets it go on. The counted loop looks at the
input after the rounds whose count is a multiple of the period. It is a loop of slices, each
of which is a round, a look at the input, and the rest of the period without another look.
-/

universe u

namespace Embive.Lib

open EStateM

variable {ε σ β : Type u}

/-- The second computation follows where the first one goes on. -/
def andThen (x y : EStateM ε σ (Option β)) : EStateM ε σ (Option β) := do
  match ← x with
  | some b => return some b
  | none => y

/-- At most `n` rounds, of which the first one has the count `k`. -/
def countUpTo (body : ℕ → EStateM ε σ (Option β)) : ℕ → ℕ → EStateM ε σ (Option β)
  | _, 0 => pure none
  | k, n + 1 => andThen (body k) (countUpTo body (k + 1) n)

/-- A round, and a look at the input if the count is a multiple of the period. -/
def pollRound (round poll : EStateM ε σ (Option β)) (period k : ℕ) : EStateM ε σ (Option β) :=
  if k % period = 0 then andThen round poll else round

/-- A round, a look at the input, and the other rounds of the period. -/
def pollSlice (round poll : EStateM ε σ (Option β)) (period : ℕ) : EStateM ε σ (Option β) :=
  andThen (andThen round poll) (forUpTo round (period - 1))

variable {x y z : EStateM ε σ (Option β)} {body body' : ℕ → EStateM ε σ (Option β)}
  {round poll : EStateM ε σ (Option β)} {period : ℕ}

theorem andThen_apply (x y : EStateM ε σ (Option β)) (s : σ) :
    andThen x y s = match x s with
      | .ok (some b) t => .ok (some b) t
      | .ok none t => y t
      | .error e t => .error e t := by
  rw [andThen, bind_apply]
  cases x s with
  | ok a t => cases a <;> rfl
  | error e t => rfl

theorem andThen_assoc : andThen (andThen x y) z = andThen x (andThen y z) := by
  funext s
  simp only [andThen_apply]
  cases x s with
  | ok a t => cases a <;> rfl
  | error e t => rfl

theorem pollRound_apply (round poll : EStateM ε σ (Option β)) (period k : ℕ) (s : σ) :
    pollRound round poll period k s = match round s with
      | .ok (some b) t => .ok (some b) t
      | .ok none t => if k % period = 0 then poll t else .ok none t
      | .error e t => .error e t := by
  rw [pollRound]
  split_ifs
  · rw [andThen_apply]
  · cases round s with
    | ok a t => cases a <;> rfl
    | error e t => rfl

theorem pure_none_andThen : andThen (pure none) y = y := rfl

theorem andThen_pure_none : andThen x (pure none) = x := by
  funext s
  rw [andThen_apply]
  cases x s with
  | ok a t => cases a <;> rfl
  | error e t => rfl

theorem forUpTo_succ_eq (body : EStateM ε σ (Option β)) (n : ℕ) :
    forUpTo body (n + 1) = andThen body (forUpTo body n) := rfl

/-- A counted loop splits at any round. -/
theorem countUpTo_add (k n m : ℕ) :
    countUpTo body k (n + m) = andThen (countUpTo body k n) (countUpTo body (k + n) m) := by
  induction n generalizing k with
  | zero => rw [Nat.zero_add, countUpTo, pure_none_andThen, Nat.add_zero]
  | succ n ih =>
    rw [Nat.add_right_comm, countUpTo, countUpTo, andThen_assoc, ih, Nat.add_assoc,
      Nat.add_comm 1 n]

theorem countUpTo_one (k : ℕ) : countUpTo body k 1 = body k := andThen_pure_none

/-- Where every round is the same, the count does not matter. -/
theorem countUpTo_eq_forUpTo {k n : ℕ} (h : ∀ i, k ≤ i → i < k + n → body i = round) :
    countUpTo body k n = forUpTo round n := by
  induction n generalizing k with
  | zero => rfl
  | succ n ih =>
    have hfirst : body k = round := h k le_rfl (by omega)
    have hrest : countUpTo body (k + 1) n = forUpTo round n := by
      apply ih
      intro i hk hi
      exact h i (by omega) (by omega)
    rw [countUpTo, forUpTo_succ_eq, hfirst, hrest]

/-- A period of the counted loop is a slice. -/
theorem countUpTo_period (hperiod : 0 < period) (j : ℕ) :
    countUpTo (pollRound round poll period) (period * j) period = pollSlice round poll period := by
  obtain ⟨p, rfl⟩ := Nat.exists_eq_succ_of_ne_zero hperiod.ne'
  have hfirst : pollRound round poll p.succ (p.succ * j) = andThen round poll :=
    if_pos (Nat.mul_mod_right p.succ j)
  have hrest : countUpTo (pollRound round poll p.succ) (p.succ * j + 1) p = forUpTo round p := by
    apply countUpTo_eq_forUpTo
    intro i hlow hhigh
    apply if_neg
    have hmod : i % p.succ = (i - p.succ * j) % p.succ := by
      conv_lhs => rw [show i = i - p.succ * j + p.succ * j by omega, Nat.add_mul_mod_self_left]
    rw [hmod, Nat.mod_eq_of_lt (by omega)]
    omega
  rw [countUpTo, hfirst, hrest]
  rfl

/-- The counted loop is a loop of slices. -/
theorem countUpTo_pollRound (hperiod : 0 < period) (n : ℕ) :
    countUpTo (pollRound round poll period) 0 (period * n) =
      forUpTo (pollSlice round poll period) n := by
  have hslices : ∀ j, countUpTo (pollRound round poll period) (period * j) (period * n) =
      forUpTo (pollSlice round poll period) n := by
    induction n with
    | zero => exact fun _ => rfl
    | succ n ih =>
      intro j
      rw [Nat.mul_succ, Nat.add_comm, countUpTo_add, countUpTo_period hperiod, ← Nat.mul_succ, ih]
      rfl
  exact hslices 0

end Embive.Lib
