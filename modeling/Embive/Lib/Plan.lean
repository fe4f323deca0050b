import Embive.Lib.Fallible
import Embive.Lib.Splice

/-! # Plans of what is written to a buffer

A computation on a buffer has a plan when nothing of the buffer matters but its length: it
lacks room in a buffer that is too short, and in every other it has one outcome, an error or
a result with patches of the buffer. Plans compose as the computations do.
-/

namespace Embive.Lib

open EStateM

/-- The length of buffer that is needed, and the outcome in a buffer that has it. -/
structure Plan (ε α β : Type) where
  room : ℕ
  outcome : Except ε (β × List (ℕ × List α))

variable {ε α β γ : Type} {limit : ℕ} {full : ε}

namespace Plan

/-- The plan is what the computation does to the buffers shorter than a limit, where it fails
in one way, and for no other reason, for the lack of room. -/
structure Describes (limit : ℕ) (full : ε) (plan : Plan ε α β) (x : EStateM ε (List α) β) :
    Prop where
  lacks : ∀ output, output.length < limit → output.length < plan.room →
    ∃ output', x output = .error full output'
  fails : ∀ e, plan.outcome = .error e → e ≠ full ∧ ∀ output, output.length < limit →
    plan.room ≤ output.length → ∃ output', x output = .error e output'
  writes : ∀ b patches, plan.outcome = .ok (b, patches) →
    (∀ p ∈ patches, p.1 + p.2.length ≤ plan.room) ∧ ∀ output, output.length < limit →
      plan.room ≤ output.length → x output = .ok b (patch patches output)

theorem describes_pure (b : β) :
    Describes limit full ⟨0, .ok (b, [])⟩ (pure b : EStateM ε (List α) β) where
  lacks output hlimit hroom := absurd hroom (Nat.not_lt_zero _)
  fails e h := by cases h
  writes b' patches h := by
    cases h
    refine ⟨?_, fun output hlimit hroom => rfl⟩
    intro p hp
    cases hp

/-- A failure for another reason than the lack of room needs none. -/
theorem describes_error {x : EStateM ε (List α) β} {e : ε} (he : e ≠ full)
    (h : ∀ output, ∃ output', x output = .error e output') :
    Describes limit full ⟨0, .error e⟩ x where
  lacks output hlimit hroom := absurd hroom (Nat.not_lt_zero _)
  fails e' he' := by
    cases he'
    exact ⟨he, fun output hlimit hroom => h output⟩
  writes b patches h' := by cases h'

variable {plan : Plan ε α β} {x : EStateM ε (List α) β} {f : β → EStateM ε (List α) γ}

/-- A failure that is planned is one of what follows as well. -/
theorem Describes.bind_error {e : ε} (hx : plan.Describes limit full x)
    (hplan : plan.outcome = .error e) :
    (⟨plan.room, .error e⟩ : Plan ε α γ).Describes limit full (x >>= f) where
  lacks output hlimit hroom := by
    obtain ⟨output', hrun⟩ := hx.lacks output hlimit hroom
    exact ⟨output', EStateM.bind_error hrun f⟩
  fails e' he' := by
    cases he'
    obtain ⟨hfull, hfails⟩ := hx.fails e hplan
    refine ⟨hfull, ?_⟩
    intro output hlimit hroom
    obtain ⟨output', hrun⟩ := hfails output hlimit hroom
    exact ⟨output', EStateM.bind_error hrun f⟩
  writes b patches h := by cases h

/-- What follows a result that is planned finds a buffer of the same length. -/
theorem Describes.bind_ok {b : β} {patches : List (ℕ × List α)} {rest : Plan ε α γ}
    (hx : plan.Describes limit full x) (hplan : plan.outcome = .ok (b, patches))
    (hf : rest.Describes limit full (f b)) :
    (⟨max plan.room rest.room, rest.outcome.map (fun r => (r.1, patches ++ r.2))⟩ :
      Plan ε α γ).Describes limit full (x >>= f) := by
  obtain ⟨hfits, hwrites⟩ := hx.writes b patches hplan
  have hlength {output : List α} (hroom : plan.room ≤ output.length) :
      (patch patches output).length = output.length :=
    patch_length (fun p hp => (hfits p hp).trans hroom)
  have hrun {output : List α} (hlimit : output.length < limit)
      (hroom : plan.room ≤ output.length) : (x >>= f) output = f b (patch patches output) :=
    EStateM.bind_ok (hwrites output hlimit hroom) f
  constructor
  · intro output hlimit hroom
    by_cases hfirst : output.length < plan.room
    · obtain ⟨output', hfull⟩ := hx.lacks output hlimit hfirst
      exact ⟨output', EStateM.bind_error hfull f⟩
    · have hroom' := not_lt.mp hfirst
      rw [hrun hlimit hroom']
      apply hf.lacks
      · rw [hlength hroom']
        exact hlimit
      · rw [hlength hroom']
        exact (lt_max_iff.mp hroom).resolve_left hfirst
  · intro e he
    dsimp only at he
    cases hrest : rest.outcome with
    | ok r =>
      rw [hrest] at he
      cases he
    | error e' =>
      rw [hrest] at he
      cases he
      obtain ⟨hfull, hfails⟩ := hf.fails e hrest
      refine ⟨hfull, ?_⟩
      intro output hlimit hroom
      have hroom' := (le_max_left _ _).trans hroom
      rw [hrun hlimit hroom']
      apply hfails
      · rw [hlength hroom']
        exact hlimit
      · rw [hlength hroom']
        exact (le_max_right _ _).trans hroom
  · intro c all hall
    dsimp only at hall
    cases hrest : rest.outcome with
    | error e =>
      rw [hrest] at hall
      cases hall
    | ok r =>
      obtain ⟨c', later⟩ := r
      rw [hrest] at hall
      cases hall
      obtain ⟨hfits', hwrites'⟩ := hf.writes c' later hrest
      constructor
      · intro p hp
        rcases List.mem_append.mp hp with hp | hp
        · exact (hfits p hp).trans (le_max_left _ _)
        · exact (hfits' p hp).trans (le_max_right _ _)
      · intro output hlimit hroom
        have hroom' := (le_max_left _ _).trans hroom
        have happend : patch (patches ++ later) output = patch later (patch patches output) :=
          List.foldl_append
        rw [hrun hlimit hroom', happend]
        apply hwrites'
        · rw [hlength hroom']
          exact hlimit
        · rw [hlength hroom']
          exact (le_max_right _ _).trans hroom

end Plan

/-- Some plan describes the computation. -/
def Planned (limit : ℕ) (full : ε) (x : EStateM ε (List α) β) : Prop :=
  ∃ plan : Plan ε α β, plan.Describes limit full x

variable {x : EStateM ε (List α) β} {f : β → EStateM ε (List α) γ}

theorem planned_pure (b : β) : Planned limit full (pure b : EStateM ε (List α) β) :=
  ⟨_, Plan.describes_pure b⟩

theorem Planned.bind (hx : Planned limit full x) (hf : ∀ b, Planned limit full (f b)) :
    Planned limit full (x >>= f) := by
  obtain ⟨plan, hplan⟩ := hx
  cases houtcome : plan.outcome with
  | error e => exact ⟨_, hplan.bind_error houtcome⟩
  | ok result =>
    obtain ⟨b, patches⟩ := result
    obtain ⟨rest, hrest⟩ := hf b
    exact ⟨_, hplan.bind_ok houtcome hrest⟩

end Embive.Lib
