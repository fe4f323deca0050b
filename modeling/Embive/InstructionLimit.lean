import Embive.Refinement
import Embive.Run

/-! # The instruction limit is invisible to the guest -/

namespace Embive

open EStateM Interpreter

variable {M : Type}

/-- The state with another instruction limit. -/
def Interpreter.withLimit (limit : U32) (s : Interpreter M) : Interpreter M :=
  { s with instructionLimit := limit }

@[simp] theorem withLimit_withLimit (m n : U32) (s : Interpreter M) :
    (s.withLimit n).withLimit m = s.withLimit m := rfl

/-- A result up to the instruction limit of its state. -/
def guestResult {α : Type} (r : Result Error (Interpreter M) α) :
    Result Error (Interpreter M) α := r.mapState (withLimit 0)

@[simp] theorem guestResult_mapState {α : Type} (limit : U32)
    (r : Result Error (Interpreter M) α) :
    guestResult (r.mapState (withLimit limit)) = guestResult r := by
  cases r <;> rfl

/-- The result of a bounded loop as the result of `run`. -/
def yielded : Result Error (Interpreter M) (Option State) → Result Error (Interpreter M) State
  | .ok (some state) s => .ok state s
  | .ok none s => .ok .running s
  | .error e s => .error e s

theorem yielded_mapState (g : Interpreter M → Interpreter M)
    (r : Result Error (Interpreter M) (Option State)) :
    yielded (r.mapState g) = (yielded r).mapState g := by
  cases r with
  | ok a t => cases a <;> rfl
  | error e t => rfl

theorem stopped_mapState (g : Interpreter M → Interpreter M)
    (r : Result Error (Interpreter M) (Option State)) :
    Lib.stopped (r.mapState g) = (Lib.stopped r).map (Result.mapState g) := by
  cases r with
  | ok a t => cases a <;> rfl
  | error e t => rfl

theorem commutes_onControlStatus (limit : U32) {α : Type}
    (f : CSRegisters → Except Error (α × CSRegisters)) :
    Commutes (withLimit limit) (onControlStatus f : Exec M α) := by
  intro s
  simp only [onControlStatus, withLimit]
  cases f s.registers.controlStatus <;> rfl

variable [Memory M]

theorem commutes_load (limit : U32) (w : ℕ) (address : U32) :
    Commutes (withLimit limit) (Interpreter.load w address : Exec M (BitVec w)) := by
  rw [Interpreter.load]
  apply commutes_onPart
  · intro s
    rfl
  · intro memory s
    rfl

theorem commutes_store (limit : U32) {w : ℕ} (value : BitVec w) (address : U32) :
    Commutes (withLimit limit) (Interpreter.store value address : Exec M PUnit) := by
  rw [Interpreter.store]
  apply commutes_onPart
  · intro s
    rfl
  · intro memory s
    rfl

theorem Effect.commutes_withLimit (limit : U32) (effect : Effect) :
    Commutes (withLimit limit) (effect.perform : Exec M I32) := by
  cases effect with
  | refuse error => exact commutes_throw error
  | value result => exact commutes_pure result
  | load extend address => exact (commutes_load limit _ address).bind (fun _ => commutes_pure _)
  | store stored address =>
    exact (commutes_store limit stored address).bind (fun _ => commutes_pure _)
  | readModifyWrite combine address =>
    exact (commutes_load limit 32 address).bind (fun value =>
      (commutes_store limit (combine value) address).bind (fun _ => commutes_pure _))
  | loadReserved address =>
    exact (commutes_load limit 32 address).bind (fun value => Commutes.bind (fun _ => rfl)
      (fun _ => commutes_pure _))
  | storeConditional stored address =>
    refine (commutes_load limit 32 address).bind (fun value =>
      Commutes.bind (fun _ => rfl) (fun reservation => ?_))
    split_ifs
    · exact (commutes_store limit stored address).bind (fun _ => commutes_pure _)
    · exact commutes_pure _
  | loadThenRefuse address error =>
    exact (commutes_load limit 32 address).bind (fun _ => commutes_throw error)
  | controlStatus op addr => exact commutes_onControlStatus limit (fun cs => cs.operation op addr)
  | trapReturn => exact commutes_onControlStatus limit (fun cs => .ok (0, cs.trapReturn.1))

theorem Action.commutes_withLimit (limit : U32) (action : Action) :
    Commutes (withLimit limit) (action.perform : Exec M State) := by
  refine (Effect.commutes_withLimit limit action.effect).bind (fun result => ?_)
  refine Commutes.bind (commutes_modify (fun s => ?_)) (fun _ => commutes_pure _)
  cases action.rd <;> rfl

theorem decodeExecute_commutes_withLimit (limit : U32) (data : U32) :
    Commutes (withLimit limit) (decodeExecute data : Exec M State) := by
  obtain ⟨inst, h⟩ := decodeInstruction_isSome data
  intro s
  rw [decodeExecute_eq_sized h, decodeExecuteSized_eq_perform _ _ h,
    decodeExecuteSized_eq_perform _ _ h]
  exact Action.commutes_withLimit limit _ s

theorem step_commutes_withLimit (limit : U32) :
    Commutes (withLimit limit) (step : Exec M State) := by
  refine Commutes.bind (fun s => ?_) (fun data => decodeExecute_commutes_withLimit limit data)
  exact commutes_load limit 32 s.programCounter s

theorem runBody_commutes_withLimit (limit : U32) :
    Commutes (withLimit limit) (runBody : Exec M (Option State)) := by
  refine (step_commutes_withLimit limit).bind (fun state => ?_)
  split_ifs <;> exact commutes_pure _

theorem runLimited_apply (n : ℕ) (s : Interpreter M) :
    runLimited n s = yielded (Lib.forUpTo runBody n s) := by
  rw [runLimited, bind_apply]
  cases Lib.forUpTo runBody n s with
  | ok a t => cases a <;> rfl
  | error e t => rfl

theorem runBody_ne_running {s t : Interpreter M} {state : State}
    (h : runBody s = .ok (some state) t) : state ≠ .running := by
  rw [runBody, bind_apply] at h
  cases hs : step s with
  | error e u =>
    rw [hs] at h
    cases h
  | ok state' u =>
    rw [hs] at h
    by_cases hr : state' = .running
    · subst state'
      cases h
    · simp only [ne_eq, hr, not_false_eq_true, if_true] at h
      cases h
      exact hr

/-- A loop of rounds is never left with the state it would go on in. -/
theorem forUpTo_runBody_ne_running {n : ℕ} {s t : Interpreter M} {state : State}
    (h : Lib.forUpTo runBody n s = .ok (some state) t) : state ≠ .running := by
  induction n generalizing s with
  | zero => cases h
  | succ n ih =>
    rw [Lib.forUpTo_succ] at h
    cases hs : runBody s with
    | error e u =>
      rw [hs] at h
      cases h
    | ok a u =>
      rw [hs] at h
      cases a with
      | none => exact ih h
      | some state' =>
        cases h
        exact runBody_ne_running hs

/-- A call of `run` with a positive limit. -/
theorem run_withLimit_pos {n : U32} (hn : 0 < n) (fuel : ℕ) (s : Interpreter M) :
    run fuel (s.withLimit n) =
      some ((yielded (Lib.forUpTo runBody n.toNat s)).mapState (withLimit n)) := by
  have hcomm := Lib.forUpTo_commutes (runBody_commutes_withLimit n) n.toNat s
  rw [Interpreter.run, if_pos (show 0 < (s.withLimit n).instructionLimit from hn), runLimited_apply]
  exact congrArg some ((congrArg yielded hcomm).trans (yielded_mapState _ _))

/-- A call of `run` without a limit. -/
theorem run_withLimit_zero (fuel : ℕ) (s : Interpreter M) :
    run fuel (s.withLimit 0) =
      (Lib.loopFuel runBody fuel s).map (Result.mapState (withLimit 0)) := by
  have hcomm := Lib.forUpTo_commutes (runBody_commutes_withLimit 0) fuel s
  rw [Interpreter.run, if_neg (show ¬0 < (s.withLimit 0).instructionLimit by simp [withLimit]),
    Lib.loopFuel_eq_stopped, Lib.loopFuel_eq_stopped, hcomm, stopped_mapState]

/-- The host calls `run` with one limit after the other, at most `calls` times, until
it returns something other than `Ok(Running)`. -/
def runSlices (fuel : ℕ) : (ℕ → U32) → ℕ → Interpreter M →
    Option (Result Error (Interpreter M) State)
  | _, 0, _ => none
  | limits, calls + 1, s =>
    match run fuel (s.withLimit (limits 0)) with
    | some (.ok .running t) => runSlices fuel (fun i => limits (i + 1)) calls t
    | r => r

/-- The host's calls execute the slices of the loop. -/
theorem runSlices_eq (fuel : ℕ) (limits : ℕ → U32) (hpos : ∀ i, 0 < limits i) (calls : ℕ)
    (s : Interpreter M) :
    (runSlices fuel limits calls s).map guestResult =
      (Lib.stopped (Lib.slices runBody (fun i => (limits i).toNat) calls s)).map guestResult := by
  induction calls generalizing limits s with
  | zero => rfl
  | succ calls ih =>
    rw [runSlices, run_withLimit_pos (hpos 0), Lib.slices_succ]
    cases hr : Lib.forUpTo runBody (limits 0).toNat s with
    | error e t => rfl
    | ok a t =>
      cases a with
      | some state =>
        have hne := forUpTo_runBody_ne_running hr
        cases state with
        | running => exact absurd rfl hne
        | called => rfl
        | waiting => rfl
        | halted => rfl
      | none =>
        have hih := ih (fun i => limits (i + 1)) (fun i => hpos (i + 1)) (t.withLimit (limits 0))
        rw [Lib.slices_eq_forUpTo, Lib.forUpTo_commutes (runBody_commutes_withLimit _),
          stopped_mapState, Option.map_map, ← Lib.slices_eq_forUpTo] at hih
        refine hih.trans ?_
        congr 1
        funext r
        exact guestResult_mapState _ r

/-- A run that is still going after `n` steps goes on as a run of the remaining length. -/
theorem run_withLimit_add (s : Interpreter M) (fuel : ℕ) {n m : U32} (hn : 0 < n) (hm : 0 < m)
    (hnm : n.toNat + m.toNat ≤ 2 ^ 32 - 1) :
    match run fuel (s.withLimit n) with
    | some (.ok .running s') =>
      (run fuel (s.withLimit (n + m))).map guestResult =
        (run fuel (s'.withLimit m)).map guestResult
    | r => (run fuel (s.withLimit (n + m))).map guestResult = r.map guestResult := by
  have hadd : (n + m).toNat = n.toNat + m.toNat := by
    rw [BitVec.toNat_add, Nat.mod_eq_of_lt (by omega)]
  have hpos : 0 < n + m := by
    rw [BitVec.lt_def] at hn ⊢
    rw [hadd]
    exact Nat.lt_of_lt_of_le hn (Nat.le_add_right _ _)
  rw [run_withLimit_pos hn, run_withLimit_pos hpos, hadd, Lib.forUpTo_add]
  cases hr : Lib.forUpTo runBody n.toNat s with
  | error e t => rfl
  | ok a t =>
    cases a with
    | some state =>
      have hne := forUpTo_runBody_ne_running hr
      cases state with
      | running => exact absurd rfl hne
      | called => rfl
      | waiting => rfl
      | halted => rfl
    | none =>
      have hrest := run_withLimit_pos hm fuel t
      simp only [yielded, Result.mapState_ok, withLimit_withLimit, hrest, Option.map_some,
        guestResult_mapState]

/-- Runs of positive limits reach the stop of the unlimited run. -/
theorem runSlices_of_run (s : Interpreter M) {fuel : ℕ} {r : Result Error (Interpreter M) State}
    (hr : run fuel (s.withLimit 0) = some r) {limits : ℕ → U32} (hpos : ∀ i, 0 < limits i) :
    ∃ calls r', runSlices fuel limits calls s = some r' ∧ guestResult r' = guestResult r := by
  rw [run_withLimit_zero] at hr
  obtain ⟨r0, hr0, rfl⟩ := Option.map_eq_some_iff.mp hr
  have hslices := Lib.slices_of_loopFuel runBody (fun i => (limits i).toNat) (fun i => hpos i) hr0
  have heq := runSlices_eq fuel limits hpos fuel s
  rw [hslices, Option.map_some] at heq
  obtain ⟨r', hr', hguest⟩ := Option.map_eq_some_iff.mp heq
  exact ⟨fuel, r', hr', hguest.trans (guestResult_mapState 0 r0).symm⟩

/-- A limited call executes at most its limit of steps. -/
theorem run_takes (s : Interpreter M) (fuel : ℕ) {n : U32} (hn : 0 < n) :
    ∃ k ≤ n.toNat, ∃ r, Lib.Takes runBody k (s.withLimit n) r ∧
      run fuel (s.withLimit n) = some (yielded r) := by
  have hlimited : 0 < (s.withLimit n).instructionLimit := hn
  obtain ⟨k, hk, htakes⟩ := Lib.forUpTo_takes runBody n.toNat (s.withLimit n)
  refine ⟨k, hk, _, htakes, ?_⟩
  rw [Interpreter.run, if_pos hlimited, runLimited_apply]
  rfl

/-- The instruction limit only decides where a run is cut: a run that is still
going after `n` steps goes on as a run of the remaining length, runs of positive
limits reach the stop of the unlimited run with the same result, and a limited
call executes at most its limit of steps. -/
theorem run_limit_invisible (s : Interpreter M) (fuel : ℕ) :
    (∀ n m : U32, 0 < n → 0 < m → n.toNat + m.toNat ≤ 2 ^ 32 - 1 →
      match run fuel (s.withLimit n) with
      | some (.ok .running s') =>
        (run fuel (s.withLimit (n + m))).map guestResult =
          (run fuel (s'.withLimit m)).map guestResult
      | r => (run fuel (s.withLimit (n + m))).map guestResult = r.map guestResult) ∧
    (∀ r, run fuel (s.withLimit 0) = some r → ∀ limits : ℕ → U32, (∀ i, 0 < limits i) →
      ∃ calls r', runSlices fuel limits calls s = some r' ∧ guestResult r' = guestResult r) ∧
    (∀ n : U32, 0 < n → ∃ k ≤ n.toNat, ∃ r, Lib.Takes runBody k (s.withLimit n) r ∧
      run fuel (s.withLimit n) = some (yielded r)) := by
  refine ⟨?_, ?_, ?_⟩
  · intro n m hn hm hnm
    exact run_withLimit_add s fuel hn hm hnm
  · intro r hr limits hpos
    exact runSlices_of_run s hr hpos
  · intro n hn
    exact run_takes s fuel hn

/-- A no-op, then `c.ebreak`. -/
def haltCode : SliceMemory := ⟨[0x03, 0x00, 0x15, 0x00, 0x00, 0x00], []⟩

theorem run_limit_invisible_haltCode : letI := Target.release64
    (∃ calls r', runSlices 2 (fun _ => 1) calls (new haltCode 0) = some r' ∧
      guestResult r' = .ok .halted { new haltCode 0 with programCounter := 4 }) ∧
    (Interpreter.run 2 ((new haltCode 0).withLimit (1 + 1))).map guestResult =
      (Interpreter.run 2 ({ new haltCode 1 with programCounter := 2 })).map guestResult ∧
    ∃ k ≤ 1, ∃ r, Lib.Takes runBody k ((new haltCode 0).withLimit 1) r ∧
      Interpreter.run 2 ((new haltCode 0).withLimit 1) = some (yielded r) := by
  let _ := Target.release64
  obtain ⟨hcut, hslices, hsteps⟩ := run_limit_invisible (new haltCode 0) 2
  exact ⟨hslices _ rfl (fun _ => 1) (fun _ => by decide),
    hcut 1 1 (by decide) (by decide) (by decide), hsteps 1 (by decide)⟩

end Embive
