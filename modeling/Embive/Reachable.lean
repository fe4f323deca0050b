import Embive.Refinement
import Embive.Run

/-! # Reachable states

The host creates or resets an interpreter and then steps it, runs it, triggers
interrupts and answers system calls, in any order. A condition restricts the
instructions that are executed, so that an invariant need only be preserved by
those.
-/

namespace Embive

open EStateM Interpreter

variable {M : Type} [Memory M]

/-- A call of `run` in `s` executes an instruction in the state `t`. -/
def RunsThrough (s t : Interpreter M) : Prop :=
  ∃ k, (s.instructionLimit = 0 ∨ k < s.instructionLimit.toNat) ∧
    Lib.forUpTo runBody k s = .ok none t

/-- The states the host can bring an interpreter into when every instruction is
executed in a state that meets the condition. -/
inductive Reachable (P : Interpreter M → Prop) : Interpreter M → Prop
  | new (memory : M) (instructionLimit : U32) : Reachable P (new memory instructionLimit)
  | reset (s : Interpreter M) : Reachable P (Interpreter.reset s)
  | step {s : Interpreter M} (h : Reachable P s) (hs : P s) : Reachable P (step s).state
  | run {s : Interpreter M} {fuel : ℕ} {r : Result Error (Interpreter M) State}
      (h : Reachable P s) (hs : ∀ t, RunsThrough s t → P t)
      (hr : Interpreter.run fuel s = some r) : Reachable P r.state
  | interrupt {s : Interpreter M} (h : Reachable P s) (value : I32) :
      Reachable P (interrupt value s).state
  | syscall {s : Interpreter M} (h : Reachable P s) {E : Type} (function : SyscallFn M E) :
      Reachable P (syscall function s).state

/-- An invariant of the host's calls under a condition on the executed instructions. -/
structure Invariant (P I : Interpreter M → Prop) : Prop where
  new : ∀ memory instructionLimit, I (new memory instructionLimit)
  reset : ∀ s : Interpreter M, I s.reset
  step : ∀ s, I s → P s → I (Interpreter.step s).state
  interrupt : ∀ s value, I s → I (interrupt value s).state
  syscall : ∀ s {E : Type} (function : SyscallFn M E), I s → I (syscall function s).state

theorem runBody_state (s : Interpreter M) : (runBody s).state = (step s).state := by
  rw [runBody, bind_apply]
  cases step s with
  | ok state t => cases state <;> rfl
  | error e t => rfl

omit [Memory M] in
theorem stopped_state {r : Result Error (Interpreter M) (Option State)}
    {r' : Result Error (Interpreter M) State} (h : Lib.stopped r = some r') :
    r'.state = r.state := by
  cases r with
  | ok a t =>
    cases a with
    | none => cases h
    | some state =>
      cases h
      rfl
  | error e t =>
    cases h
    rfl

variable {P I : Interpreter M → Prop}

/-- A call of `run` keeps what the executed instructions keep. -/
theorem run_preserves {s : Interpreter M} (hs : ∀ t, RunsThrough s t → I t → I (step t).state)
    (h : I s) {fuel : ℕ} {r : Result Error (Interpreter M) State}
    (hr : Interpreter.run fuel s = some r) : I r.state := by
  have hround (t : Interpreter M) (ht : RunsThrough s t) (hI : I t) : I (runBody t).state :=
    runBody_state t ▸ hs t ht hI
  rw [Interpreter.run] at hr
  split at hr
  · have hloop : I (Lib.forUpTo runBody s.instructionLimit.toNat s).state :=
      Lib.forUpTo_invariant runBody h
        (fun k hk t hkt ht => hround t ⟨k, .inr hk, hkt⟩ ht)
    cases hr
    rw [runLimited, bind_apply]
    cases hn : Lib.forUpTo runBody s.instructionLimit.toNat s with
    | ok a t =>
      rw [hn] at hloop
      cases a <;> exact hloop
    | error e t =>
      rw [hn] at hloop
      exact hloop
  · have hzero : s.instructionLimit = 0 := by
      apply BitVec.eq_of_toNat_eq
      rw [BitVec.lt_def] at *
      simp at *
      omega
    rw [Lib.loopFuel_eq_stopped] at hr
    rw [stopped_state hr]
    exact Lib.forUpTo_invariant runBody h
      (fun k _ t hkt ht => hround t ⟨k, .inl hzero, hkt⟩ ht)

/-- The invariant holds after every call of `run`. -/
theorem Invariant.run (hI : Invariant P I) {s : Interpreter M} (h : I s)
    (hs : ∀ t, RunsThrough s t → P t) {fuel : ℕ} {r : Result Error (Interpreter M) State}
    (hr : Interpreter.run fuel s = some r) : I r.state :=
  run_preserves (fun t ht hIt => hI.step t hIt (hs t ht)) h hr

/-- The invariant holds in every reachable state. -/
theorem Invariant.reachable (hI : Invariant P I) {s : Interpreter M} (h : Reachable P s) :
    I s := by
  induction h with
  | new memory instructionLimit => exact hI.new memory instructionLimit
  | reset s => exact hI.reset s
  | step h hs ih => exact hI.step _ ih hs
  | run h hs hr ih => exact hI.run ih hs hr
  | interrupt h value ih => exact hI.interrupt _ value ih
  | syscall h function ih => exact hI.syscall _ function ih

omit [Memory M] in
/-- What triggering an interrupt does. -/
theorem interrupt_apply (value : I32) (s : Interpreter M) :
    Interpreter.interrupt value s =
      if s.registers.controlStatus.interruptEnabled then
        let trap := s.registers.controlStatus.setInterrupt.trapEntry s.programCounter value
        .ok ⟨⟩ { s with programCounter := trap.2, registers.controlStatus := trap.1 }
      else .error .interruptNotEnabled s := by
  cases h : s.registers.controlStatus.interruptEnabled
  · simp [Interpreter.interrupt, h]
  · simp [Interpreter.interrupt, h, onControlStatus]

omit [Memory M] in
/-- A system call changes the memory and, when it succeeds, the two result registers. -/
theorem syscall_cases {E : Type} (function : SyscallFn M E) (s : Interpreter M) :
    (∃ memory, (Interpreter.syscall function s).state = { s with memory := memory }) ∨
      ∃ memory result, (Interpreter.syscall function s).state =
        syscallResult result { s with memory := memory } := by
  simp only [Interpreter.syscall, bind_apply, get_apply, onPart_apply]
  cases function s.registers.cpu.inner[CPURegister.a7] s.syscallArguments s.memory with
  | ok result memory => exact .inr ⟨memory, result, rfl⟩
  | error e memory => exact .inl ⟨memory, rfl⟩

/-- The instruction at the program counter, and the state in which it is executed:
fetching it may change the memory. -/
def Fetches (s : Interpreter M) (inst : Decoded) (t : Interpreter M) : Prop :=
  ∃ data, Interpreter.load 32 s.programCounter s = .ok data t ∧ decodeInstruction data = some inst

namespace Fetches

variable {s t t' : Interpreter M} {inst inst' : Decoded}

theorem unique (h : Fetches s inst t) (h' : Fetches s inst' t') : inst = inst' ∧ t = t' := by
  obtain ⟨data, hload, hinst⟩ := h
  obtain ⟨data', hload', hinst'⟩ := h'
  rw [hload] at hload'
  cases hload'
  rw [hinst] at hinst'
  cases hinst'
  exact ⟨rfl, rfl⟩

theorem frame (h : Fetches s inst t) : t = { s with memory := t.memory } := by
  obtain ⟨data, hload, _⟩ := h
  rcases load_cases s 32 s.programCounter with ⟨data', memory, h⟩ | ⟨e, memory, h⟩ <;>
    rw [h] at hload <;> cases hload
  rfl

/-- A step performs the action of the fetched instruction. -/
theorem step (h : Fetches s inst t) :
    step s = (inst.action inst.size.toU32 t.registers t.programCounter).perform t := by
  obtain ⟨data, hload, hinst⟩ := h
  have hexec : Interpreter.step s = decodeExecute data t := bind_ok hload _
  rw [hexec, decodeExecute_eq_sized hinst, decodeExecuteSized_eq_perform _ _ hinst]

end Fetches

/-- A step fails to fetch, or fetches an instruction. -/
theorem step_cases (s : Interpreter M) :
    (∃ e memory, step s = .error e { s with memory := memory } ∧ ∀ inst t, ¬Fetches s inst t) ∨
      ∃ inst t, Fetches s inst t := by
  rcases load_cases s 32 s.programCounter with ⟨data, memory, h⟩ | ⟨e, memory, h⟩
  · obtain ⟨inst, hinst⟩ := decodeInstruction_isSome data
    exact .inr ⟨inst, _, data, h, hinst⟩
  · refine .inl ⟨e, memory, bind_error h _, ?_⟩
    rintro inst t ⟨data, hload, _⟩
    rw [h] at hload
    cases hload

/-- A step keeps what the fetched instruction keeps. -/
theorem step_preserves (hmemory : ∀ memory s, I s → I { s with memory := memory })
    {s : Interpreter M} (hperform : ∀ inst t, Fetches s inst t → I t →
      I ((inst.action inst.size.toU32 t.registers t.programCounter).perform t).state)
    (hs : I s) : I (step s).state := by
  rcases step_cases s with ⟨e, memory, hstep, -⟩ | ⟨inst, t, h⟩
  · rw [hstep]
    exact hmemory memory s hs
  · rw [h.step]
    exact hperform inst t h (h.frame ▸ hmemory t.memory s hs)

/-- A step keeps what every fetched instruction keeps, and what a failing fetch does. -/
theorem step_preserves_iff {C : Interpreter M → Decoded → Prop}
    (hmemory : ∀ memory s, I s → I { s with memory := memory })
    (hperform : ∀ data inst s, decodeInstruction data = some inst → I s →
      (I ((inst.action inst.size.toU32 s.registers s.programCounter).perform s).state ↔ C s inst))
    {s : Interpreter M} (hs : I s) :
    I (step s).state ↔ ∀ inst t, Fetches s inst t → C t inst := by
  rcases step_cases s with ⟨e, memory, hstep, hno⟩ | ⟨inst, t, h⟩
  · rw [hstep]
    exact iff_of_true (hmemory memory s hs) (fun inst t h => absurd h (hno inst t))
  · have ht : I t := h.frame ▸ hmemory t.memory s hs
    obtain ⟨data, _, hinst⟩ := id h
    rw [h.step, hperform data inst t hinst ht]
    refine ⟨fun hC inst' t' h' => ?_, fun hC => hC inst t h⟩
    obtain ⟨rfl, rfl⟩ := h.unique h'
    exact hC

end Embive
