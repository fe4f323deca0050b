import Embive.FailedStep

/-! # Load-reserved and store-conditional over whole runs

The single reservation cell is compared with the history of a run: it holds what the
last load-reserved instruction saw, as long as no store conditional has followed.
-/

namespace Embive

open EStateM Interpreter

/-- An executed load-reserved instruction with its address and the value it returned,
or an executed store conditional with its address. -/
inductive ReservationEvent where
  | loadReserved (address : U32) (value : I32)
  | storeConditional (address : U32)
  deriving DecidableEq

theorem OpAmo.effect_of_lr (regs : Registers) (pc : U32) {data : TypeR}
    (h : data.func = lrFunc) :
    OpAmo.compute data.func (regs.value data.rs1) (regs.value data.rs2) = none ∧
      OpAmo.effect regs pc data = .loadReserved (regs.value data.rs1) := by
  have hcompute : OpAmo.compute data.func (regs.value data.rs1) (regs.value data.rs2) = none := by
    rw [h]
    rfl
  refine ⟨hcompute, ?_⟩
  simp only [OpAmo.effect, hcompute, if_pos h]

theorem OpAmo.effect_of_sc {regs : Registers} {pc : U32} {data : TypeR} (h : data.func = scFunc) :
    OpAmo.effect regs pc data =
      .storeConditional (regs.value data.rs2) (regs.value data.rs1) := by
  have hcompute : OpAmo.compute data.func (regs.value data.rs1) (regs.value data.rs2) = none := by
    rw [h]
    rfl
  have hlr : data.func ≠ lrFunc := by
    rw [h]
    decide
  simp only [OpAmo.effect, hcompute, if_neg hlr, if_pos h]

theorem OpAmo.effect_not_reserving {regs : Registers} {pc : U32} {data : TypeR}
    (hlr : data.func ≠ lrFunc) (hsc : data.func ≠ scFunc) :
    ¬(OpAmo.effect regs pc data).IsReserving := by
  rcases OpAmo.effect_cases regs pc data with
    ⟨_, he⟩ | ⟨h, -⟩ | ⟨h, -⟩ | ⟨_, -, he⟩ | he
  · rw [he]
    exact id
  · exact absurd h hlr
  · exact absurd h hsc
  · rw [he]
    exact id
  · rw [he]
    exact id

section History

variable [Target]

/-- What a register or atomic operation adds to the history. -/
def OpAmo.event (data : TypeR) (s : Interpreter SliceMemory) : List ReservationEvent :=
  let rs1 := s.registers.value data.rs1
  if data.func = lrFunc then
    match OpAmo.atomic data.func rs1 (s.registers.value data.rs2) s with
    | .ok value _ => [.loadReserved rs1 value]
    | .error _ _ => []
  else if data.func = scFunc then [.storeConditional rs1]
  else []

/-- What an instruction adds to the history. -/
def Decoded.event (s : Interpreter SliceMemory) : Decoded → List ReservationEvent
  | .opAmo data => OpAmo.event data s
  | _ => []

/-- What the instruction at the program counter adds to the history. -/
def stepEvent (s : Interpreter SliceMemory) : List ReservationEvent :=
  match Interpreter.load 32 s.programCounter s with
  | .ok data _ => ((decodeInstruction data).map (Decoded.event s)).getD []
  | .error _ _ => []

/-- The runs from a fresh or reset interpreter in which every step succeeds, with
interrupts and system calls in between, each with its history: the events since the
start or the last reset, the most recent one first. -/
inductive SuccessfulRun : List ReservationEvent → Interpreter SliceMemory → Prop
  | new (memory : SliceMemory) (instructionLimit : U32) :
      SuccessfulRun [] (new memory instructionLimit)
  | reset (s : Interpreter SliceMemory) : SuccessfulRun [] (Interpreter.reset s)
  | step {history : List ReservationEvent} {s t : Interpreter SliceMemory} {state : State}
      (h : SuccessfulRun history s) (hs : step s = .ok state t) :
      SuccessfulRun (stepEvent s ++ history) t
  | interrupt {history : List ReservationEvent} {s : Interpreter SliceMemory}
      (h : SuccessfulRun history s) (value : I32) :
      SuccessfulRun history (interrupt value s).state
  | syscall {history : List ReservationEvent} {s : Interpreter SliceMemory}
      (h : SuccessfulRun history s) {E : Type} (function : SyscallFn SliceMemory E) :
      SuccessfulRun history (syscall function s).state

/-- The reservation that a history leaves behind. -/
def reservationOf : List ReservationEvent → Option (U32 × I32)
  | .loadReserved address value :: _ => some (address, value)
  | _ => none

theorem Fetches.stepEvent {s : Interpreter SliceMemory} {inst : Decoded} (h : Fetches s inst s) :
    stepEvent s = inst.event s := by
  obtain ⟨data, hload, hinst⟩ := h
  simp [Embive.stepEvent, hload, hinst]

/-- A successful step is a successful effect and the retirement of its value. -/
theorem step_ok {s t : Interpreter SliceMemory} {state : State} (h : step s = .ok state t) :
    ∃ inst result u, Fetches s inst s ∧
      (inst.action inst.size.toU32 s.registers s.programCounter).effect.perform s = .ok result u ∧
      t = u.retire (inst.action inst.size.toU32 s.registers s.programCounter).rd result
        (inst.action inst.size.toU32 s.registers s.programCounter).pc ∧
      state = (inst.action inst.size.toU32 s.registers s.programCounter).state := by
  obtain ⟨data, u, hfetch, _⟩ := bind_eq_ok h
  obtain ⟨inst, hinst⟩ := decodeInstruction_isSome data
  have hf : Fetches s inst u := ⟨data, hfetch, hinst⟩
  obtain rfl := hf.state_eq
  rw [hf.step] at h
  obtain ⟨result, v, heffect, hretire⟩ := bind_eq_ok h
  cases hretire
  exact ⟨inst, result, v, hf, heffect, rfl, rfl⟩

theorem Effect.perform_reservation {effect : Effect} {s t : Interpreter SliceMemory} {result : I32}
    (h : effect.perform s = .ok result t) (hno : ¬effect.IsReserving) :
    t.memoryReservation = s.memoryReservation := by
  have hs := Effect.preserves (I := fun u => u.memoryReservation = s.memoryReservation)
    (preserves_load (fun _ _ h => h)) (preserves_store (fun _ _ h => h)) effect
    (fun hreserving => absurd hreserving hno) (fun _ _ _ _ _ _ _ h => h) (fun _ _ h => h) s rfl
  rw [h] at hs
  exact hs

theorem Effect.perform_loadReserved {address : U32} {s t : Interpreter SliceMemory} {result : I32}
    (h : (Effect.loadReserved address).perform s = .ok result t) :
    t.memoryReservation = some (address, result) := by
  obtain ⟨value, u, _, hrest⟩ := bind_eq_ok h
  cases hrest
  rfl

theorem store_ok_iff {w : ℕ} {value : BitVec w} {address : U32} {s t : Interpreter SliceMemory} :
    Interpreter.store value address s = .ok ⟨⟩ t ↔
      MemoryType.store value address s.memory = .ok ⟨⟩ t.memory ∧
        t = { s with memory := t.memory } := by
  rw [Interpreter.store, onPart_apply]
  cases MemoryType.store value address s.memory with
  | ok _ memory =>
    constructor
    · intro h
      cases h
      exact ⟨rfl, rfl⟩
    · rintro ⟨h1, h2⟩
      cases h1
      rw [h2]
      rfl
  | error e memory => simp

/-- A store conditional stores exactly when the cell holds the address with the word
that is there now, and gives up the reservation in any case. -/
theorem Effect.perform_storeConditional {stored : I32} {address : U32}
    {s t : Interpreter SliceMemory} {result : I32}
    (h : (Effect.storeConditional stored address).perform s = .ok result t) :
    ∃ value, Interpreter.load 32 address s = .ok value s ∧
      t = { s with memory := t.memory, memoryReservation := none } ∧
      if s.memoryReservation = some (address, value) then
        result = 0 ∧ Interpreter.store stored address s = .ok ⟨⟩ { s with memory := t.memory }
      else result = 1 ∧ t.memory = s.memory := by
  obtain ⟨value, u, hload, hrest⟩ := bind_eq_ok h
  obtain rfl := load_ok_state hload
  refine ⟨value, hload, ?_⟩
  rw [bind_ok (takeReservation_apply u)] at hrest
  by_cases hreserved : u.memoryReservation = some (address, value)
  · rw [if_pos hreserved] at hrest ⊢
    obtain ⟨_, v, hstore, hpure⟩ := bind_eq_ok hrest
    cases hpure
    obtain ⟨hmemory, hstate⟩ := store_ok_iff.mp hstore
    exact ⟨hstate, rfl, store_ok_iff.mpr ⟨hmemory, rfl⟩⟩
  · rw [if_neg hreserved] at hrest ⊢
    cases hrest
    exact ⟨rfl, rfl, rfl⟩

/-- One step changes the reservation as its event says. -/
theorem step_reservation {history : List ReservationEvent} {s t : Interpreter SliceMemory}
    {state : State} (hs : step s = .ok state t)
    (h : s.memoryReservation = reservationOf history) :
    t.memoryReservation = reservationOf (stepEvent s ++ history) := by
  obtain ⟨inst, result, u, hfetch, heffect, rfl, -⟩ := step_ok hs
  rw [retire_reservation, hfetch.stepEvent]
  by_cases hamo : ∃ data, inst = .opAmo data
  · obtain ⟨data, rfl⟩ := hamo
    by_cases hlr : data.func = OpAmo.lrFunc
    · obtain ⟨hcompute, hlr'⟩ := OpAmo.effect_of_lr s.registers s.programCounter hlr
      have hatomic := OpAmo.atomic_apply s data hcompute
      simp only [Decoded.action] at heffect
      rw [heffect] at hatomic
      simp only [Decoded.event, OpAmo.event, if_pos hlr, hatomic]
      rw [hlr'] at heffect
      exact Effect.perform_loadReserved heffect
    · by_cases hsc : data.func = OpAmo.scFunc
      · simp only [Decoded.event, OpAmo.event, if_neg hlr, if_pos hsc]
        simp only [Decoded.action, OpAmo.effect_of_sc hsc] at heffect
        obtain ⟨value, _, ht, _⟩ := Effect.perform_storeConditional heffect
        rw [ht]
        rfl
      · simp only [Decoded.event, OpAmo.event, if_neg hlr, if_neg hsc]
        exact (Effect.perform_reservation heffect
          (OpAmo.effect_not_reserving hlr hsc)).trans h
  · have hno : ¬(inst.action inst.size.toU32 s.registers s.programCounter).effect.IsReserving :=
      fun hr => hamo (Decoded.of_isReserving hr)
    have hevent : inst.event s = [] := by
      cases inst
      case opAmo data => exact absurd ⟨data, rfl⟩ hamo
      all_goals rfl
    rw [hevent]
    exact (Effect.perform_reservation heffect hno).trans h

/-- The reservation cell follows the history of the run. -/
theorem SuccessfulRun.reservation {history : List ReservationEvent}
    {s : Interpreter SliceMemory} (h : SuccessfulRun history s) :
    s.memoryReservation = reservationOf history := by
  induction h with
  | new memory instructionLimit => rfl
  | reset s => rfl
  | step h hs ih => exact step_reservation hs ih
  | interrupt h value ih =>
    rw [interrupt_apply]
    split <;> exact ih
  | @syscall _ s h E function ih =>
    rcases syscall_cases function s with ⟨memory, hstate⟩ | ⟨memory, result, hstate⟩ <;> rw [hstate]
    · exact ih
    · cases result <;> exact ih

end History

end Embive
