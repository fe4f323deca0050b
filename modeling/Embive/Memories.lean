import Embive.Host
import Embive.Lib.Tracking
import Embive.Reachable

/-! # One guest over two memories

The interpreter uses its memory through loads and stores of one, two or four bytes only. Where
those of one memory follow those of another one, every host finds the same over both.
-/

namespace Embive

open EStateM

section Widths

/-- The effect accesses one, two or four bytes, if any. -/
def Effect.IsSized : Effect → Prop
  | .load (w := w) _ _ => w ∈ [8, 16, 32]
  | .store (w := w) _ _ => w ∈ [8, 16, 32]
  | _ => True

variable (size : U32) (regs : Registers) (pc : U32)

theorem LoadStore.action_isSized (data : TypeI) :
    (LoadStore.action size regs pc data).effect.IsSized := by
  unfold LoadStore.action
  dsimp only
  split_ifs <;> simp [Effect.IsSized, Action.refuse]

theorem Decoded.action_isSized (inst : Decoded) :
    (inst.action size regs pc).effect.IsSized := by
  cases inst
  case loadStore data => exact LoadStore.action_isSized size regs pc data
  case cAddi4spn data =>
    simp only [action]
    split <;> trivial
  case branch data =>
    simp only [action, Branch.action]
    split <;> trivial
  case opImm data =>
    simp only [action, OpImm.action]
    split
    · trivial
    · split <;> trivial
  case cJrMv data =>
    simp only [action, CJrMv.action]
    split <;> trivial
  case cEbreakJalrAdd data =>
    simp only [action, CEbreakJalrAdd.action]
    split_ifs <;> trivial
  case opAmo data =>
    rcases OpAmo.effect_cases regs pc data with
      ⟨result, h⟩ | ⟨-, h⟩ | ⟨-, h⟩ | ⟨stored, -, h⟩ | h
    all_goals
      rw [action, h]
      trivial
  case systemMiscMem data =>
    rcases SystemMiscMem.action_cases size regs pc data with
      ⟨-, state, -, h⟩ | ⟨-, -, h⟩ | ⟨-, -, h⟩ | ⟨-, op, -, h⟩ | ⟨-, h⟩
    all_goals
      rw [action, h]
      trivial
  all_goals simp [action, Effect.IsSized, updateAction, Action.write, Action.goto]

end Widths

section Relations

variable {M M' E α : Type}

/-- The accesses of an instruction to the second memory do what they do to the first one, unless
they fail there with an error of this kind. -/
structure MemoryTracks [Memory M] [Memory M'] (U : Error → Prop) (R : M → M' → Prop) : Prop where
  load : ∀ address, ∀ n ∈ [1, 2, 4], Tracks U R (Memory.loadBytes address n : EStateM Error M _)
    (Memory.loadBytes address n)
  store : ∀ address data, data.length ∈ [1, 2, 4] →
    Tracks U R (Memory.storeBytes address data : EStateM Error M _)
      (Memory.storeBytes address data)

/-- The interpreters differ in their memories only, which are related. -/
structure SameGuest (R : M → M' → Prop) (s : Interpreter M) (t : Interpreter M') : Prop where
  programCounter : s.programCounter = t.programCounter
  registers : s.registers = t.registers
  instructionLimit : s.instructionLimit = t.instructionLimit
  memoryReservation : s.memoryReservation = t.memoryReservation
  memory : R s.memory t.memory

/-- The hosts make the same calls, with system call functions that track. -/
inductive Host.Alike (V : E → Prop) (R : M → M' → Prop) : Host M E α → Host M' E α → Prop
  | done (result : α) : Host.Alike V R (.done result) (.done result)
  | reset {next next'} (h : Host.Alike V R next next') :
    Host.Alike V R (.reset next) (.reset next')
  | step {next next'} (h : ∀ state, Host.Alike V R (next state) (next' state)) :
    Host.Alike V R (.step next) (.step next')
  | run (limit : U32) {next next'} (h : ∀ state, Host.Alike V R (next state) (next' state)) :
    Host.Alike V R (.run limit next) (.run limit next')
  | interrupt (value : I32) {next next'}
      (h : ∀ entered, Host.Alike V R (next entered) (next' entered)) :
    Host.Alike V R (.interrupt value next) (.interrupt value next')
  | syscall {function function'} {next next'}
      (hfunction : ∀ nr args, Tracks V R (function nr args) (function' nr args))
      (h : Host.Alike V R next next') :
    Host.Alike V R (.syscall function next) (.syscall function' next')

/-- The error says that an access was not inside the memory. -/
def Error.IsMemoryFault : Error → Prop
  | .invalidMemoryAddress _ | .invalidMemoryAccessLength _ => True
  | _ => False

/-- The error of a host is one of these kinds. -/
def HostError.Is (U : Error → Prop) (V : E → Prop) : HostError E → Prop
  | .interpreter e => U e
  | .function e => V e
  | .outOfFuel => False

end Relations

namespace Interpreter

variable {M M' : Type} {U : Error → Prop} {R : M → M' → Prop} {s : Interpreter M}
  {t : Interpreter M'}

section Parts

theorem onControlStatus_tracks {α : Type}
    (f : CSRegisters → Except Error (α × CSRegisters)) :
    Tracks U (SameGuest R) (onControlStatus f) (onControlStatus f) := by
  intro s t h
  right
  rw [onControlStatus, onControlStatus, ← h.registers]
  cases f s.registers.controlStatus with
  | ok p =>
    refine ⟨rfl, h.programCounter, ?_, h.instructionLimit, h.memoryReservation, h.memory⟩
    rw [h.registers]
  | error e => exact ⟨rfl, h⟩

theorem getPc_tracks : Tracks U (SameGuest R) getPc getPc :=
  fun _ _ h => .inr ⟨h.programCounter, h⟩

theorem setReservation_tracks (reservation : Option (U32 × I32)) :
    Tracks U (SameGuest R) (setReservation reservation) (setReservation reservation) := by
  apply tracks_modify
  intro s t h
  exact { h with memoryReservation := rfl }

theorem takeReservation_tracks : Tracks U (SameGuest R) takeReservation takeReservation := by
  intro s t h
  exact .inr ⟨h.memoryReservation, { h with memoryReservation := rfl }⟩

theorem retire_sameGuest (rd : Option (Fin 32)) (result : I32) (pc : U32) (h : SameGuest R s t) :
    SameGuest R (s.retire rd result pc) (t.retire rd result pc) := by
  cases rd with
  | none => exact { h with programCounter := rfl }
  | some rd =>
    refine ⟨rfl, ?_, h.instructionLimit, h.memoryReservation, h.memory⟩
    rw [retire, retire, h.registers]

end Parts

variable [Memory M] [Memory M'] (hmemory : MemoryTracks U R)

include hmemory

theorem load_tracks {w : ℕ} (hw : w ∈ [8, 16, 32]) (address : U32) :
    Tracks U (SameGuest R) (load w address) (load w address) := by
  have hwidth : w / 8 ∈ [1, 2, 4] := by
    revert hw
    simp only [List.mem_cons, List.not_mem_nil, or_false]
    omega
  apply Tracks.onPart (S := R)
  · apply (hmemory.load address _ hwidth).bind
    intro bytes
    split_ifs
    · exact tracks_pure _
    · exact tracks_throw _
  · intro s t h
    exact h.memory
  · intro s t h a b hab
    exact { h with memory := hab }

theorem store_tracks {w : ℕ} (hw : w ∈ [8, 16, 32]) (value : BitVec w) (address : U32) :
    Tracks U (SameGuest R) (store value address) (store value address) := by
  have hwidth : (toLeBytes value).length ∈ [1, 2, 4] := by
    rw [length_toLeBytes]
    revert hw
    simp only [List.mem_cons, List.not_mem_nil, or_false]
    omega
  apply Tracks.onPart (S := R)
  · exact hmemory.store address _ hwidth
  · intro s t h
    exact h.memory
  · intro s t h a b hab
    exact { h with memory := hab }

/-- An effect does the same over both memories. -/
theorem effect_tracks {effect : Effect} (hsized : effect.IsSized) :
    Tracks U (SameGuest R) effect.perform effect.perform := by
  have hword : 32 ∈ [8, 16, 32] := by decide
  cases effect with
  | refuse error => exact tracks_throw error
  | value result => exact tracks_pure result
  | load extend address =>
    apply (load_tracks hmemory hsized address).bind
    intro value
    exact tracks_pure _
  | store stored address =>
    apply (store_tracks hmemory hsized stored address).bind
    intro _
    exact tracks_pure _
  | readModifyWrite combine address =>
    apply (load_tracks hmemory hword address).bind
    intro value
    apply (store_tracks hmemory hword (combine value) address).bind
    intro _
    exact tracks_pure _
  | loadReserved address =>
    apply (load_tracks hmemory hword address).bind
    intro value
    apply (setReservation_tracks _).bind
    intro _
    exact tracks_pure _
  | storeConditional stored address =>
    apply (load_tracks hmemory hword address).bind
    intro value
    apply takeReservation_tracks.bind
    intro reservation
    split_ifs
    · apply (store_tracks hmemory hword stored address).bind
      intro _
      exact tracks_pure _
    · exact tracks_pure _
  | loadThenRefuse address error =>
    apply (load_tracks hmemory hword address).bind
    intro _
    exact tracks_throw error
  | controlStatus op addr => exact onControlStatus_tracks (fun cs => cs.operation op addr)
  | trapReturn => exact onControlStatus_tracks (fun cs => .ok (0, cs.trapReturn.1))

theorem decodeExecute_tracks (data : U32) :
    Tracks U (SameGuest R) (decodeExecute data) (decodeExecute data) := by
  obtain ⟨inst, hinst⟩ := decodeInstruction_isSome data
  intro s t h
  rw [decodeExecute_eq_sized hinst, decodeExecute_eq_sized hinst,
    decodeExecuteSized_eq_perform _ _ hinst, decodeExecuteSized_eq_perform _ _ hinst,
    ← h.registers, ← h.programCounter]
  have haction : Tracks U (SameGuest R)
      (inst.action inst.size.toU32 s.registers s.programCounter).perform
      (inst.action inst.size.toU32 s.registers s.programCounter).perform := by
    apply (effect_tracks hmemory (inst.action_isSized _ _ _)).bind
    intro result
    apply Tracks.bind
    · apply tracks_modify
      intro s t h
      exact retire_sameGuest _ _ _ h
    · intro _
      exact tracks_pure _
  exact haction s t h

theorem step_tracks : Tracks U (SameGuest R) step step := by
  have hfetch : Tracks U (SameGuest R) fetch fetch := by
    apply getPc_tracks.bind
    intro pc
    exact load_tracks hmemory (by decide) pc
  exact hfetch.bind (decodeExecute_tracks hmemory)

theorem runBody_tracks : Tracks U (SameGuest R) runBody runBody := by
  apply (step_tracks hmemory).bind
  intro state
  split_ifs <;> exact tracks_pure _

theorem runLimited_tracks (n : ℕ) : Tracks U (SameGuest R) (runLimited n) (runLimited n) := by
  apply ((runBody_tracks hmemory).forUpTo n).bind
  intro a
  cases a with
  | none => exact tracks_pure _
  | some state => exact tracks_pure _

/-- A run without a limit ends over both memories or over none. -/
theorem run_tracks (fuel : ℕ) (h : SameGuest R s t) :
    (∃ e s', run fuel s = some (.error e s') ∧ U e) ∨ (run fuel s = none ∧ run fuel t = none) ∨
      ∃ r r', run fuel s = some r ∧ run fuel t = some r' ∧ Coincide (SameGuest R) r r' := by
  unfold run
  rw [← h.instructionLimit]
  by_cases hpos : 0 < s.instructionLimit
  · rw [if_pos hpos, if_pos hpos]
    rcases runLimited_tracks hmemory s.instructionLimit.toNat s t h with ⟨e, s', hs, he⟩ | hsame
    · exact .inl ⟨e, s', congrArg some hs, he⟩
    · exact .inr (.inr ⟨_, _, rfl, rfl, hsame⟩)
  · rw [if_neg hpos, if_neg hpos, Lib.loopFuel_eq_stopped, Lib.loopFuel_eq_stopped]
    have hrounds := (runBody_tracks hmemory).forUpTo fuel
    cases hs : Lib.forUpTo runBody fuel s with
    | ok a s' =>
      obtain ⟨t', ht, hst⟩ := hrounds.ok h hs
      rw [ht]
      cases a with
      | none => exact .inr (.inl ⟨rfl, rfl⟩)
      | some state => exact .inr (.inr ⟨_, _, rfl, rfl, rfl, hst⟩)
    | error e s' =>
      by_cases he : U e
      · exact .inl ⟨e, s', rfl, he⟩
      · obtain ⟨t', ht, hst⟩ := hrounds.error h hs he
        rw [ht]
        exact .inr (.inr ⟨_, _, rfl, rfl, rfl, hst⟩)

end Interpreter

section Hosts

variable {M M' E α : Type} {U : Error → Prop} {V : E → Prop} {R : M → M' → Prop}

theorem Interpreter.syscall_tracks {function : SyscallFn M E} {function' : SyscallFn M' E}
    (h : ∀ nr args, Tracks V R (function nr args) (function' nr args)) :
    Tracks V (SameGuest R) (Interpreter.syscall function) (Interpreter.syscall function') := by
  intro s t hst
  have hcall (nr : I32) (args : Vector I32 syscallArgs) : Tracks V (SameGuest R)
      (onPart Interpreter.memory (fun memory s => { s with memory })
        (function nr args))
      (onPart Interpreter.memory (fun memory t => { t with memory }) (function' nr args)) := by
    apply (h nr args).onPart
    · intro s t hst
      exact hst.memory
    · intro s t hst a b hab
      exact { hst with memory := hab }
  have hreturn (result : Except {code : I32 // code ≠ 0} I32) : Tracks V (SameGuest R)
      (modify (Interpreter.syscallResult result) : EStateM E (Interpreter M) PUnit)
      (modify (Interpreter.syscallResult result)) := by
    apply tracks_modify
    intro s t hst
    cases result <;>
    · refine ⟨hst.programCounter, ?_, hst.instructionLimit, hst.memoryReservation, hst.memory⟩
      rw [Interpreter.syscallResult, Interpreter.syscallResult, hst.registers]
  have harguments : t.syscallArguments = s.syscallArguments := by
    rw [Interpreter.syscallArguments, Interpreter.syscallArguments, hst.registers]
  have ht : Interpreter.syscall function' t = (do
      let result ← onPart Interpreter.memory (fun memory t => { t with memory })
        (function' s.registers.cpu.inner[CPURegister.a7] s.syscallArguments)
      modify (Interpreter.syscallResult result)) t := by
    rw [← harguments, hst.registers]
    rfl
  rw [ht]
  exact (hcall _ _).bind hreturn s t hst

namespace Host

theorem tryInterrupt_tracks (value : I32) :
    Tracks (HostError.Is U V) (SameGuest R) (tryInterrupt value) (tryInterrupt value) := by
  intro s t h
  right
  rw [tryInterrupt, tryInterrupt, interrupt_apply, interrupt_apply, ← h.registers]
  cases s.registers.controlStatus.interruptEnabled with
  | false => exact ⟨rfl, h⟩
  | true =>
    refine ⟨rfl, ?_, ?_, h.instructionLimit, h.memoryReservation, h.memory⟩
    · rw [h.programCounter]
    · rw [h.programCounter, h.registers]

variable [Memory M] [Memory M'] (hmemory : MemoryTracks U R)

include hmemory

theorem runWith_tracks (fuel : ℕ) (limit : U32) :
    Tracks (HostError.Is U V) (SameGuest R) (runWith fuel limit) (runWith fuel limit) := by
  intro s t h
  have hlimit : SameGuest R (s.withLimit limit) (t.withLimit limit) :=
    { h with instructionLimit := rfl }
  rw [runWith, runWith]
  rcases Interpreter.run_tracks hmemory fuel hlimit with
    ⟨e, s', hs, he⟩ | ⟨hs, ht⟩ | ⟨r, r', hs, ht, hsame⟩
  · left
    rw [hs]
    exact ⟨.interpreter e, s', rfl, he⟩
  · rw [hs, ht]
    exact .inr ⟨rfl, h⟩
  · rw [hs, ht]
    right
    cases r <;> cases r'
    · exact hsame
    · exact hsame
    · exact hsame
    · exact ⟨congrArg HostError.interpreter hsame.1, hsame.2⟩

/-- Hosts that make the same calls find the same over both memories. -/
theorem Alike.onInterpreter {host : Host M E α} {host' : Host M' E α}
    (h : Host.Alike V R host host') (fuel : ℕ) :
    Tracks (HostError.Is U V) (SameGuest R) (host.onInterpreter fuel)
      (host'.onInterpreter fuel) := by
  induction h with
  | done result => exact tracks_pure result
  | reset h ih =>
    apply Tracks.bind
    · apply tracks_modify
      intro s t hst
      exact ⟨rfl, rfl, hst.instructionLimit, rfl, hst.memory⟩
    · intro _
      exact ih
  | step h ih =>
    apply Tracks.bind
    · apply (Interpreter.step_tracks hmemory).adaptExcept
      intro e he
      exact he
    · exact ih
  | run limit h ih =>
    apply Tracks.bind
    · exact runWith_tracks hmemory fuel limit
    · exact ih
  | interrupt value h ih =>
    apply Tracks.bind
    · exact tryInterrupt_tracks value
    · exact ih
  | syscall hfunction h ih =>
    apply Tracks.bind
    · apply (Interpreter.syscall_tracks hfunction).adaptExcept
      intro e he
      exact he
    · intro _
      exact ih

end Host

end Hosts

end Embive
