import Embive.Host
import Embive.Transpiler.InPlace
import Embive.Transpiler.Machine

/-! # Programs in the code region

Where the code region has the conversions of a program's instructions, a step of the
interpreter does what a step of the machine does, and so does everything that a host does
with the guest.
-/

namespace Embive

open Rv32 EStateM

namespace Transpiler

open Interpreter

/-- The state represents the hart, and this is the code region. -/
structure Runs (code : List U8) (s : Interpreter SliceMemory) (h : Hart) : Prop where
  models : s.Models h
  code : s.memory.code = code

variable [Target]

/-- At its own size the instruction does what the machine does. -/
def ImplementsSized (d : Decoded) (inst : Instr) : Prop :=
  ∀ s : Interpreter SliceMemory, s.Sound →
    Follows (inst.execute d.size.toU32 s.hart)
      ((d.action d.size.toU32 s.registers s.programCounter).perform s)

/-- The code region has, at this address, an instruction that does what the machine does. -/
structure Holds (code : List U8) (pc : U32) (inst : Instr) (size : Size) (d : Decoded) : Prop where
  size_eq : d.size = size
  fits : d.Fits
  implements : ImplementsSized d inst
  outside_ram : pc < ramOffset
  fetched : pc.toNat + 4 ≤ code.length
  bytes : Lib.slice code pc.toNat size.bytes = (embiveRaw d).bytes

/-- The code region has the conversions of a program's instructions. -/
def Carries (code : List U8) (program : Program) : Prop :=
  ∀ pc inst size, program pc = some (inst, size) → ∃ d, Holds code pc inst size d

section Steps

variable {code : List U8} {program : Program}

/-- A step executes the instruction that the code region has at the program counter. -/
theorem Holds.step {s : Interpreter SliceMemory} {inst : Instr} {size : Size} {d : Decoded}
    (h : Holds code s.programCounter inst size d) (hcode : s.memory.code = code) :
    step s = (d.action d.size.toU32 s.registers s.programCounter).perform s := by
  obtain ⟨rfl, hfits, -, hram, hend, hbytes⟩ := h
  have hdec := decodeInstruction_embiveRaw hfits
  have htake : (Lib.slice code s.programCounter.toNat 4).take (embiveRaw d).size.bytes =
      (embiveRaw d).bytes := by
    rw [Lib.slice, List.take_take, Nat.min_eq_left (Size.bytes_le _)]
    exact hbytes
  have hdec' : decodeInstruction (fromLeBytes 32 (Lib.slice code s.programCounter.toNat 4)) =
      some d := decodeInstruction_of_mask hdec (fromLeBytes_mask htake)
  have hfetch : Interpreter.load 32 s.programCounter s =
      .ok (fromLeBytes 32 (Lib.slice code s.programCounter.toNat 4)) s := by
    rw [Interpreter.load, onPart_apply, load_code hram (hcode ▸ hend), hcode]
    rfl
  have hstep : Interpreter.step s =
      decodeExecute (fromLeBytes 32 (Lib.slice code s.programCounter.toNat 4)) s :=
    bind_ok hfetch _
  rw [hstep, decodeExecute_eq_sized hdec', decodeExecuteSized_eq_perform _ _ hdec']

omit [Target] in
theorem Follows.allows {expected : Except Stop (State × Hart)} {h : Hart}
    {r : Result Embive.Error (Interpreter SliceMemory) State} (hfollows : Follows expected r)
    (hcode : r.state.memory.code = code) :
    Allows Stop.IsUnspecified (Runs code) (match expected with
      | .ok (state, h') => .ok state h'
      | .error stop => .error stop h) r := by
  cases expected with
  | ok outcome =>
    obtain ⟨t, rfl, ht⟩ := hfollows
    exact ⟨rfl, ht, hcode⟩
  | error stop =>
    cases stop with
    | failed =>
      obtain ⟨e, t, rfl⟩ := hfollows
      trivial
    | unspecified => exact allows_unspecified (U := Stop.IsUnspecified) rfl h r

/-- A step of the interpreter does what a step of the machine does. -/
theorem Carries.refines_step (h : Carries code program) :
    Refines Stop.IsUnspecified (Runs code) (step : Exec SliceMemory State) program.step := by
  rintro s _ ⟨⟨rfl, hs⟩, hcode⟩
  rw [Program.step]
  cases hinst : program s.hart.pc with
  | none => exact allows_unspecified (U := Stop.IsUnspecified) rfl _ _
  | some found =>
    obtain ⟨inst, size⟩ := found
    obtain ⟨d, hd⟩ := h s.programCounter inst size hinst
    have hfollows := hd.implements s hs
    rw [← hd.step hcode, hd.size_eq] at hfollows
    exact hfollows.allows ((step_code s).trans hcode)

end Steps

section Hosts

variable {code : List U8} {program : Program} {E α : Type}

omit [Target] in
theorem Runs.withLimit {s : Interpreter SliceMemory} {h : Hart} (hruns : Runs code s h)
    (limit : U32) : Runs code (s.withLimit limit) h :=
  ⟨⟨hruns.models.hart, hruns.models.sound.even, hruns.models.sound.zero,
    hruns.models.sound.masked⟩, hruns.code⟩

theorem Carries.refines_runBody (h : Carries code program) :
    Refines Stop.IsUnspecified (Runs code) (runBody : Exec SliceMemory (Option State))
      program.runBody := by
  apply h.refines_step.bind
  intro state
  split_ifs
  · exact refines_pure (some state)
  · exact refines_pure none

/-- A run with a limit or without one does what the machine does. -/
theorem Carries.refines_run (h : Carries code program) (fuel : ℕ) (limit : U32) :
    Refines Stop.IsUnspecified (Runs code)
      (Host.runWith fuel limit : EStateM (HostError E) (Interpreter SliceMemory) State)
      (program.run fuel limit) := by
  intro s hart hruns
  have hloop := h.refines_runBody.forUpTo (if 0 < limit then limit.toNat else fuel) _ _
    (hruns.withLimit limit)
  rw [Program.run, bind_apply, Host.runWith, Interpreter.run]
  have hlimit : (s.withLimit limit).instructionLimit = limit := rfl
  rw [hlimit]
  by_cases hpos : 0 < limit
  · simp only [if_pos hpos] at hloop ⊢
    rw [runLimited, bind_apply]
    generalize Lib.forUpTo program.runBody limit.toNat hart = expected at hloop ⊢
    generalize Lib.forUpTo runBody limit.toNat (s.withLimit limit) = r at hloop ⊢
    cases expected with
    | ok found t =>
      obtain ⟨s', rfl, hs'⟩ := hloop.ok
      cases found <;> exact ⟨rfl, hs'⟩
    | error stop t =>
      cases r with
      | ok found s' => exact allows_unspecified (U := Stop.IsUnspecified) hloop t _
      | error e s' => trivial
  · simp only [if_neg hpos] at hloop ⊢
    rw [Lib.loopFuel_eq_stopped]
    generalize Lib.forUpTo program.runBody fuel hart = expected at hloop ⊢
    generalize Lib.forUpTo runBody fuel (s.withLimit limit) = r at hloop ⊢
    cases expected with
    | ok found t =>
      obtain ⟨s', rfl, hs'⟩ := hloop.ok
      cases found with
      | none => trivial
      | some state => exact ⟨rfl, hs'⟩
    | error stop t =>
      cases r with
      | ok found s' => exact allows_unspecified (U := Stop.IsUnspecified) hloop t _
      | error e s' => trivial

omit [Target] in
/-- An answer to a system call does what it does on the machine. -/
theorem refines_syscall (function : SyscallFn SliceMemory E) :
    Refines Stop.IsUnspecified (Runs code) (Interpreter.syscall function)
      (Hart.syscall function) := by
  rintro s _ ⟨⟨rfl, hs⟩, hcode⟩
  rw [syscall_apply, Hart.syscall]
  have harguments : s.hart.x = s.x := rfl
  have hmemory : s.hart.memory = s.memory := rfl
  rw [harguments, hmemory]
  generalize function (s.x 17) _ s.memory = answer
  cases answer with
  | ok result memory =>
    by_cases hsame : memory.code = s.memory.code
    · have hsound : ({ s with memory } : Interpreter SliceMemory).Sound :=
        ⟨hs.even, hs.zero, hs.masked⟩
      simp only [if_pos hsame]
      refine ⟨rfl, ⟨syscallResult_hart result { s with memory }, hsound.syscallResult result⟩, ?_⟩
      cases result <;> exact hsame.trans hcode
    · simp only [if_neg hsame]
      exact allows_unspecified (U := Stop.IsUnspecified) rfl _ _
  | error e memory => trivial

omit [Target] in
theorem refines_reset :
    Refines Stop.IsUnspecified (Runs code)
      (modify Interpreter.reset : EStateM (HostError E) (Interpreter SliceMemory) PUnit)
      (modify (fun h => Hart.reset h.memory)) := by
  rintro s _ ⟨⟨rfl, hs⟩, hcode⟩
  have hnew := models_new s.memory s.instructionLimit
  exact ⟨rfl, ⟨hnew.hart, hnew.sound⟩, hcode⟩

omit [Target] in
theorem runs_interrupt (value : I32) :
    Refines Stop.IsUnspecified (Runs code)
      (Interpreter.interrupt value : Exec SliceMemory PUnit) (Hart.interrupt value) := by
  rintro s h ⟨hmodels, hcode⟩
  refine (refines_interrupt value s h hmodels).strengthen ?_
  intro t ht
  refine ⟨ht, ?_⟩
  rw [interrupt_apply]
  split_ifs <;> exact hcode

omit [Target] in
theorem refines_tryInterrupt (value : I32) :
    Refines Stop.IsUnspecified (Runs code)
      (Host.tryInterrupt value : EStateM (HostError E) (Interpreter SliceMemory) Bool)
      (Hart.tryInterrupt value) := by
  intro s h hruns
  have hallows := runs_interrupt value s h hruns
  rw [Hart.interrupt] at hallows
  rw [Host.tryInterrupt, Hart.tryInterrupt]
  by_cases henabled : h.interruptEnabled = true
  · rw [if_pos henabled] at hallows ⊢
    obtain ⟨t, ht, hnext⟩ := hallows.ok
    rw [ht]
    exact ⟨rfl, hnext⟩
  · obtain ⟨rfl, hs⟩ := hruns.models
    rw [if_neg henabled]
    rw [interruptEnabled_hart] at henabled
    rw [interrupt_apply, if_neg henabled]
    exact ⟨rfl, hruns⟩

/-- Whatever a host does with the guest, it does with the machine. -/
theorem Carries.refines_host (h : Carries code program) (fuel : ℕ) (host : Host SliceMemory E α) :
    Refines Stop.IsUnspecified (Runs code) (host.onInterpreter fuel)
      (host.onHart program fuel) := by
  induction host with
  | done result => exact refines_pure result
  | reset next ih => exact refines_reset.bind (fun _ => ih)
  | step next ih => exact (h.refines_step.adaptExcept _).bind ih
  | run limit next ih => exact (h.refines_run fuel limit).bind ih
  | interrupt value next ih => exact (refines_tryInterrupt value).bind ih
  | syscall function next ih =>
    exact ((refines_syscall function).adaptExcept _).bind (fun _ => ih)

end Hosts

end Transpiler

end Embive
