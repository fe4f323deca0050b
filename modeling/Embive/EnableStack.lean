import Embive.Handler

/-! # The interrupt enable stack

The current and the previous interrupt enable bit of `mstatus` are a stack of two entries.
Accepted interrupts push it, returns from a trap pop it, and operations on `mstatus` write
its bits, so that the stored pair is a function of the history of these events.
-/

namespace Embive

open EStateM Interpreter

/-- What moves the interrupt enable bits. -/
inductive StatusEvent where
  | trap
  | mret
  | csr (op : CSOperation)
  deriving DecidableEq

/-- The current and the previous interrupt enable bit. -/
structure EnableStack where
  mie : Bool
  mpie : Bool
  deriving DecidableEq

namespace EnableStack

/-- The bits after a reset. -/
def start : EnableStack := ⟨false, false⟩

/-- The bits after an event, with a rule for the previous one after a return. -/
def next (mpieAfterReturn : EnableStack → Bool) (st : EnableStack) : StatusEvent → EnableStack
  | .trap => ⟨false, st.mie⟩
  | .mret => ⟨st.mpie, mpieAfterReturn st⟩
  | .csr (.write value) => ⟨value.getLsbD 3, value.getLsbD 7⟩
  | .csr (.set value) => ⟨st.mie || value.getLsbD 3, st.mpie || value.getLsbD 7⟩
  | .csr (.clear value) => ⟨st.mie && !value.getLsbD 3, st.mpie && !value.getLsbD 7⟩

/-- The bits after a history. -/
def after (mpieAfterReturn : EnableStack → Bool) (history : List StatusEvent) : EnableStack :=
  history.foldl (next mpieAfterReturn) start

/-- The machine-mode rule: a return sets the previous bit. -/
def setsPrevious : EnableStack → Bool := fun _ => true

/-- A return leaves the previous bit alone. -/
def keepsPrevious : EnableStack → Bool := fun st => st.mpie

end EnableStack

/-- The stored bits. -/
def CSRegisters.enableStack (cs : CSRegisters) : EnableStack where
  mie := (cs.mstatus &&& mstatusMie) != 0
  mpie := (cs.mstatus &&& mstatusMpie) != 0

/-- An operation that is not a mere read, at the address of `mstatus`. -/
def csrEvents (op : Option CSOperation) (addr : U16) : List StatusEvent :=
  if addr = mstatusAddr then op.toList.map .csr else []

/-- The events of executing an instruction. -/
def Decoded.statusEvents (regs : Registers) (pc : U32) : Decoded → List StatusEvent
  | .systemMiscMem data =>
    if data.func = SystemMiscMem.miscFunc then
      if data.imm = SystemMiscMem.mretImm then [.mret] else []
    else match SystemMiscMem.op regs pc data with
      | .ok op => csrEvents op ((data.imm &&& 0b1111_1111_1111).setWidth 16)
      | .error _ => []
  | _ => []

/-- The events of performing an effect. -/
def Effect.statusEvents : Effect → List StatusEvent
  | .controlStatus op addr => csrEvents op addr
  | .trapReturn => [.mret]
  | _ => []

section Operations

open EnableStack

variable {cs cs' : CSRegisters} {mpieAfterReturn : EnableStack → Bool}

theorem EnableStack.after_append (history events : List StatusEvent) :
    after mpieAfterReturn (history ++ events) =
      events.foldl (next mpieAfterReturn) (after mpieAfterReturn history) :=
  List.foldl_append

theorem CSRegisters.enableStack_congr (h : cs'.mstatus = cs.mstatus) :
    cs'.enableStack = cs.enableStack := by
  rw [enableStack, enableStack, h]

/-- The two bits of the stored byte. -/
theorem CSRegisters.enableStack_eq (cs : CSRegisters) :
    cs.enableStack = ⟨cs.mstatus.getLsbD 3, cs.mstatus.getLsbD 7⟩ := by
  have hbits : ∀ x : U8, ((x &&& mstatusMie) != 0) = x.getLsbD 3 ∧
      ((x &&& mstatusMpie) != 0) = x.getLsbD 7 := by
    decide
  rw [enableStack, (hbits cs.mstatus).1, (hbits cs.mstatus).2]

/-- An operation on `mstatus` stores the two bits of its word. -/
theorem CSRegisters.enableStack_of_masked {x : U32}
    (h : cs.mstatus = x.setWidth 8 &&& mstatusMask) :
    cs.enableStack = ⟨x.getLsbD 3, x.getLsbD 7⟩ := by
  have hmask : mstatusMask.getLsbD 3 = true ∧ mstatusMask.getLsbD 7 = true := by decide
  rw [enableStack_eq, h]
  simp [hmask.1, hmask.2]

/-- An operation on the registers moves the bits as its events do. -/
theorem CSRegisters.operation_enableStack {op : Option CSOperation} {addr : U16} {value : U32}
    (h : cs.operation op addr = .ok (value, cs')) :
    cs'.enableStack = (csrEvents op addr).foldl (next keepsPrevious) cs.enableStack := by
  unfold csrEvents
  by_cases haddr : addr = mstatusAddr
  · subst haddr
    rw [if_pos rfl]
    cases h
    rw [enableStack_of_masked rfl, cs.enableStack_eq]
    cases op with
    | none => simp [executeOperation]
    | some op => cases op <;> simp [executeOperation, next]
  · rw [if_neg haddr]
    exact enableStack_congr ((cs.operation_changesOnly op addr value cs' h).mstatus haddr)

theorem CSRegisters.default_enableStack : default.enableStack = start := by
  decide

theorem CSRegisters.trapEntry_enableStack (cs : CSRegisters) (pc : U32) (value : I32) :
    (cs.setInterrupt.trapEntry pc value).1.enableStack =
      next keepsPrevious cs.enableStack .trap := by
  have hbits : ∀ x : U8,
      ((if (x &&& mstatusMie) ≠ 0 then x ||| mstatusMpie else x &&& ~~~mstatusMpie) &&&
        ~~~mstatusMie).getLsbD 3 = false ∧
      ((if (x &&& mstatusMie) ≠ 0 then x ||| mstatusMpie else x &&& ~~~mstatusMpie) &&&
        ~~~mstatusMie).getLsbD 7 = x.getLsbD 3 := by
    decide
  obtain ⟨hmie, hmpie⟩ := hbits cs.mstatus
  rw [enableStack_eq, enableStack_eq, next]
  exact congrArg₂ EnableStack.mk hmie hmpie

theorem CSRegisters.trapReturn_enableStack (cs : CSRegisters) :
    cs.trapReturn.1.enableStack = next keepsPrevious cs.enableStack .mret := by
  have hbits : ∀ x : U8,
      (if (x &&& mstatusMpie) ≠ 0 then x ||| mstatusMie else x &&& ~~~mstatusMie).getLsbD 3 =
        x.getLsbD 7 ∧
      (if (x &&& mstatusMpie) ≠ 0 then x ||| mstatusMie else x &&& ~~~mstatusMie).getLsbD 7 =
        x.getLsbD 7 := by
    decide
  obtain ⟨hmie, hmpie⟩ := hbits cs.mstatus
  rw [enableStack_eq, enableStack_eq, next]
  exact congrArg₂ EnableStack.mk hmie hmpie

end Operations

section Instructions

/-- The events of an instruction are those of its effect. -/
theorem Decoded.statusEvents_eq (inst : Decoded) (size pc : U32) (regs : Registers) :
    inst.statusEvents regs pc = (inst.action size regs pc).effect.statusEvents := by
  by_cases hsystem : ∃ data, inst = .systemMiscMem data
  · obtain ⟨data, rfl⟩ := hsystem
    rw [action, statusEvents, SystemMiscMem.action]
    by_cases hmisc : data.func = SystemMiscMem.miscFunc
    · rw [if_pos hmisc, if_pos hmisc]
      by_cases hmret : data.imm = SystemMiscMem.mretImm
      · rw [if_pos hmret, hmret]
        rfl
      · rw [if_neg hmret, if_neg hmret]
        split_ifs <;> rfl
    · rw [if_neg hmisc, if_neg hmisc]
      cases SystemMiscMem.op regs pc data <;> rfl
  · have hinst : inst.statusEvents regs pc = [] := by
      cases inst
      case systemMiscMem data => exact absurd ⟨data, rfl⟩ hsystem
      all_goals rfl
    rw [hinst]
    cases heffect : (inst.action size regs pc).effect
    case controlStatus op addr =>
      obtain ⟨data, hdata, -⟩ := of_controlStatus heffect
      exact absurd ⟨data, hdata⟩ hsystem
    case trapReturn =>
      have hmret := of_trapReturn heffect
      cases inst
      case systemMiscMem data => exact absurd ⟨data, rfl⟩ hsystem
      all_goals exact hmret.elim
    all_goals rfl

end Instructions

variable {M : Type} [Memory M]

/-- A state of the interpreter with the events since the last reset. The host steps it,
triggers interrupts, answers system calls and operates on the registers in any order. -/
inductive StatusRun : List StatusEvent → Interpreter M → Prop
  | new (memory : M) (instructionLimit : U32) : StatusRun [] (new memory instructionLimit)
  | reset (s : Interpreter M) : StatusRun [] s.reset
  | step {history : List StatusEvent} {s t : Interpreter M} {inst : Decoded}
      (h : StatusRun history s) (hfetch : Fetches s inst t) :
      StatusRun (history ++ inst.statusEvents t.registers t.programCounter) (step s).state
  | fault {history : List StatusEvent} {s : Interpreter M} (h : StatusRun history s)
      (hfetch : ∀ inst t, ¬Fetches s inst t) : StatusRun history (step s).state
  | accepted {history : List StatusEvent} {s t : Interpreter M} (h : StatusRun history s)
      (value : I32) (ht : interrupt value s = .ok ⟨⟩ t) : StatusRun (history ++ [.trap]) t
  | refused {history : List StatusEvent} {s t : Interpreter M} (h : StatusRun history s)
      (value : I32) {e : Error} (ht : interrupt value s = .error e t) : StatusRun history t
  | syscall {history : List StatusEvent} {s : Interpreter M} (h : StatusRun history s)
      {E : Type} (function : SyscallFn M E) : StatusRun history (syscall function s).state
  | operation {history : List StatusEvent} {s : Interpreter M} (h : StatusRun history s)
      (op : Option CSOperation) (addr : U16) {value : U32} {cs : CSRegisters}
      (hcs : s.registers.controlStatus.operation op addr = .ok (value, cs)) :
      StatusRun (history ++ csrEvents op addr) { s with registers.controlStatus := cs }

section History

open EnableStack

variable {history : List StatusEvent} {s t : Interpreter M}

/-- A step extends the history. -/
theorem StatusRun.exists_step (h : StatusRun history s) :
    ∃ events, StatusRun (history ++ events) (Interpreter.step s).state := by
  rcases step_cases s with ⟨e, memory, -, hfetch⟩ | ⟨inst, t, hfetch⟩
  · refine ⟨[], ?_⟩
    rw [List.append_nil]
    exact h.fault hfetch
  · exact ⟨_, h.step hfetch⟩

/-- A call of `run` extends the history by that of its steps. -/
theorem StatusRun.exists_run (h : StatusRun history s) {fuel : ℕ}
    {r : Result Error (Interpreter M) State} (hr : Interpreter.run fuel s = some r) :
    ∃ events, StatusRun (history ++ events) r.state := by
  apply run_preserves (I := fun u => ∃ events, StatusRun (history ++ events) u) _ _ hr
  · rintro u - ⟨events, hu⟩
    obtain ⟨events', hstep⟩ := hu.exists_step
    rw [List.append_assoc] at hstep
    exact ⟨events ++ events', hstep⟩
  · refine ⟨[], ?_⟩
    rw [List.append_nil]
    exact h

/-- The stored bits. -/
def Interpreter.enableStack (s : Interpreter M) : EnableStack :=
  s.registers.controlStatus.enableStack

theorem csrEvents_of_error {cs : CSRegisters} {op : Option CSOperation} {addr : U16} {e : Error}
    (h : cs.operation op addr = .error e) : csrEvents op addr = [] := by
  unfold csrEvents
  rw [if_neg]
  rintro rfl
  cases h

/-- Performing an effect moves the bits as its events do. -/
theorem Effect.perform_enableStack (effect : Effect) (s : Interpreter M) :
    (effect.perform s).state.enableStack =
      effect.statusEvents.foldl (next keepsPrevious) s.enableStack := by
  cases effect with
  | controlStatus op addr =>
    simp only [perform, onControlStatus, statusEvents]
    cases hcs : s.registers.controlStatus.operation op addr with
    | ok p => exact CSRegisters.operation_enableStack hcs
    | error e =>
      rw [csrEvents_of_error hcs]
      rfl
  | trapReturn => exact s.registers.controlStatus.trapReturn_enableStack
  | _ =>
    apply Effect.preserves (I := fun u => u.enableStack = s.enableStack)
      (preserves_load (fun _ _ h => h)) (preserves_store (fun _ _ h => h))
    · exact fun _ _ _ h => h
    · intro _ _ heffect
      cases heffect
    · intro heffect
      cases heffect
    · rfl

/-- Executing an instruction moves the bits as its events do. -/
theorem Decoded.perform_enableStack (inst : Decoded) (size : U32) (s : Interpreter M) :
    ((inst.action size s.registers s.programCounter).perform s).state.enableStack =
      (inst.statusEvents s.registers s.programCounter).foldl (next keepsPrevious)
        s.enableStack := by
  rw [inst.statusEvents_eq size, ← Effect.perform_enableStack, Action.perform, bind_apply]
  cases (inst.action size s.registers s.programCounter).effect.perform s with
  | error e u => rfl
  | ok result u =>
    cases (inst.action size s.registers s.programCounter).rd <;> rfl

omit [Memory M] in
theorem interrupt_enableStack {value : I32} {r : PUnit} (h : interrupt value s = .ok r t) :
    t.enableStack = next keepsPrevious s.enableStack .trap := by
  rw [interrupt_apply] at h
  split_ifs at h
  cases h
  exact s.registers.controlStatus.trapEntry_enableStack _ value

omit [Memory M] in
theorem interrupt_refused {value : I32} {e : Error} (h : interrupt value s = .error e t) :
    t = s := by
  rw [interrupt_apply] at h
  split_ifs at h
  cases h
  rfl

omit [Memory M] in
theorem syscall_enableStack {E : Type} (function : SyscallFn M E) (s : Interpreter M) :
    (syscall function s).state.enableStack = s.enableStack := by
  rcases syscall_cases function s with ⟨memory, hstate⟩ | ⟨memory, result, hstate⟩ <;> rw [hstate]
  · rfl
  · cases result <;> rfl

/-- The stored bits are a function of the history since the reset: a trap moves the current
bit to the previous one and clears it, a return copies the previous bit back, and an
operation on `mstatus` writes, sets or clears the two bits. -/
theorem enableStack_follows (h : StatusRun history s) :
    s.enableStack = after keepsPrevious history := by
  induction h with
  | new => exact CSRegisters.default_enableStack
  | reset => exact CSRegisters.default_enableStack
  | @step history s t inst _ hfetch ih =>
    have ht : t.enableStack = s.enableStack := by rw [hfetch.frame]; rfl
    rw [after_append, ← ih, ← ht, hfetch.step]
    exact inst.perform_enableStack _ t
  | @fault history s _ hfetch ih =>
    rcases step_cases s with ⟨e, memory, hstep, -⟩ | ⟨inst, t, h⟩
    · rw [hstep, ← ih]
      rfl
    · exact absurd h (hfetch inst t)
  | accepted _ value ht ih =>
    rw [after_append, ← ih]
    exact interrupt_enableStack ht
  | refused _ value ht ih =>
    rw [interrupt_refused ht]
    exact ih
  | syscall _ function ih =>
    rw [syscall_enableStack]
    exact ih
  | operation _ op addr hcs ih =>
    rw [after_append, ← ih]
    exact CSRegisters.operation_enableStack hcs

theorem decodeInstruction_mret :
    decodeInstruction 0x0040001F = some (.systemMiscMem ⟨0, 0, 4, 0⟩) := rfl

/-- Code whose only instruction is an `mret`. -/
def returning : Interpreter SliceMemory := new ⟨[0x1F, 0x00, 0x40, 0x00], []⟩ 0

theorem enableStack_follows_returning : letI := Target.release64
    ∃ s : Interpreter SliceMemory, StatusRun [.csr (.write 8), .trap, .mret] s ∧
      s.enableStack = after keepsPrevious [.csr (.write 8), .trap, .mret] ∧
      s.enableStack = ⟨true, true⟩ := by
  let _ := Target.release64
  have hmie : StatusRun _ _ :=
    .operation (.new returning.memory 0) (some (.write 0x00010000)) mieAddr rfl
  have hmstatus := hmie.operation (some (.write 8)) mstatusAddr rfl
  have htrap := hmstatus.accepted 7 rfl
  have hmret := htrap.step ⟨0x0040001F, rfl, decodeInstruction_mret⟩
  have hstack := enableStack_follows hmret
  exact ⟨_, hmret, hstack, hstack.trans (by decide)⟩

/-- A return from the reset state leaves the previous bit clear, where the machine-mode
rule sets it. -/
theorem enableStack_not_setsPrevious : letI := Target.release64
    ¬∀ (history : List StatusEvent) (s : Interpreter SliceMemory), StatusRun history s →
      s.enableStack = after setsPrevious history := by
  let _ := Target.release64
  intro h
  have hmret := (StatusRun.new returning.memory 0).step
    ⟨0x0040001F, rfl, decodeInstruction_mret⟩
  have hstack := h _ _ hmret
  revert hstack
  decide

end History

end Embive
