import Embive.ControlStatus
import Embive.Handler
import Embive.Stub

/-! # What an observing stub does to the guest

A stub that only reads registers and memory, sets breakpoints, and waits takes the guest
through the steps that it would make without the stub. Reading `mepc` is no such call: it
writes the register back with its mask, which is lost when the guest has trapped at an odd
program counter.
-/

namespace Embive

open EStateM Interpreter Lib

section Reads

/-- The masks of the registers that do not depend on the program counter. -/
structure CSRegisters.Readable (cs : CSRegisters) : Prop where
  mstatus : cs.mstatus &&& ~~~mstatusMask = 0
  mtvec : cs.mtvec &&& mtvecMode = 0

namespace CSRegisters

variable {cs cs' : CSRegisters}

theorem readable_default : default.Readable := by
  constructor <;> decide

/-- An outcome that leaves the registers as they are. -/
def Keeps (cs : CSRegisters) (r : Except Error (U32 × CSRegisters)) : Prop :=
  ∀ value cs', r = .ok (value, cs') → cs' = cs

theorem keeps_ok {value : U32} (h : cs' = cs) : cs.Keeps (.ok (value, cs')) := by
  intro _ _ heq
  cases heq
  exact h

/-- A read of another register than `mepc` writes back what it has read. -/
theorem Readable.keeps (h : cs.Readable) {addr : U16} (hmepc : addr ≠ mepcAddr) :
    cs.Keeps (cs.operation none addr) := by
  have hmstatus : (cs.mstatus.setWidth 32).setWidth 8 &&& mstatusMask = cs.mstatus := by
    have hmask := and_not_of_and h.mstatus
    rw [BitVec.not_not] at hmask
    rw [BitVec.setWidth_setWidth_of_le _ (by decide), BitVec.setWidth_eq, hmask]
  unfold CSRegisters.operation
  repeat' apply iteInduction <;> intro haddr
  · exact keeps_ok (by simp only [executeOperation, hmstatus])
  · exact keeps_ok rfl
  · exact keeps_ok (by simp only [executeOperation, test_flagBit])
  · exact keeps_ok (by simp only [executeOperation, and_not_of_and h.mtvec])
  · exact keeps_ok rfl
  · exact keeps_ok rfl
  · exact keeps_ok rfl
  · exact absurd haddr hmepc
  · exact keeps_ok rfl
  · exact keeps_ok rfl
  · exact keeps_ok (by simp only [executeOperation, test_flagBit])
  · exact keeps_ok rfl
  · exact keeps_ok rfl
  · intro _ _ heq
    cases heq

theorem Readable.operation (h : cs.Readable) {op : Option CSOperation} {addr : U16} {value : U32}
    (hop : cs.operation op addr = .ok (value, cs')) : cs'.Readable where
  mstatus := by
    by_cases haddr : addr = mstatusAddr
    · subst haddr
      cases hop
      have hmask := and_not_and ((executeOperation op (cs.mstatus.setWidth 32)).setWidth 8)
        (~~~mstatusMask)
      rw [BitVec.not_not] at hmask
      exact hmask
    · rw [(cs.operation_changesOnly op addr value cs' hop).mstatus haddr]
      exact h.mstatus
  mtvec := by
    rcases cs.operation_cases op addr with he | ⟨value', cs'', hok, -, hmtvec⟩
    · rw [he] at hop
      cases hop
    · rw [hok] at hop
      cases hop
      rcases hmtvec with heq | ⟨x, heq⟩ <;> rw [heq]
      · exact h.mtvec
      · exact and_not_and x mtvecMode

theorem Readable.trapReturn (h : cs.Readable) : cs.trapReturn.1.Readable := by
  have hbits : ∀ x : U8, x &&& ~~~mstatusMask = 0 →
      (if (x &&& mstatusMpie) ≠ 0 then x ||| mstatusMie else x &&& ~~~mstatusMie) &&&
        ~~~mstatusMask = 0 := by
    decide
  exact ⟨hbits cs.mstatus h.mstatus, h.mtvec⟩

theorem Readable.trapEntry (h : cs.Readable) (pc : U32) (value : I32) :
    (cs.setInterrupt.trapEntry pc value).1.Readable := by
  have hbits : ∀ x : U8, x &&& ~~~mstatusMask = 0 →
      (if (x &&& mstatusMie) ≠ 0 then x ||| mstatusMpie else x &&& ~~~mstatusMpie) &&&
        ~~~mstatusMie &&& ~~~mstatusMask = 0 := by
    decide
  exact ⟨hbits cs.mstatus h.mstatus, h.mtvec⟩

end CSRegisters

end Reads

section Guests

variable {M F : Type} [Memory M]

theorem step_readable {s : Interpreter M} (h : s.registers.controlStatus.Readable) :
    (step s).state.registers.controlStatus.Readable := by
  apply step_preserves (I := fun t => t.registers.controlStatus.Readable) (fun _ _ h => h) _ h
  intro inst t _ ht
  have heffect := Effect.preserves (M := M) (I := fun t => t.registers.controlStatus.Readable)
    (preserves_load (fun _ _ h => h)) (preserves_store (fun _ _ h => h))
    (inst.action inst.size.toU32 t.registers t.programCounter).effect (fun _ _ _ h => h)
    (fun _ _ _ _ _ _ hop h => h.operation hop) (fun _ _ h => h.trapReturn)
  exact heffect.bind (fun result u hu => by
    cases (inst.action inst.size.toU32 t.registers t.programCounter).rd <;> exact hu) t ht

/-- The registers of the guest are readable. -/
def Guest.Readable (guest : Guest M F) : Prop :=
  guest.interpreter.registers.controlStatus.Readable

variable [SyscallFnMut F M]

theorem Guest.preserves_serviced :
    Preserves Guest.Readable (Guest.serviced : EStateM Error (Guest M F) Bool) := by
  have hstep : Preserves Guest.Readable
      (onInterpreter Interpreter.step : EStateM Error (Guest M F) State) := by
    intro guest h
    rw [onInterpreter, onPart_apply, Result.state_mapState]
    exact step_readable h
  have hsyscall : Preserves Guest.Readable (syscall : EStateM Error (Guest M F) PUnit) := by
    intro guest h
    rw [syscall, Result.state_mapState]
    rcases syscall_cases (SyscallFnMut.function guest.syscallFn) guest.interpreter with
      ⟨memory, hstate⟩ | ⟨memory, result, hstate⟩ <;> rw [hstate]
    · exact h
    · cases result <;> exact h
  have hinterrupt : Preserves Guest.Readable
      (onInterpreter (Interpreter.interrupt 0) : EStateM Error (Guest M F) PUnit) := by
    intro guest h
    rw [onInterpreter, onPart_apply, Result.state_mapState, interrupt_apply]
    split_ifs
    · exact CSRegisters.Readable.trapEntry h _ _
    · exact h
  apply hstep.bind
  intro state
  cases state with
  | running => exact preserves_pure false
  | halted => exact preserves_pure true
  | called => exact hsyscall.bind (fun _ => preserves_pure false)
  | waiting => exact hinterrupt.bind (fun _ => preserves_pure false)

namespace Guest

/-- The guest makes a step that succeeds, with its system call or interrupt. -/
def Continues (guest guest' : Guest M F) : Prop := ∃ halted, serviced guest = .ok halted guest'

/-- The guest makes steps, of which the last one may have failed. -/
def EndsIn (guest guest' : Guest M F) : Prop :=
  ∃ g, Relation.ReflTransGen Continues guest g ∧ (guest' = g ∨ ∃ e, serviced g = .error e guest')

variable {g g' g'' : Guest M F}

theorem Readable.continues (h : g.Readable) (hsteps : Relation.ReflTransGen Continues g g') :
    g'.Readable := by
  induction hsteps with
  | refl => exact h
  | tail _ hlast ih =>
    obtain ⟨halted, hserviced⟩ := hlast
    have hnext := preserves_serviced _ ih
    rw [hserviced] at hnext
    exact hnext

theorem EndsIn.trans (hsteps : Relation.ReflTransGen Continues g g') (h : EndsIn g' g'') :
    EndsIn g g'' := by
  obtain ⟨g₁, hrest, hlast⟩ := h
  exact ⟨g₁, hsteps.trans hrest, hlast⟩

end Guest

end Guests

section Observers

variable {M F C ε β α : Type} {N : ℕ} [Memory M] [SyscallFnMut F M]

/-- The computation does nothing to the guest but to let it make steps. -/
structure Observing (x : EStateM ε (Attached M F C N) α) : Prop where
  ok : ∀ {s a t}, s.guest.Readable → x s = .ok a t →
    Relation.ReflTransGen Guest.Continues s.guest t.guest
  error : ∀ {s e t}, s.guest.Readable → x s = .error e t → s.guest.EndsIn t.guest

variable {x y : EStateM ε (Attached M F C N) α} {f : α → EStateM ε (Attached M F C N) β}

/-- The computation leaves the guest alone. -/
theorem observing_of_keeps (h : ∀ s, s.guest.Readable → (x s).state.guest = s.guest) :
    Observing x where
  ok := by
    intro s a t hs hx
    have hkeeps := h s hs
    rw [hx] at hkeeps
    exact hkeeps ▸ .refl
  error := by
    intro s e t hs hx
    have hkeeps := h s hs
    rw [hx] at hkeeps
    exact ⟨_, .refl, .inl hkeeps⟩

theorem Observing.bind (hx : Observing x) (hf : ∀ a, Observing (f a)) : Observing (x >>= f) where
  ok := by
    intro s b t hs h
    obtain ⟨a, u, hu, ht⟩ := bind_eq_ok h
    have hsteps := hx.ok hs hu
    exact hsteps.trans ((hf a).ok (hs.continues hsteps) ht)
  error := by
    intro s e t hs h
    rcases bind_eq_error h with hu | ⟨a, u, hu, ht⟩
    · exact hx.error hs hu
    · have hsteps := hx.ok hs hu
      exact ((hf a).error (hs.continues hsteps) ht).trans hsteps

theorem Observing.andThen {x y : EStateM ε (Attached M F C N) (Option β)} (hx : Observing x)
    (hy : Observing y) : Observing (andThen x y) := by
  apply hx.bind
  intro a
  cases a with
  | none => exact hy
  | some b => exact observing_of_keeps (fun s _ => rfl)

theorem Observing.forUpTo {x : EStateM ε (Attached M F C N) (Option β)} (hx : Observing x)
    (n : ℕ) : Observing (forUpTo x n) := by
  induction n with
  | zero => exact observing_of_keeps (fun s _ => rfl)
  | succ n ih => exact hx.andThen ih

end Observers

section Waits

variable {M F C E : Type} {N : ℕ} [Memory M] [SyscallFnMut F M]

theorem observing_round :
    Observing (Attached.round : EStateM (WaitFault E) (Attached M F C N) (Option Event)) where
  ok := by
    intro s event t hs h
    rw [Attached.round_apply] at h
    cases hserviced : Guest.serviced s.guest with
    | ok halted guest =>
      rw [hserviced] at h
      have hguest : t.guest = guest := by
        cases halted <;> cases h <;> rfl
      exact .single ⟨halted, hguest ▸ hserviced⟩
    | error e guest =>
      rw [hserviced] at h
      cases h
  error := by
    intro s e t hs h
    rw [Attached.round_apply] at h
    cases hserviced : Guest.serviced s.guest with
    | ok halted guest =>
      rw [hserviced] at h
      cases halted <;> cases h
    | error e guest =>
      rw [hserviced] at h
      cases h
      exact ⟨s.guest, .refl, .inr ⟨e, hserviced⟩⟩

variable [ConnectionExt C E]

theorem observing_poll :
    Observing (Attached.poll : EStateM (WaitFault E) (Attached M F C N) (Option Event)) := by
  apply observing_of_keeps
  intro s _
  rw [Attached.poll_apply]
  cases (incoming s.conn : Result E C (Option Event)) <;> rfl

variable [Target]

theorem observing_slices (n : ℕ) :
    Observing (Attached.slices n : EStateM (WaitFault E) (Attached M F C N) (Option Event)) := by
  have hslice : Observing
      (Attached.slice : EStateM (WaitFault E) (Attached M F C N) (Option Event)) :=
    (observing_round.andThen observing_poll).andThen (observing_round.forUpTo 1023)
  rw [Attached.slices]
  split_ifs
  · exact (hslice.forUpTo (2 ^ 21)).andThen (observing_of_keeps (fun s _ => rfl))
  · exact hslice.forUpTo n

theorem observing_wait (fuel : ℕ) :
    Observing (wait fuel : EStateM (StubError E) (Attached M F C N) (Option Event)) where
  ok := by
    intro s event t hs h
    rw [wait_eq] at h
    cases hslices : (Attached.slices fuel s : Result (WaitFault E) (Attached M F C N) _) with
    | ok event' u =>
      rw [hslices] at h
      cases event' with
      | none => cases h
      | some event' =>
        cases h
        exact (observing_slices fuel).ok hs hslices
    | error e u =>
      rw [hslices] at h
      cases h
  error := by
    intro s e t hs h
    rw [wait_eq] at h
    cases hslices : (Attached.slices fuel s : Result (WaitFault E) (Attached M F C N) _) with
    | ok event' u =>
      rw [hslices] at h
      cases event' with
      | none =>
        cases h
        exact ⟨s.guest, .refl, .inl rfl⟩
      | some event' => cases h
    | error e u =>
      rw [hslices] at h
      cases h
      exact (observing_slices fuel).error hs hslices

end Waits

section Requests

variable {M F C E α : Type} {N : ℕ}

/-- The call reads, sets breakpoints or says how to go on. A read of `mepc` may write it. -/
def StubCall.Observes : StubCall → Prop
  | .writeRegisters _ | .writeRegister _ _ | .writeAddrs _ _ => False
  | .readRegister regId _ => regId ≠ .csr mepcAddr
  | _ => True

/-- Every call of the stub observes. -/
def Stub.Observes : Stub α → Prop
  | .done _ => True
  | .call c next => c.Observes ∧ ∀ reply, (next reply).Observes

theorem request_state (x : TargetResult M F N α) (s : Attached M F C N) :
    (request (E := E) x s).state = { s with target := (x s.target).state } := by
  rw [request]
  cases x s.target with
  | ok a target => rfl
  | error e target =>
    cases e with
    | error e => cases e <;> rfl
    | panic => rfl

theorem observing_request [Memory M] [SyscallFnMut F M] {x : TargetResult M F N α}
    (h : ∀ target, target.guest.Readable → (x target).state.guest = target.guest) :
    Observing (request x : EStateM (StubError E) (Attached M F C N) (Option α)) := by
  apply observing_of_keeps
  intro s hs
  rw [request_state]
  exact h s.target hs

theorem Debugger.onInterpreter_state (x : Exec M α) (target : Debugger M F N) :
    (onInterpreter x target).state =
      { target with interpreter := (x target.interpreter).state } := by
  rw [onInterpreter, adaptExcept_apply, onPart_apply]
  cases x target.interpreter <;> rfl

theorem readAddrs_state [Memory M] (startAddr : U32) (data : List U8) (target : Debugger M F N) :
    (target.readAddrs startAddr data).state = { target with interpreter.memory :=
      (Memory.loadBytes startAddr data.length target.interpreter.memory).state } := by
  have hmemory := Debugger.onInterpreter_state (onPart Interpreter.memory
    (fun memory s => { s with memory }) (Memory.loadBytes startAddr data.length)) target
  rw [onPart_apply, Result.state_mapState] at hmemory
  rw [Debugger.readAddrs, bind_apply, Debugger.onMemory, ← hmemory]
  cases Debugger.onInterpreter (onPart Interpreter.memory (fun memory s => { s with memory })
    (Memory.loadBytes startAddr data.length)) target with
  | ok res t =>
    dsimp only
    split_ifs <;> rfl
  | error e t => rfl

theorem writeAddrs_state [Memory M] (startAddr : U32) (data : List U8) (target : Debugger M F N) :
    (target.writeAddrs startAddr data).state = { target with interpreter.memory :=
      (Memory.storeBytes startAddr data target.interpreter.memory).state } := by
  have hmemory := Debugger.onInterpreter_state (onPart Interpreter.memory
    (fun memory s => { s with memory }) (Memory.storeBytes startAddr data)) target
  rw [onPart_apply, Result.state_mapState] at hmemory
  exact hmemory

theorem addSwBreakpoint_guest (addr : U32) (target : Debugger M F N) :
    (target.addSwBreakpoint addr).2.guest = target.guest := by
  rw [Debugger.addSwBreakpoint]
  cases target.breakpoints.findFinIdx? Option.isNone <;> rfl

theorem removeSwBreakpoint_guest (addr : U32) (target : Debugger M F N) :
    (target.removeSwBreakpoint addr).2.guest = target.guest := by
  rw [Debugger.removeSwBreakpoint]
  cases target.breakpoints.findFinIdx? (fun b => b = some addr) <;> rfl

theorem onControlStatus_readable {f : CSRegisters → Except Error (α × CSRegisters)}
    (hf : ∀ cs, cs.Readable → ∀ a cs', f cs = .ok (a, cs') → cs'.Readable) :
    Preserves (fun s => s.registers.controlStatus.Readable) (onControlStatus f : Exec M α) := by
  intro s h
  rw [onControlStatus]
  cases hcs : f s.registers.controlStatus with
  | ok r => exact hf _ h r.1 r.2 hcs
  | error e => exact h

theorem valueOf_readable {regId : RiscvRegId} {x : Exec M U32} (hx : valueOf regId = some x) :
    Preserves (fun s => s.registers.controlStatus.Readable) x := by
  cases regId with
  | gpr i =>
    cases hx
    intro s h
    rw [getReg, reads_apply]
    cases s.registers.cpu.get i <;> exact h
  | fpr i =>
    cases hx
    exact preserves_throw _
  | pc =>
    cases hx
    exact fun s h => h
  | csr addr =>
    cases hx
    exact onControlStatus_readable (fun cs h a cs' hop => h.operation hop)
  | priv => cases hx

theorem assign_readable {value : U32} {regId : RiscvRegId} {x : Exec M PUnit}
    (hx : assign value regId = some x) :
    Preserves (fun s => s.registers.controlStatus.Readable) x := by
  cases regId with
  | gpr i =>
    cases hx
    intro s h
    rw [bind_apply, getMutReg, reads_apply]
    cases s.registers.cpu.getMut i <;> exact h
  | fpr i =>
    cases hx
    exact preserves_throw _
  | pc =>
    cases hx
    exact fun s h => h
  | csr addr =>
    cases hx
    exact (onControlStatus_readable (fun cs h a cs' hop => h.operation hop)).bind
      (fun _ => preserves_pure _)
  | priv => cases hx

/-- A read of another register than `mepc` changes nothing. -/
theorem valueOf_state {regId : RiscvRegId} {x : Exec M U32} (hx : valueOf regId = some x)
    (hregId : regId ≠ .csr mepcAddr) {s : Interpreter M}
    (h : s.registers.controlStatus.Readable) : (x s).state = s := by
  cases regId with
  | gpr i =>
    cases hx
    rw [getReg, reads_apply]
    cases s.registers.cpu.get i <;> rfl
  | fpr i =>
    cases hx
    rfl
  | pc =>
    cases hx
    rfl
  | csr addr =>
    cases hx
    have haddr : addr ≠ mepcAddr := fun heq => hregId (congrArg RiscvRegId.csr heq)
    rw [onControlStatus]
    cases hop : s.registers.controlStatus.operation none addr with
    | ok r =>
      have hkeeps : r.2 = s.registers.controlStatus := h.keeps haddr r.1 r.2 hop
      exact congrArg (fun cs => ({ s with registers.controlStatus := cs } : Interpreter M)) hkeeps
    | error e => rfl
  | priv => cases hx

/-- What a read of a register leaves behind. -/
theorem readRegister_state (regId : RiscvRegId) (buf : List U8) (target : Debugger M F N) :
    (target.readRegister regId buf).state = target ∨ ∃ x, valueOf regId = some x ∧
      (target.readRegister regId buf).state =
        { target with interpreter := (x target.interpreter).state } := by
  rw [Debugger.readRegister_eq]
  split_ifs
  · exact .inl rfl
  · cases hx : valueOf (M := M) regId with
    | none => exact .inl rfl
    | some x =>
      refine .inr ⟨x, rfl, ?_⟩
      rw [← Debugger.onInterpreter_state]
      simp only [bind_apply]
      cases Debugger.onInterpreter x target <;> rfl

/-- What a write of a register leaves behind. -/
theorem writeRegister_state (regId : RiscvRegId) (buf : List U8) (target : Debugger M F N) :
    (target.writeRegister regId buf).state = target ∨ ∃ value x, assign value regId = some x ∧
      (target.writeRegister regId buf).state =
        { target with interpreter := (x target.interpreter).state } := by
  rw [Debugger.writeRegister_eq]
  split_ifs
  · exact .inl rfl
  · cases hx : assign (M := M) (fromLeBytes 32 (splice [0, 0, 0, 0] 0 buf)) regId with
    | none => exact .inl rfl
    | some x => exact .inr ⟨_, x, hx, Debugger.onInterpreter_state x target⟩

variable [Memory M] [SyscallFnMut F M] [Target] [ConnectionExt C E]

/-- A call that observes only lets the guest make steps. -/
theorem StubCall.Observes.observing {c : StubCall} (h : c.Observes)
    (hmemory : ∀ address len (memory : M), (Memory.loadBytes address len memory).state = memory)
    (fuel : ℕ) : Observing (c.perform fuel : EStateM (StubError E) (Attached M F C N) _) := by
  cases c with
  | readRegisters => exact observing_request (x := Debugger.readRegisters) (fun target _ => rfl)
  | readRegister regId buf =>
    apply observing_request
    intro target hreadable
    rcases readRegister_state regId buf target with hstate | ⟨x, hx, hstate⟩
    · exact congrArg Debugger.guest hstate
    · have hsame : (x target.interpreter).state = target.interpreter :=
        valueOf_state hx h hreadable
      rw [hsame] at hstate
      exact congrArg Debugger.guest hstate
  | readAddrs startAddr data =>
    apply observing_request
    intro target _
    have hstate := readAddrs_state startAddr data target
    rw [hmemory] at hstate
    exact congrArg Debugger.guest hstate
  | addSwBreakpoint addr =>
    apply observing_request (x := modifyGet (fun self => self.addSwBreakpoint addr))
    intro target _
    exact addSwBreakpoint_guest addr target
  | removeSwBreakpoint addr =>
    apply observing_request (x := modifyGet (fun self => self.removeSwBreakpoint addr))
    intro target _
    exact removeSwBreakpoint_guest addr target
  | resume => exact observing_request (x := Debugger.resume) (fun target _ => rfl)
  | step => exact observing_request (x := Debugger.step) (fun target _ => rfl)
  | waitForStopReason => exact observing_wait fuel
  | writeRegisters regs => exact h.elim
  | writeRegister regId buf => exact h.elim
  | writeAddrs startAddr data => exact h.elim

/-- A stub that observes only lets the guest make steps. -/
theorem Stub.Observes.observing {stub : Stub α} (h : stub.Observes)
    (hmemory : ∀ address len (memory : M), (Memory.loadBytes address len memory).state = memory)
    (fuel : ℕ) : Observing (stub.onDebugger fuel : EStateM (StubError E) (Attached M F C N) α) := by
  induction stub with
  | done result => exact observing_of_keeps (fun s _ => rfl)
  | call c next ih => exact (h.1.observing hmemory fuel).bind (fun reply => ih reply (h.2 reply))

omit [Memory M] [SyscallFnMut F M] [Target] [ConnectionExt C E] in
/-- A request after which the debugger is one with readable registers. -/
theorem preserves_request {x : TargetResult M F N α}
    (h : ∀ target, target.guest.Readable → ∃ target', (x target).state = target' ∧
      target'.guest.Readable) :
    Preserves (fun s => s.guest.Readable)
      (request x : EStateM (StubError E) (Attached M F C N) (Option α)) := by
  intro s hs
  obtain ⟨target', hstate, hreadable⟩ := h s.target hs
  rw [request_state, hstate]
  exact hreadable

omit [Target] [ConnectionExt C E] in
theorem Observing.preserves {ε : Type} {x : EStateM ε (Attached M F C N) α} (h : Observing x) :
    Preserves (fun s => s.guest.Readable) x := by
  intro s hs
  cases hx : x s with
  | ok a t => exact hs.continues (h.ok hs hx)
  | error e t =>
    obtain ⟨g, hsteps, hlast⟩ := h.error hs hx
    have hg := hs.continues hsteps
    rcases hlast with hkeeps | ⟨e, hserviced⟩
    · rw [← hkeeps] at hg
      exact hg
    · have hnext := Guest.preserves_serviced g hg
      rw [hserviced] at hnext
      exact hnext

/-- Every call keeps the registers readable, also one that writes them. -/
theorem StubCall.preserves_perform (fuel : ℕ) (c : StubCall) :
    Preserves (fun s => s.guest.Readable)
      (c.perform fuel : EStateM (StubError E) (Attached M F C N) _) := by
  cases c with
  | readRegisters =>
    exact preserves_request (x := Debugger.readRegisters) (fun target h => ⟨_, rfl, h⟩)
  | writeRegisters regs =>
    exact preserves_request (x := Debugger.writeRegisters regs) (fun target h => ⟨_, rfl, h⟩)
  | readRegister regId buf =>
    apply preserves_request
    intro target h
    rcases readRegister_state regId buf target with hstate | ⟨x, hx, hstate⟩
    · exact ⟨_, hstate, h⟩
    · exact ⟨_, hstate, valueOf_readable hx _ h⟩
  | writeRegister regId buf =>
    apply preserves_request
    intro target h
    rcases writeRegister_state regId buf target with hstate | ⟨value, x, hx, hstate⟩
    · exact ⟨_, hstate, h⟩
    · exact ⟨_, hstate, assign_readable hx _ h⟩
  | readAddrs startAddr data =>
    exact preserves_request (fun target h => ⟨_, readAddrs_state startAddr data target, h⟩)
  | writeAddrs startAddr data =>
    exact preserves_request (fun target h => ⟨_, writeAddrs_state startAddr data target, h⟩)
  | addSwBreakpoint addr =>
    apply preserves_request (x := modifyGet (fun self => self.addSwBreakpoint addr))
    intro target h
    rw [← addSwBreakpoint_guest addr] at h
    exact ⟨_, rfl, h⟩
  | removeSwBreakpoint addr =>
    apply preserves_request (x := modifyGet (fun self => self.removeSwBreakpoint addr))
    intro target h
    rw [← removeSwBreakpoint_guest addr] at h
    exact ⟨_, rfl, h⟩
  | resume => exact preserves_request (x := Debugger.resume) (fun target h => ⟨_, rfl, h⟩)
  | step => exact preserves_request (x := Debugger.step) (fun target h => ⟨_, rfl, h⟩)
  | waitForStopReason => exact (observing_wait fuel).preserves

theorem Stub.preserves_onDebugger (fuel : ℕ) (stub : Stub α) :
    Preserves (fun s => s.guest.Readable)
      (stub.onDebugger fuel : EStateM (StubError E) (Attached M F C N) α) := by
  induction stub with
  | done result => exact preserves_pure result
  | call c next ih => exact (c.preserves_perform fuel).bind ih

/-- After any session on a new debugger, a stub that observes leaves the guest in a state that
the guest gets to by itself. -/
theorem observes_undisturbed {β : Type}
    (hmemory : ∀ address len (memory : M), (Memory.loadBytes address len memory).state = memory)
    (memory : M) (syscallFn : F) (conn : C) {fuel : ℕ} {session : Stub β} {b : β}
    {s : Attached M F C N}
    (hsession : session.onDebugger (E := E) fuel ⟨.new memory syscallFn, conn⟩ = .ok b s)
    {stub : Stub α} (hstub : stub.Observes) :
    (∀ a t, stub.onDebugger (E := E) fuel s = .ok a t →
      Relation.ReflTransGen Guest.Continues s.guest t.guest) ∧
    ∀ e t, stub.onDebugger (E := E) fuel s = .error e t → s.guest.EndsIn t.guest := by
  have hnew : (⟨.new memory syscallFn, conn⟩ : Attached M F C N).guest.Readable :=
    CSRegisters.readable_default
  have hreadable := Stub.preserves_onDebugger (E := E) fuel session _ hnew
  rw [hsession] at hreadable
  have hobserving : Observing
      (stub.onDebugger fuel : EStateM (StubError E) (Attached M F C N) α) :=
    hstub.observing hmemory fuel
  exact ⟨fun a t h => hobserving.ok hreadable h, fun e t h => hobserving.error hreadable h⟩

end Requests

/-- Write a register. -/
def writeStub : Stub (Option PUnit) := .call (.writeRegister (.gpr 5) [1]) .done

/-- Make a step. -/
def stepStub : Stub (Option Event) := .call .step fun _ => .call .waitForStopReason .done

theorem observes_undisturbed_step : letI := Target.release64
    letI := ConnectionExt.silent
    letI := SyscallFnMut.zero
    ∃ s t, writeStub.onDebugger (E := Unit) 1 ⟨nopDebugger, ()⟩ = .ok (some ⟨⟩) s ∧
      stepStub.onDebugger (E := Unit) 1 s = .ok (some (.targetStopped .doneStep)) t ∧
      Relation.ReflTransGen Guest.Continues s.guest t.guest := by
  let _ := Target.release64
  let _ := ConnectionExt.silent
  let _ := SyscallFnMut.zero
  have hmemory (address : U32) (len : ℕ) (memory : SliceMemory) :
      (Memory.loadBytes address len memory).state = memory := by
    simp only [Memory.loadBytes, reads_apply]
    cases memory.loadBytes address len <;> rfl
  have hsession : ∃ s, writeStub.onDebugger (E := Unit) 1 ⟨nopDebugger, ()⟩ = .ok (some ⟨⟩) s :=
    ⟨_, rfl⟩
  obtain ⟨s, hs⟩ := hsession
  have hstep : ∃ t, stepStub.onDebugger (E := Unit) 1 s =
      .ok (some (.targetStopped .doneStep)) t := by
    have hevent : (match stepStub.onDebugger (E := Unit) 1 s with
        | .ok event _ => event
        | .error _ _ => none) = some (.targetStopped .doneStep) := by
      cases hs
      with_unfolding_all rfl
    cases hrun : stepStub.onDebugger (E := Unit) 1 s with
    | ok event t =>
      rw [hrun] at hevent
      exact ⟨t, congrArg (fun event => Result.ok event t) hevent⟩
    | error e t =>
      rw [hrun] at hevent
      cases hevent
  obtain ⟨t, ht⟩ := hstep
  have hobserves : stepStub.Observes := ⟨trivial, fun _ => ⟨trivial, fun _ => trivial⟩⟩
  exact ⟨s, t, hs, ht, (observes_undisturbed hmemory _ _ _ hs hobserves).1 _ t ht⟩

end Embive
