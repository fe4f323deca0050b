import Embive.Alignment

/-! # Interrupt handlers

From the interrupt to the first `mret` that returns from it, a handler runs with
interrupts disabled, the previous enable bit set and the interrupted program counter in
`mepc`, as long as it does not write `mstatus` or `mepc` itself.
-/

namespace Embive

open EStateM Interpreter Lib

variable {M : Type}

section Instructions

/-- The instruction is the system or memory ordering instruction with this number. -/
def Decoded.IsSystem (imm : I32) : Decoded → Prop
  | .systemMiscMem data => data.func = SystemMiscMem.miscFunc ∧ data.imm = imm
  | _ => False

/-- The instruction returns from a trap. -/
def Decoded.IsMret (inst : Decoded) : Prop := inst.IsSystem SystemMiscMem.mretImm

/-- The operation writes its register: one that sets or clears the bits of register zero,
or of the immediate zero, only reads it. -/
def SystemMiscMem.Writes (data : TypeI) : Prop :=
  data.func = csrrwFunc ∨ data.func = csrrwiFunc ∨
    data.rs1 ≠ 0 ∧ (data.func = csrrsFunc ∨ data.func = csrrcFunc ∨ data.func = csrrsiFunc ∨
      data.func = csrrciFunc)

/-- The instruction writes the control and status register at the address. -/
def Decoded.WritesCsr (addr : U16) : Decoded → Prop
  | .systemMiscMem data =>
    (data.imm &&& 0b1111_1111_1111).setWidth 16 = addr ∧ SystemMiscMem.Writes data
  | _ => False

/-- The instruction neither returns from the trap nor writes `mstatus` or `mepc`. -/
structure Decoded.StaysInTrap (inst : Decoded) : Prop where
  notMret : ¬inst.IsMret
  keepsMstatus : ¬inst.WritesCsr mstatusAddr
  keepsMepc : ¬inst.WritesCsr mepcAddr

variable {size pc : U32} {regs : Registers} {data : TypeI} {inst : Decoded}

theorem SystemMiscMem.writes_of_op {op : CSOperation}
    (h : SystemMiscMem.op regs pc data = .ok (some op)) : SystemMiscMem.Writes data := by
  unfold SystemMiscMem.op at h
  unfold Writes
  split_ifs at h <;> simp_all

/-- Only a control and status instruction operates on the register it names. -/
theorem Decoded.of_controlStatus {op : Option CSOperation} {addr : U16}
    (h : (inst.action size regs pc).effect = .controlStatus op addr) :
    ∃ data, inst = .systemMiscMem data ∧ data.func ≠ SystemMiscMem.miscFunc ∧
      SystemMiscMem.op regs pc data = .ok op ∧
      (data.imm &&& 0b1111_1111_1111).setWidth 16 = addr := by
  rcases inst.effect_isPlain size pc regs with hplain | ⟨data, rfl⟩ | ⟨data, rfl⟩
  · rw [h] at hplain
    exact hplain.elim
  · rw [action] at h
    rcases OpAmo.effect_cases regs pc data with
      ⟨_, he⟩ | ⟨-, he⟩ | ⟨-, he⟩ | ⟨_, -, he⟩ | he <;> rw [he] at h <;> cases h
  · rw [action] at h
    rcases SystemMiscMem.action_cases size regs pc data with
      ⟨-, _, -, ha⟩ | ⟨-, -, ha⟩ | ⟨-, -, ha⟩ | ⟨hmisc, _, hop, ha⟩ | ⟨-, ha⟩ <;>
      rw [ha] at h <;> cases h
    exact ⟨data, rfl, hmisc, hop, rfl⟩

/-- Only `mret` returns from a trap. -/
theorem Decoded.of_trapReturn (h : (inst.action size regs pc).effect = .trapReturn) :
    inst.IsMret := by
  rcases inst.effect_isPlain size pc regs with hplain | ⟨data, rfl⟩ | ⟨data, rfl⟩
  · rw [h] at hplain
    exact hplain.elim
  · rw [action] at h
    rcases OpAmo.effect_cases regs pc data with
      ⟨_, he⟩ | ⟨-, he⟩ | ⟨-, he⟩ | ⟨_, -, he⟩ | he <;> rw [he] at h <;> cases h
  · rw [action] at h
    rcases SystemMiscMem.action_cases size regs pc data with
      ⟨-, _, -, ha⟩ | ⟨hmisc, hmret, -⟩ | ⟨-, -, ha⟩ | ⟨-, _, -, ha⟩ | ⟨-, ha⟩
    · rw [ha] at h
      cases h
    · exact ⟨hmisc, hmret⟩
    all_goals
      rw [ha] at h
      cases h

theorem Decoded.action_of_isMret (h : inst.IsMret) :
    inst.action size regs pc = ⟨.trapReturn, none, regs.controlStatus.mepc, .running⟩ := by
  cases inst
  case systemMiscMem data =>
    obtain ⟨hmisc, hmret⟩ := h
    simp only [action, SystemMiscMem.action, if_pos hmisc, hmret]
    rfl
  all_goals exact h.elim

end Instructions

section Trap

/-- Interrupts are disabled, and are enabled again by the return to the program counter. -/
structure CSRegisters.Trapped (pc : U32) (cs : CSRegisters) : Prop where
  mie : cs.mstatus &&& mstatusMie = 0
  mpie : cs.mstatus &&& mstatusMpie ≠ 0
  mepc : cs.mepc = pc

variable {cs cs' : CSRegisters} {pc : U32}

theorem CSRegisters.trapEntry_trapped (h : cs.interruptEnabled) (pc : U32) (value : I32) :
    (cs.setInterrupt.trapEntry pc value).1.Trapped pc := by
  have hbits : ∀ x : U8, (x ||| mstatusMpie) &&& ~~~mstatusMie &&& mstatusMie = 0 ∧
      (x ||| mstatusMpie) &&& ~~~mstatusMie &&& mstatusMpie ≠ 0 := by
    decide
  have hmie : cs.setInterrupt.mstatus &&& mstatusMie ≠ 0 := by
    rw [interruptEnabled, Bool.and_eq_true, bne_iff_ne] at h
    exact h.2
  refine ⟨?_, ?_, rfl⟩
  · rw [trapEntry, if_pos hmie]
    exact (hbits cs.mstatus).1
  · rw [trapEntry, if_pos hmie]
    exact (hbits cs.mstatus).2

theorem CSRegisters.Trapped.interruptEnabled (h : cs.Trapped pc) : ¬cs.interruptEnabled := by
  rw [CSRegisters.interruptEnabled, h.mie]
  simp

/-- A read writes the register back, which leaves the bits that count as they are. -/
theorem CSRegisters.Trapped.operation (h : cs.Trapped pc) (hpc : IsEven pc)
    {op : Option CSOperation} {addr : U16} {value : U32}
    (hop : op = none ∨ addr ≠ mstatusAddr ∧ addr ≠ mepcAddr)
    (hok : cs.operation op addr = .ok (value, cs')) : cs'.Trapped pc := by
  have hchanges := cs.operation_changesOnly op addr value cs' hok
  have hmask : ∀ x : U8, (x.setWidth 32).setWidth 8 &&& mstatusMask &&& mstatusMie =
      x &&& mstatusMie ∧ (x.setWidth 32).setWidth 8 &&& mstatusMask &&& mstatusMpie =
      x &&& mstatusMpie := by
    decide
  obtain ⟨hmie, hmpie⟩ := hmask cs.mstatus
  by_cases hmstatus : addr = mstatusAddr
  · subst hmstatus
    obtain rfl := hop.resolve_right (fun hne => hne.1 rfl)
    cases hok
    exact ⟨hmie.trans h.mie, fun hzero => h.mpie (hmpie.symm.trans hzero), h.mepc⟩
  · have hstatus := hchanges.mstatus hmstatus
    refine ⟨hstatus ▸ h.mie, hstatus ▸ h.mpie, ?_⟩
    by_cases hmepc : addr = mepcAddr
    · subst hmepc
      obtain rfl := hop.resolve_right (fun hne => hne.2 rfl)
      cases hok
      exact (congrArg (· &&& ~~~mepcBit0) h.mepc).trans hpc.clear_eq
    · exact (hchanges.mepc hmepc).trans h.mepc

theorem CSRegisters.Trapped.trapReturn (h : cs.Trapped pc) :
    cs.trapReturn.1.mstatus &&& mstatusMie ≠ 0 := by
  have hbits : ∀ x : U8, (x ||| mstatusMie) &&& mstatusMie ≠ 0 := by decide
  rw [CSRegisters.trapReturn, if_pos h.mpie]
  exact hbits cs.mstatus

end Trap

variable [Memory M]

/-- The instruction at the program counter neither returns from the trap nor writes
`mstatus` or `mepc`. -/
def StepStaysInTrap (s : Interpreter M) : Prop :=
  ∀ inst t, Fetches s inst t → inst.StaysInTrap

/-- The states of a handler that was entered in the state `t`: it is stepped or run up to
its `mret`, and the host triggers interrupts and answers system calls at any point. -/
inductive Handler (t : Interpreter M) : Interpreter M → Prop
  | entry : Handler t t
  | step {u : Interpreter M} (h : Handler t u) (hu : StepStaysInTrap u) :
      Handler t (step u).state
  | run {u : Interpreter M} {fuel : ℕ} {r : Result Error (Interpreter M) State}
      (h : Handler t u) (hu : ∀ v, RunsThrough u v → StepStaysInTrap v)
      (hr : Interpreter.run fuel u = some r) : Handler t r.state
  | interrupt {u : Interpreter M} (h : Handler t u) (value : I32) :
      Handler t (interrupt value u).state
  | syscall {u : Interpreter M} (h : Handler t u) {E : Type} (function : SyscallFn M E) :
      Handler t (syscall function u).state

section Invariant

variable {pc : U32} {s t u : Interpreter M}

theorem Decoded.perform_trapped {inst : Decoded} (hstays : inst.StaysInTrap) (hpc : IsEven pc)
    (h : s.registers.controlStatus.Trapped pc) :
    ((inst.action inst.size.toU32 s.registers s.programCounter).perform
      s).state.registers.controlStatus.Trapped pc := by
  have heffect := Effect.preserves (M := M) (I := fun t => t.registers.controlStatus.Trapped pc)
    (preserves_load (fun _ _ h => h)) (preserves_store (fun _ _ h => h))
    (inst.action inst.size.toU32 s.registers s.programCounter).effect
    (fun _ _ _ h => h) ?operation ?trapReturn
  case operation =>
    intro op addr heffect t value cs hok ht
    obtain ⟨data, rfl, -, hop, haddr⟩ := of_controlStatus heffect
    refine ht.operation hpc ?_ hok
    cases op with
    | none => exact .inl rfl
    | some op =>
      have hwrites := SystemMiscMem.writes_of_op hop
      refine .inr ⟨?_, ?_⟩
      · intro hmstatus
        exact hstays.keepsMstatus ⟨haddr.trans hmstatus, hwrites⟩
      · intro hmepc
        exact hstays.keepsMepc ⟨haddr.trans hmepc, hwrites⟩
  case trapReturn =>
    intro hmret
    exact absurd (of_trapReturn hmret) hstays.notMret
  exact heffect.bind (fun result u hu => by
    cases (inst.action inst.size.toU32 s.registers s.programCounter).rd <;> exact hu) s h

theorem step_trapped (hpc : IsEven pc) (hu : StepStaysInTrap u)
    (h : u.registers.controlStatus.Trapped pc) :
    (step u).state.registers.controlStatus.Trapped pc := by
  apply step_preserves (I := fun t => t.registers.controlStatus.Trapped pc) (fun _ _ h => h) _ h
  intro inst t hfetch ht
  exact Decoded.perform_trapped (hu inst t hfetch) hpc ht

/-- The handler stays in the trap. -/
theorem Handler.trapped (hpc : IsEven pc) (ht : t.registers.controlStatus.Trapped pc)
    (h : Handler t u) : u.registers.controlStatus.Trapped pc := by
  induction h with
  | entry => exact ht
  | step _ hu ih => exact step_trapped hpc hu ih
  | run _ hu hr ih =>
    exact run_preserves (fun v hv hIv => step_trapped hpc (hu v hv) hIv) ih hr
  | @interrupt u _ value ih =>
    rw [interrupt_apply, if_neg ih.interruptEnabled]
    exact ih
  | @syscall u _ _ function ih =>
    rcases syscall_cases function u with ⟨memory, hstate⟩ | ⟨memory, result, hstate⟩ <;> rw [hstate]
    · exact ih
    · cases result <;> exact ih

end Invariant

/-- How an interrupt enters the handler. -/
structure Enters (s : Interpreter M) (value : I32) (t : Interpreter M) : Prop where
  accepted : interrupt value s = .ok ⟨⟩ t
  programCounter : t.programCounter = s.registers.controlStatus.mtvec &&& ~~~mtvecMode
  vector : s.registers.controlStatus.mtvec &&& mtvecMode = 0 →
    t.programCounter = s.registers.controlStatus.mtvec
  mcause : t.registers.controlStatus.mcause = 0x80000010
  mtval : t.registers.controlStatus.mtval = value
  cpu : t.registers.cpu = s.registers.cpu
  memory : t.memory = s.memory

/-- How `mret`, executed in the state `u`, leaves the handler of an interrupt that came in
the state `s`. -/
structure Returns (s u r : Interpreter M) : Prop where
  programCounter : r.programCounter = s.programCounter
  mie : r.registers.controlStatus.mstatus &&& mstatusMie ≠ 0
  cpu : r.registers.cpu = u.registers.cpu
  memory : r.memory = u.memory
  resumes : u.registers.cpu = s.registers.cpu → u.memory = s.memory →
    r.programCounter = s.programCounter ∧ r.registers.cpu = s.registers.cpu ∧
      r.memory = s.memory

omit [Memory M] in
theorem enters_of_enabled {s : Interpreter M}
    (h : s.registers.controlStatus.interruptEnabled) (value : I32) :
    ∃ t, Enters s value t ∧ t.registers.controlStatus.Trapped s.programCounter := by
  have hstep := interrupt_apply value s
  rw [if_pos h] at hstep
  refine ⟨_, ⟨hstep, rfl, ?_, rfl, rfl, rfl, rfl⟩, CSRegisters.trapEntry_trapped h _ value⟩
  intro hvector
  have hsplit : ∀ x : U32, x &&& ~~~mtvecMode ||| x &&& mtvecMode = x :=
    OrLinear.eq_of_oneBit (by fun_prop) (by fun_prop) (by decide)
  have hmtvec := hsplit s.registers.controlStatus.mtvec
  rw [hvector] at hmtvec
  exact BitVec.or_zero.symm.trans hmtvec

theorem returns_of_isMret {s u u' : Interpreter M} {inst : Decoded}
    (h : u.registers.controlStatus.Trapped s.programCounter) (hfetch : Fetches u inst u')
    (hmret : inst.IsMret) : ∃ r, step u = .ok .running r ∧ Returns s u' r := by
  have hframe := hfetch.frame
  have htrapped : u'.registers.controlStatus.Trapped s.programCounter := by
    rw [hframe]
    exact h
  refine ⟨{ u' with
    programCounter := s.programCounter
    registers.controlStatus := u'.registers.controlStatus.trapReturn.1 }, ?_, ?_⟩
  · rw [hfetch.step, Decoded.action_of_isMret hmret, htrapped.mepc]
    rfl
  · refine ⟨rfl, htrapped.trapReturn, rfl, rfl, ?_⟩
    intro hcpu hmemory
    exact ⟨rfl, hcpu, hmemory⟩

/-- An accepted interrupt enters the handler, no other is accepted up to the first `mret`,
and this returns to the interrupted program. -/
theorem handler_returns {s : Interpreter M}
    (henabled : s.registers.controlStatus.interruptEnabled) (hpc : IsEven s.programCounter)
    (value : I32) :
    ∃ t, Enters s value t ∧ ∀ u, Handler t u →
      (∀ value', interrupt value' u = .error .interruptNotEnabled u) ∧
      u.registers.controlStatus.mepc = s.programCounter ∧
      ∀ inst u', Fetches u inst u' → inst.IsMret →
        ∃ r, step u = .ok .running r ∧ Returns s u' r := by
  obtain ⟨t, henters, ht⟩ := enters_of_enabled henabled value
  refine ⟨t, henters, ?_⟩
  intro u hu
  have htrapped := hu.trapped hpc ht
  refine ⟨?_, htrapped.mepc, ?_⟩
  · intro value'
    rw [interrupt_apply, if_neg htrapped.interruptEnabled]
  · intro inst u' hfetch hmret
    exact returns_of_isMret htrapped hfetch hmret

/-- A program that is interrupted before its second word. Its handler adds one to `a0` and
returns. -/
def interrupted : Interpreter SliceMemory where
  programCounter := 4
  registers := ⟨.default, { CSRegisters.default with
    mieEmbive := true, mstatus := mstatusMie, mtvec := 8 }⟩
  memory := ⟨[0x1F, 0, 0, 0, 0x1F, 0, 0x10, 0, 29, 40, 21, 0, 0x1F, 0, 0x40, 0], []⟩
  instructionLimit := 0
  memoryReservation := none

/-- The program on entry to its handler. -/
def entered : Interpreter SliceMemory :=
  { interrupted with
    programCounter := 8
    registers.controlStatus := (interrupted.registers.controlStatus.setInterrupt.trapEntry 4 7).1 }

/-- The handler after its first instruction. -/
def handled : Interpreter SliceMemory :=
  { entered with
    programCounter := 12
    registers.cpu := CPURegisters.default.write 10 1 }

theorem handler_returns_handled : letI := Target.release64
    ∃ r, Enters interrupted 7 entered ∧ step entered = .ok .running handled ∧
      interrupt 9 handled = .error .interruptNotEnabled handled ∧
      step handled = .ok .running r ∧ Returns interrupted handled r := by
  let _ := Target.release64
  have hstays : StepStaysInTrap entered := by
    rintro inst t ⟨data, hload, hdecode⟩
    cases hload
    cases hdecode
    exact ⟨id, id, id⟩
  have hstep : step entered = .ok .running handled := by rfl
  obtain ⟨t, henters, hhandler⟩ :=
    handler_returns (by decide : interrupted.registers.controlStatus.interruptEnabled)
      (by decide : IsEven interrupted.programCounter) 7
  obtain rfl : entered = t := (Result.ok.inj henters.accepted).2
  have hhandled := Handler.entry.step hstays
  rw [hstep] at hhandled
  obtain ⟨hrefused, -, hmret⟩ := hhandler handled hhandled
  obtain ⟨r, hr⟩ := hmret (.systemMiscMem ⟨0, 0, 4, 0⟩) _ ⟨0x0040001F, rfl, rfl⟩ ⟨rfl, rfl⟩
  exact ⟨r, henters, hstep, hrefused 9, hr⟩

end Embive
