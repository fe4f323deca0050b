import Embive.Action

/-! # Executing an instruction performs its action -/

namespace Embive

open EStateM Interpreter

/-- The registers an instruction names. -/
def Decoded.registers : Decoded → List U8
  | .cAddi4spn data => [data.rd]
  | .cLw data | .cSw data => [data.rdRs2, data.rs1]
  | .cAddi data | .cLi data => [data.rdRs1]
  | .cJal _ | .cJ _ => []
  | .cAddi16sp data => [data.rdRs1]
  | .cLui data => [data.rdRs1]
  | .cSrli data | .cSrai data => [data.rdRs1]
  | .cAndi data => [data.rdRs1]
  | .cSub data | .cXor data | .cOr data | .cAnd data => [data.rdRs1, data.rs2]
  | .cBeqz data | .cBnez data => [data.rs1]
  | .cSlli data => [data.rdRs1]
  | .cLwsp data => [data.rdRs1]
  | .cJrMv data | .cEbreakJalrAdd data => [data.rdRs1, data.rs2]
  | .cSwsp data => [data.rs2]
  | .auipc data | .lui data => [data.rd]
  | .branch data => [data.rs1, data.rs2]
  | .jal data => [data.rd]
  | .jalr data | .loadStore data | .opImm data | .systemMiscMem data => [data.rdRs2, data.rs1]
  | .opAmo data => [data.rd, data.rs1, data.rs2]

/-- Every named register exists. -/
def Decoded.Wf (inst : Decoded) : Prop := ∀ index ∈ inst.registers, index.toNat < 32

variable {M : Type}

section Primitives

variable (s : Interpreter M)

@[simp] theorem getPc_apply : (getPc : Exec M U32) s = .ok s.programCounter s := rfl

@[simp] theorem setPc_apply (pc : U32) :
    (setPc pc : Exec M PUnit) s = .ok ⟨⟩ { s with programCounter := pc } := rfl

@[simp] theorem nextInstruction_apply (size : U32) :
    (nextInstruction size : Exec M PUnit) s =
      .ok ⟨⟩ { s with programCounter := s.programCounter + size } := rfl

@[simp] theorem readCell_apply (cell : Fin 32) :
    (readCell cell : Exec M I32) s = .ok (s.registers.cpu.read cell) s := rfl

@[simp] theorem writeCell_apply (cell : Fin 32) (value : I32) :
    (writeCell cell value : Exec M PUnit) s =
      .ok ⟨⟩ { s with registers.cpu := s.registers.cpu.write cell value } := rfl

theorem getReg_apply {index : U8} (h : index.toNat < 32) :
    (getReg index : Exec M I32) s = .ok (s.registers.value index) s := by
  simp [getReg, reads_apply, CPURegisters.get, h, Registers.value, CPURegisters.read, cellOf,
    Nat.mod_eq_of_lt h]

theorem getMutReg_apply {index : U8} (h : index.toNat < 32) :
    (getMutReg index : Exec M (Fin 32)) s = .ok (cellOf index) s := by
  simp [getMutReg, reads_apply, CPURegisters.getMut, h, cellOf, Fin.ofNat, Nat.mod_eq_of_lt h]

end Primitives

section Retire

variable (s : Interpreter M) (result : I32) (pc : U32)

@[simp] theorem retire_none : s.retire none result pc = { s with programCounter := pc } := rfl

@[simp] theorem retire_some (rd : Fin 32) : s.retire (some rd) result pc =
    { s with programCounter := pc, registers.cpu := s.registers.cpu.write rd result } := rfl

section Untouched

variable (rd : Option (Fin 32))

@[simp] theorem retire_pc : (s.retire rd result pc).programCounter = pc := by
  cases rd <;> rfl

@[simp] theorem retire_memory : (s.retire rd result pc).memory = s.memory := by
  cases rd <;> rfl

@[simp] theorem retire_controlStatus :
    (s.retire rd result pc).registers.controlStatus = s.registers.controlStatus := by
  cases rd <;> rfl

@[simp] theorem retire_reservation :
    (s.retire rd result pc).memoryReservation = s.memoryReservation := by
  cases rd <;> rfl

@[simp] theorem retire_instructionLimit :
    (s.retire rd result pc).instructionLimit = s.instructionLimit := by
  cases rd <;> rfl

variable {rd} in
/-- A register that is no destination keeps its value. -/
theorem retire_register {i : Fin 32} (h : ∀ cell, rd = some cell → i ≠ cell) :
    (s.retire rd result pc).registers.cpu.read i = s.registers.cpu.read i := by
  cases rd with
  | none => rfl
  | some cell =>
    have hne : cell.val ≠ i.val := fun heq => h cell rfl (Fin.ext heq.symm)
    exact Vector.getElem_set_ne cell.isLt i.isLt hne

end Untouched

@[simp] theorem unlessZero_zero : unlessZero 0#8 = none := rfl

theorem unlessZero_of_ne {index : U8} (h : index ≠ 0#8) :
    unlessZero index = some (cellOf index) :=
  if_neg h

end Retire

section Perform

variable [Memory M] (s : Interpreter M) (rd : Option (Fin 32)) (pc : U32) (state : State)

@[simp] theorem perform_value (result : I32) :
    (Action.perform ⟨.value result, rd, pc, state⟩ : Exec M State) s =
      .ok state (s.retire rd result pc) := rfl

@[simp] theorem perform_refuse (error : Error) :
    (Action.perform (.refuse error) : Exec M State) s = .error error s := rfl

@[simp] theorem perform_write (result : I32) :
    (Action.perform (.write result rd pc) : Exec M State) s =
      .ok .running (s.retire rd result pc) := rfl

@[simp] theorem perform_goto :
    (Action.perform (.goto pc state) : Exec M State) s =
      .ok state { s with programCounter := pc } := rfl

end Perform

@[simp] theorem takeReservation_apply (s : Interpreter M) :
    (takeReservation : Exec M _) s =
      .ok s.memoryReservation { s with memoryReservation := none } := rfl

@[simp] theorem setReservation_apply (s : Interpreter M) (reservation : Option (U32 × I32)) :
    (setReservation reservation : Exec M PUnit) s =
      .ok ⟨⟩ { s with memoryReservation := reservation } := rfl

section Accesses

variable [Memory M] (s : Interpreter M)

/-- A load reaches nothing but the memory. -/
theorem load_cases (w : ℕ) (address : U32) :
    (∃ value memory, Interpreter.load w address s = .ok value { s with memory := memory }) ∨
      ∃ error memory,
        Interpreter.load w address s = .error error { s with memory := memory } := by
  rw [Interpreter.load, onPart_apply]
  cases MemoryType.load w address s.memory with
  | ok value memory => exact .inl ⟨value, memory, rfl⟩
  | error error memory => exact .inr ⟨error, memory, rfl⟩

/-- A store reaches nothing but the memory. -/
theorem store_cases {w : ℕ} (value : BitVec w) (address : U32) :
    (∃ memory, Interpreter.store value address s = .ok ⟨⟩ { s with memory := memory }) ∨
      ∃ error memory,
        Interpreter.store value address s = .error error { s with memory := memory } := by
  rw [Interpreter.store, onPart_apply]
  cases MemoryType.store value address s.memory with
  | ok _ memory => exact .inl ⟨memory, rfl⟩
  | error error memory => exact .inr ⟨error, memory, rfl⟩

end Accesses

section Refinement

variable (size : U32) (s : Interpreter M)

theorem updateUnlessZero_apply {rdRs1 : U8} (h : rdRs1.toNat < 32) (f : I32 → I32) [Memory M] :
    (updateUnlessZero rdRs1 f size : Exec M State) s =
      (updateAction size s.registers s.programCounter rdRs1 f).perform s := by
  by_cases h0 : rdRs1 = 0#8
  · simp [updateUnlessZero, updateAction, h0]
  · simp [updateUnlessZero, updateAction, h0,
      getMutReg_apply _ h, unlessZero_of_ne h0, Registers.value]

theorem combineUnlessZero_apply {data : TypeCS} (h1 : data.rdRs1.toNat < 32)
    (h2 : data.rs2.toNat < 32) (f : I32 → I32 → I32) [Memory M] :
    (combineUnlessZero data f size : Exec M State) s =
      (updateAction size s.registers s.programCounter data.rdRs1
        (fun rs1 => f rs1 (s.registers.value data.rs2))).perform s := by
  by_cases h0 : data.rdRs1 = 0#8
  · simp [combineUnlessZero, updateAction, h0]
  · simp [combineUnlessZero, updateAction, h0,
      getMutReg_apply _ h1, getReg_apply _ h2, unlessZero_of_ne h0, Registers.value]

theorem branchIf_apply {data : TypeCB4} (h : data.rs1.toNat < 32) (taken : I32 → Bool)
    [Memory M] :
    (branchIf data taken size : Exec M State) s =
      (Action.goto (if taken (s.registers.value data.rs1) then s.programCounter + data.imm
        else s.programCounter + size) .running).perform s := by
  cases ht : taken (s.registers.value data.rs1) <;>
    simp [branchIf, getReg_apply _ h, ht]

theorem Branch.execute_apply {data : TypeB} (h1 : data.rs1.toNat < 32)
    (h2 : data.rs2.toNat < 32) [Memory M] : (Branch.execute data size : Exec M State) s =
      (Branch.action size s.registers s.programCounter data).perform s := by
  cases ht : Branch.taken data.func (s.registers.value data.rs1) (s.registers.value data.rs2) with
  | none => simp [Branch.execute, Branch.action, getReg_apply _ h1,
      getReg_apply _ h2, ht]
  | some taken => cases taken <;> simp [Branch.execute, Branch.action, bind_apply,
      getReg_apply _ h1, getReg_apply _ h2, ht]

theorem OpImm.execute_apply {data : TypeI} (h1 : data.rs1.toNat < 32) (hd : data.rdRs2.toNat < 32)
    [Memory M] : (OpImm.execute data size : Exec M State) s =
      (OpImm.action size s.registers s.programCounter data).perform s := by
  by_cases h0 : data.rdRs2 = 0#8
  · simp [OpImm.execute, OpImm.action, getReg_apply _ h1, h0]
  · cases hc : OpImm.compute data.func (s.registers.value data.rs1) data.imm <;>
      simp [OpImm.execute, OpImm.action, getReg_apply _ h1,
        getMutReg_apply _ hd, h0, hc]

theorem CJrMv.execute_apply {data : TypeCR} (h1 : data.rdRs1.toNat < 32) (h2 : data.rs2.toNat < 32)
    [Memory M] : (CJrMv.execute data size : Exec M State) s =
      (CJrMv.action size s.registers s.programCounter data).perform s := by
  by_cases h0 : data.rs2 = 0#8 <;>
    simp [CJrMv.execute, CJrMv.action, h0, getReg_apply _ h1,
      getReg_apply _ h2, getMutReg_apply _ h1]

theorem CEbreakJalrAdd.execute_apply {data : TypeCR} (h1 : data.rdRs1.toNat < 32)
    (h2 : data.rs2.toNat < 32) [Memory M] : (CEbreakJalrAdd.execute data size : Exec M State) s =
      (CEbreakJalrAdd.action size s.registers s.programCounter data).perform s := by
  have hra : (getMutReg CPURegister.ra : Exec M (Fin 32)) s = .ok (cellOf CPURegister.ra) s :=
    getMutReg_apply s (by decide)
  by_cases h0 : data.rs2 = 0#8
  · by_cases hd : data.rdRs1 = 0#8 <;>
    simp [CEbreakJalrAdd.execute, CEbreakJalrAdd.action, h0, hd,
      getReg_apply _ h1, hra]
  · simp [CEbreakJalrAdd.execute, CEbreakJalrAdd.action, h0,
      getReg_apply _ h2, getMutReg_apply _ h1, Registers.value]

theorem SystemMiscMem.operation_apply {data : TypeI} (h1 : data.rs1.toNat < 32) :
    (SystemMiscMem.operation data : Exec M (Option CSOperation)) s =
      match SystemMiscMem.op s.registers s.programCounter data with
      | .ok op => .ok op s
      | .error e => .error e s := by
  have hregister (op : I32 → CSOperation) :
      ((if data.rs1 ≠ 0 then do return some (op (← getReg data.rs1)) else return none) :
        Exec M (Option CSOperation)) s =
        .ok (if data.rs1 ≠ 0 then some (op (s.registers.value data.rs1)) else none) s := by
    split
    · rw [bind_ok (getReg_apply s h1)]
      rfl
    · rfl
  have himmediate (op : CSOperation) :
      ((if data.rs1 ≠ 0 then return some op else return none) : Exec M (Option CSOperation)) s =
        .ok (if data.rs1 ≠ 0 then some op else none) s := by
    split <;> rfl
  unfold SystemMiscMem.operation SystemMiscMem.op
  by_cases hrw : data.func = csrrwFunc
  · rw [if_pos hrw, if_pos hrw, bind_ok (getReg_apply s h1)]
    rfl
  rw [if_neg hrw, if_neg hrw]
  by_cases hrs : data.func = csrrsFunc
  · rw [if_pos hrs, if_pos hrs]
    exact hregister .set
  rw [if_neg hrs, if_neg hrs]
  by_cases hrc : data.func = csrrcFunc
  · rw [if_pos hrc, if_pos hrc]
    exact hregister .clear
  rw [if_neg hrc, if_neg hrc]
  by_cases hrwi : data.func = csrrwiFunc
  · rw [if_pos hrwi, if_pos hrwi]
    rfl
  rw [if_neg hrwi, if_neg hrwi]
  by_cases hrsi : data.func = csrrsiFunc
  · rw [if_pos hrsi, if_pos hrsi]
    exact himmediate (.set (data.rs1.setWidth 32))
  rw [if_neg hrsi, if_neg hrsi]
  by_cases hrci : data.func = csrrciFunc
  · rw [if_pos hrci, if_pos hrci]
    exact himmediate (.clear (data.rs1.setWidth 32))
  rw [if_neg hrci, if_neg hrci]
  rfl

/-- The last stage of the instructions that leave register zero alone. -/
theorem writeUnlessZero_apply {index : U8} (h : index.toNat < 32) (result : I32) :
    ((if index ≠ 0 then do
        let rd ← getMutReg index
        let _ ← writeCell rd result
        nextInstruction size
        pure State.running
      else do
        nextInstruction size
        pure State.running) : Exec M State) s =
      .ok .running (s.retire (unlessZero index) result (s.programCounter + size)) := by
  by_cases h0 : index = 0#8
  · simp [h0]
  · simp [h0, getMutReg_apply _ h, unlessZero_of_ne h0]

variable [Memory M]

theorem loadInto_apply {w : ℕ} (extend : BitVec w → I32) {data : TypeI} (address : U32)
    (hd : data.rdRs2.toNat < 32) :
    (LoadStore.loadInto extend data address >>= fun _ => do
      nextInstruction size
      pure State.running : Exec M State) s =
      (Action.perform ⟨.load extend address, some (cellOf data.rdRs2), s.programCounter + size,
        .running⟩) s := by
  rcases load_cases s w address with ⟨value, memory, h⟩ | ⟨error, memory, h⟩
  · simp [LoadStore.loadInto, Action.perform, Effect.perform, h,
      getMutReg_apply _ hd]
  · simp [LoadStore.loadInto, Action.perform, Effect.perform, h]

theorem storeLow_apply (w : ℕ) {data : TypeI} (address : U32) (h2 : data.rdRs2.toNat < 32) :
    (LoadStore.storeLow w data address >>= fun _ => do
      nextInstruction size
      pure State.running : Exec M State) s =
      (Action.perform ⟨.store ((s.registers.value data.rdRs2).setWidth w) address, none,
        s.programCounter + size, .running⟩) s := by
  rcases store_cases s ((s.registers.value data.rdRs2).setWidth w) address with
    ⟨memory, h⟩ | ⟨error, memory, h⟩
  · simp [LoadStore.storeLow, Action.perform, Effect.perform, h,
      getReg_apply _ h2]
  · simp [LoadStore.storeLow, Action.perform, Effect.perform, h,
      getReg_apply _ h2]

theorem LoadStore.execute_apply {data : TypeI} (h1 : data.rs1.toNat < 32)
    (h2 : data.rdRs2.toNat < 32) : (LoadStore.execute data size : Exec M State) s =
      (LoadStore.action size s.registers s.programCounter data).perform s := by
  rw [LoadStore.execute, bind_ok (getReg_apply s h1)]
  dsimp only [LoadStore.action]
  by_cases hlb : data.func = lbFunc
  · rw [if_pos hlb, if_pos hlb]
    exact loadInto_apply size s _ _ h2
  rw [if_neg hlb, if_neg hlb]
  by_cases hlh : data.func = lhFunc
  · rw [if_pos hlh, if_pos hlh]
    exact loadInto_apply size s _ _ h2
  rw [if_neg hlh, if_neg hlh]
  by_cases hlw : data.func = lwFunc
  · rw [if_pos hlw, if_pos hlw]
    exact loadInto_apply size s _ _ h2
  rw [if_neg hlw, if_neg hlw]
  by_cases hlbu : data.func = lbuFunc
  · rw [if_pos hlbu, if_pos hlbu]
    exact loadInto_apply size s _ _ h2
  rw [if_neg hlbu, if_neg hlbu]
  by_cases hlhu : data.func = lhuFunc
  · rw [if_pos hlhu, if_pos hlhu]
    exact loadInto_apply size s _ _ h2
  rw [if_neg hlhu, if_neg hlhu]
  by_cases hsb : data.func = sbFunc
  · rw [if_pos hsb, if_pos hsb]
    exact storeLow_apply size s _ _ h2
  rw [if_neg hsb, if_neg hsb]
  by_cases hsh : data.func = shFunc
  · rw [if_pos hsh, if_pos hsh]
    exact storeLow_apply size s _ _ h2
  rw [if_neg hsh, if_neg hsh]
  by_cases hsw : data.func = swFunc
  · rw [if_pos hsw, if_pos hsw]
    exact storeLow_apply size s _ _ h2
  rw [if_neg hsw, if_neg hsw]
  rfl

theorem SystemMiscMem.execute_apply {data : TypeI} (h1 : data.rs1.toNat < 32)
    (hd : data.rdRs2.toNat < 32) : (SystemMiscMem.execute data size : Exec M State) s =
      (SystemMiscMem.action size s.registers s.programCounter data).perform s := by
  unfold SystemMiscMem.execute SystemMiscMem.action
  by_cases hmisc : data.func = miscFunc
  · rw [if_pos hmisc, if_pos hmisc]
    split_ifs <;> rfl
  · rw [if_neg hmisc, if_neg hmisc, bind_apply, operation_apply s h1]
    cases SystemMiscMem.op s.registers s.programCounter data with
    | error e => rfl
    | ok op =>
      simp only [Action.perform, Effect.perform, bind_apply, onControlStatus]
      cases s.registers.controlStatus.operation op
        ((data.imm &&& 0b1111_1111_1111).setWidth 16) with
      | error e => rfl
      | ok p => exact writeUnlessZero_apply size _ hd _

theorem preserves_load {I : Interpreter M → Prop}
    (hI : ∀ memory s, I s → I { s with memory := memory }) (w : ℕ) (address : U32) :
    Preserves I (Interpreter.load w address) := preserves_onPart hI _

theorem preserves_store {I : Interpreter M → Prop}
    (hI : ∀ memory s, I s → I { s with memory := memory }) (w : ℕ) (value : BitVec w)
    (address : U32) : Preserves I (Interpreter.store value address) := preserves_onPart hI _

/-- Does the effect reserve a word or consume a reservation? -/
def Effect.IsReserving : Effect → Prop
  | .loadReserved _ | .storeConditional _ _ => True
  | _ => False

/-- Is the effect a value or an error, or one access to the memory? -/
def Effect.IsPlain : Effect → Prop
  | .refuse _ | .value _ | .load _ _ | .store _ _ => True
  | _ => False

omit [Memory M] in
/-- Only atomic operations and system instructions have other effects. -/
theorem Decoded.effect_isPlain (inst : Decoded) (size pc : U32) (regs : Registers) :
    (inst.action size regs pc).effect.IsPlain ∨ (∃ data, inst = .opAmo data) ∨
      ∃ data, inst = .systemMiscMem data := by
  cases inst
  case opAmo data => exact .inr (.inl ⟨data, rfl⟩)
  case systemMiscMem data => exact .inr (.inr ⟨data, rfl⟩)
  case cAddi4spn d =>
    simp only [action]
    split <;> exact .inl trivial
  case branch d =>
    simp only [action, Branch.action]
    split <;> exact .inl trivial
  case loadStore d =>
    rcases LoadStore.action_cases size regs pc d with
      ⟨-, w, extend, -, h⟩ | ⟨w, -, h⟩ | h
    all_goals
      rw [action, h]
      exact .inl trivial
  case opImm d =>
    simp only [action, OpImm.action]
    split
    · exact .inl trivial
    · split <;> exact .inl trivial
  case cJrMv d =>
    simp only [action, CJrMv.action]
    split <;> exact .inl trivial
  case cEbreakJalrAdd d =>
    simp only [action, CEbreakJalrAdd.action]
    split_ifs <;> exact .inl trivial
  all_goals exact .inl trivial

/-- An effect reaches the memory, the reservation and the control and status
registers only, and all but the reservation through their methods. -/
theorem Effect.preserves {I : Interpreter M → Prop}
    (hload : ∀ w address, Preserves I (Interpreter.load w address))
    (hstore : ∀ w (value : BitVec w) address, Preserves I (Interpreter.store value address))
    (effect : Effect)
    (hreservation : effect.IsReserving →
      ∀ reservation s, I s → I { s with memoryReservation := reservation })
    (hoperation : ∀ op addr, effect = .controlStatus op addr → ∀ s value cs,
      s.registers.controlStatus.operation op addr = .ok (value, cs) → I s →
        I { s with registers.controlStatus := cs })
    (htrapReturn : effect = .trapReturn → ∀ s, I s →
      I { s with registers.controlStatus := s.registers.controlStatus.trapReturn.1 }) :
    Preserves I (effect.perform : Exec M I32) := by
  cases effect with
  | refuse error => exact preserves_throw error
  | value result => exact preserves_pure result
  | load extend address => exact (hload _ address).bind (fun _ => preserves_pure _)
  | store stored address => exact (hstore _ stored address).bind (fun _ => preserves_pure _)
  | readModifyWrite combine address =>
    exact (hload 32 address).bind (fun value => (hstore 32 (combine value) address).bind
      (fun _ => preserves_pure _))
  | loadReserved address =>
    exact (hload 32 address).bind (fun value => Preserves.bind (fun s => hreservation trivial _ s)
      (fun _ => preserves_pure _))
  | storeConditional stored address =>
    refine (hload 32 address).bind (fun value =>
      Preserves.bind (fun s => hreservation trivial none s) (fun reservation => ?_))
    split_ifs
    · exact (hstore _ stored address).bind (fun _ => preserves_pure _)
    · exact preserves_pure _
  | loadThenRefuse address error => exact (hload 32 address).bind (fun _ => preserves_throw error)
  | controlStatus op addr =>
    intro s hs
    simp only [perform, onControlStatus]
    cases h : s.registers.controlStatus.operation op addr with
    | ok p => exact hoperation op addr rfl s p.1 p.2 h hs
    | error e => exact hs
  | trapReturn => exact fun s hs => htrapReturn rfl s hs

/-- The part of the state that no effect reaches. -/
def outsideEffects (s : Interpreter M) : U32 × CPURegisters × U32 :=
  (s.programCounter, s.registers.cpu, s.instructionLimit)

theorem Effect.perform_outside (effect : Effect) (s : Interpreter M) :
    outsideEffects (effect.perform s).state = outsideEffects s :=
  Effect.preserves (I := fun t => outsideEffects t = outsideEffects s)
    (preserves_load (fun _ _ h => h)) (preserves_store (fun _ _ h => h)) effect
    (fun _ _ _ h => h) (fun _ _ _ _ _ _ _ h => h) (fun _ _ h => h) s rfl

theorem OpAmo.atomic_apply (data : TypeR)
    (hc : OpAmo.compute data.func (s.registers.value data.rs1) (s.registers.value data.rs2) =
      none) :
    (OpAmo.atomic data.func (s.registers.value data.rs1) (s.registers.value data.rs2) :
      Exec M I32) s =
      (OpAmo.effect s.registers s.programCounter data).perform s := by
  simp only [OpAmo.effect, hc, OpAmo.atomic]
  rcases load_cases s 32 (s.registers.value data.rs1) with
    ⟨value, memory, h⟩ | ⟨error, memory, h⟩
  · rw [bind_ok h]
    split_ifs with hlr hsc
    · simp [Effect.perform, h]
    · rcases hr : s.memoryReservation with _ | ⟨address, old⟩
      · simp [Effect.perform, h, hr]
      · by_cases heq : address = s.registers.value data.rs1 ∧ value = old
        · obtain ⟨rfl, rfl⟩ := heq
          simp [Effect.perform, h, hr]
        · have heq' : ¬(address = s.registers.value data.rs1 ∧ old = value) := by
            rintro ⟨rfl, rfl⟩
            exact heq ⟨rfl, rfl⟩
          simp [Effect.perform, h, hr, heq, heq']
    · cases OpAmo.combine data.func (s.registers.value data.rs2) with
      | none => simp [h, Effect.perform]
      | some stored => simp [h, Effect.perform]
  · rw [bind_error h]
    split_ifs with hlr hsc
    · simp [Effect.perform, h]
    · simp [Effect.perform, h]
    · cases OpAmo.combine data.func (s.registers.value data.rs2) with
      | none => simp [h, Effect.perform]
      | some stored => simp [h, Effect.perform]

theorem OpAmo.execute_apply {data : TypeR} (h1 : data.rs1.toNat < 32) (h2 : data.rs2.toNat < 32)
    (hd : data.rd.toNat < 32) : (OpAmo.execute data size : Exec M State) s =
      ((Decoded.opAmo data).action size s.registers s.programCounter).perform s := by
  rw [OpAmo.execute, bind_ok (getReg_apply s h1), bind_ok (getReg_apply s h2)]
  have hatomic := OpAmo.atomic_apply s data
  cases hc : OpAmo.compute data.func (s.registers.value data.rs1) (s.registers.value data.rs2) with
  | some result =>
    simp only [Decoded.action, OpAmo.effect, hc]
    exact writeUnlessZero_apply size s hd result
  | none =>
    have hframe := (OpAmo.effect s.registers s.programCounter data).perform_outside s
    simp only [Decoded.action, Action.perform, bind_apply, hatomic hc]
    cases hp : (OpAmo.effect s.registers s.programCounter data).perform s with
    | error e t => rfl
    | ok result t =>
      rw [hp] at hframe
      have hpc : t.programCounter = s.programCounter := congrArg Prod.fst hframe
      rw [← hpc]
      exact writeUnlessZero_apply size t hd result

/-- Executing an instruction whose registers exist performs its action. -/
theorem Decoded.executeSized_eq_perform (inst : Decoded) (h : inst.Wf) :
    (inst.executeSized size : Exec M State) s =
      (inst.action size s.registers s.programCounter).perform s := by
  have hsp : (getReg CPURegister.sp : Exec M I32) s = .ok (s.registers.value CPURegister.sp) s :=
    getReg_apply s (by decide)
  have hsp' : (getMutReg CPURegister.sp : Exec M (Fin 32)) s = .ok (cellOf CPURegister.sp) s :=
    getMutReg_apply s (by decide)
  have hra : (getMutReg CPURegister.ra : Exec M (Fin 32)) s = .ok (cellOf CPURegister.ra) s :=
    getMutReg_apply s (by decide)
  cases inst <;> simp only [Decoded.Wf, Decoded.registers, List.forall_mem_cons, List.not_mem_nil,
    IsEmpty.forall_iff, implies_true, and_true] at h
  case cAddi4spn data =>
    by_cases h0 : data.imm = 0#32 <;>
      simp [executeSized, CAddi4spn.execute, action, h0, hsp, getMutReg_apply _ h]
  case cLw data =>
    rcases load_cases s 32 (s.registers.value data.rs1 + data.imm) with
      ⟨_, _, hl⟩ | ⟨_, _, hl⟩ <;>
      simp [executeSized, CLw.execute, action, Action.perform, Effect.perform,
        getReg_apply _ h.2, hl, getMutReg_apply _ h.1]
  case cSw data =>
    rcases store_cases s (s.registers.value data.rdRs2) (s.registers.value data.rs1 + data.imm) with
      ⟨_, hl⟩ | ⟨_, _, hl⟩ <;>
      simp [executeSized, CSw.execute, action, Action.perform, Effect.perform, getReg_apply _ h.1,
        getReg_apply _ h.2, hl]
  case cAddi data => exact updateUnlessZero_apply size s h _
  case cJal data => simp [executeSized, CJal.execute, action, hra]
  case cLi data => exact updateUnlessZero_apply size s h _
  case cAddi16sp data => simp [executeSized, CAddi16sp.execute, action, hsp', Registers.value]
  case cLui data => exact updateUnlessZero_apply size s h _
  case cSrli data => exact updateUnlessZero_apply size s h _
  case cSrai data => exact updateUnlessZero_apply size s h _
  case cAndi data => exact updateUnlessZero_apply size s h _
  case cSub data => exact combineUnlessZero_apply size s h.1 h.2 _
  case cXor data => exact combineUnlessZero_apply size s h.1 h.2 _
  case cOr data => exact combineUnlessZero_apply size s h.1 h.2 _
  case cAnd data => exact combineUnlessZero_apply size s h.1 h.2 _
  case cJ data => rfl
  case cBeqz data => exact branchIf_apply size s h _
  case cBnez data => exact branchIf_apply size s h _
  case cSlli data => exact updateUnlessZero_apply size s h _
  case cLwsp data =>
    rcases load_cases s 32 (s.registers.value CPURegister.sp + data.imm) with
      ⟨_, _, hl⟩ | ⟨_, _, hl⟩ <;>
      simp [executeSized, CLwsp.execute, action, Action.perform, Effect.perform, hsp, hl,
        getMutReg_apply _ h]
  case cJrMv data => exact CJrMv.execute_apply size s h.1 h.2
  case cEbreakJalrAdd data => exact CEbreakJalrAdd.execute_apply size s h.1 h.2
  case cSwsp data =>
    rcases store_cases s (s.registers.value data.rs2) (s.registers.value CPURegister.sp + data.imm)
      with ⟨_, hl⟩ | ⟨_, _, hl⟩ <;>
      simp [executeSized, CSwsp.execute, action, Action.perform, Effect.perform, hsp,
        getReg_apply _ h, hl]
  case auipc data =>
    by_cases h0 : data.rd = 0#8 <;>
      simp [executeSized, Auipc.execute, action, h0, getMutReg_apply _ h, unlessZero]
  case branch data => exact Branch.execute_apply size s h.1 h.2
  case jal data =>
    by_cases h0 : data.rd = 0#8 <;>
      simp [executeSized, Jal.execute, action, h0, getMutReg_apply _ h, unlessZero]
  case jalr data =>
    by_cases h0 : data.rdRs2 = 0#8 <;>
      simp [executeSized, Jalr.execute, action, h0, getReg_apply _ h.2, getMutReg_apply _ h.1,
        unlessZero]
  case loadStore data => exact LoadStore.execute_apply size s h.2 h.1
  case lui data => exact writeUnlessZero_apply size s h data.imm
  case opImm data => exact OpImm.execute_apply size s h.2 h.1
  case opAmo data => exact OpAmo.execute_apply size s h.2.1 h.2.2 h.1
  case systemMiscMem data => exact SystemMiscMem.execute_apply size s h.2 h.1

/-- A register number taken from a five-bit field. -/
theorem toNat_field_lt (w : U32) (k : ℕ) : (((w >>> k) &&& 0b1_1111).setWidth 8).toNat < 32 := by
  have h : ((w >>> k) &&& 0b1_1111).toNat ≤ 31 := by
    rw [BitVec.toNat_and]
    exact Nat.and_le_right
  rw [BitVec.toNat_setWidth]
  omega

/-- A register number taken from a three-bit field. -/
theorem toNat_compressedField_lt (w : U32) (k : ℕ) :
    (((w >>> k) &&& 0b111).setWidth 8 + compressedRegisterOffset).toNat < 32 := by
  have h : ((w >>> k) &&& 0b111).toNat ≤ 7 := by
    rw [BitVec.toNat_and]
    exact Nat.and_le_right
  have h8 : (((w >>> k) &&& 0b111).setWidth 8).toNat ≤ 7 := by
    rw [BitVec.toNat_setWidth]
    omega
  have hoffset : compressedRegisterOffset.toNat = 8 := rfl
  rw [BitVec.toNat_add, hoffset]
  omega

/-- Decoding never names a register that does not exist. -/
theorem decodeInstruction_wf {data : U32} {inst : Decoded}
    (h : decodeInstruction data = some inst) : inst.Wf := by
  unfold decodeInstruction at h
  split at h <;> cases h <;>
    simp only [Decoded.Wf, Decoded.registers, Format.fromEmbive, TypeU.fromRiscv,
      List.forall_mem_cons, List.not_mem_nil, IsEmpty.forall_iff, implies_true,
      toNat_field_lt, toNat_compressedField_lt, and_self]

/-- Every opcode is in the table. -/
theorem decodeInstruction_isSome (data : U32) : ∃ inst, decodeInstruction data = some inst := by
  have hlt : (data &&& 0x1F).toNat < 32 := by
    have h : (data &&& 0x1F).toNat ≤ 31 := by
      rw [BitVec.toNat_and]
      exact Nat.and_le_right
    omega
  unfold decodeInstruction
  generalize (data &&& 0x1F).toNat = opcode at hlt
  interval_cases opcode <;> exact ⟨_, rfl⟩

/-- Executing a word performs the action of the instruction it decodes to. -/
theorem decodeExecuteSized_eq_perform {data : U32} {inst : Decoded}
    (h : decodeInstruction data = some inst) :
    (decodeExecuteSized size data : Exec M State) s =
      (inst.action size s.registers s.programCounter).perform s := by
  rw [decodeExecuteSized, h]
  exact inst.executeSized_eq_perform size s (decodeInstruction_wf h)

theorem decodeExecute_eq_sized {data : U32} {inst : Decoded}
    (h : decodeInstruction data = some inst) :
    (decodeExecute data : Exec M State) = decodeExecuteSized inst.size.toU32 data := by
  rw [decodeExecute, decodeExecuteSized, h]
  rfl

end Refinement

end Embive
