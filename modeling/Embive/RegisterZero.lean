import Embive.Reachable

/-! # Register zero

`CPURegisters::get_mut` hands out register zero like any other register, so it stays
zero only as long as every instruction that does not check its destination happens
to write zero to it.
-/

namespace Embive

open EStateM Interpreter

variable {M : Type}

/-- The width of a load. -/
def LoadStore.width (func : U8) : ℕ :=
  if func = lbFunc ∨ func = lbuFunc then 8 else if func = lhFunc ∨ func = lhuFunc then 16 else 32

/-- Register zero. -/
def Interpreter.zero (s : Interpreter M) : I32 := s.registers.cpu.inner[(0 : Fin 32)]

/-- Does the value go to register zero? -/
theorem zero_retire (rd : Option (Fin 32)) (result : I32) (pc : U32) (s : Interpreter M) :
    (s.retire rd result pc).zero = if rd = some 0 then result else s.zero := by
  cases rd with
  | none => rfl
  | some rd =>
    by_cases h : rd = 0
    · subst h
      simp [Interpreter.zero, CPURegisters.write]
    · have hne : rd.val ≠ 0 := fun h0 => h (Fin.ext h0)
      simp [Interpreter.zero, CPURegisters.write, h, hne]

theorem unlessZero_ne_zero {index : U8} (h : index.toNat < 32) : unlessZero index ≠ some 0 := by
  by_cases h0 : index = 0#8
  · simp [h0]
  · have hne : index.toNat ≠ 0 := fun hz => h0 (BitVec.eq_of_toNat_eq hz)
    rw [unlessZero_of_ne h0]
    simp [cellOf, Fin.ofNat, Nat.mod_eq_of_lt h, Fin.ext_iff, hne]

theorem cellOf_eq_zero {index : U8} (h : index.toNat < 32) : cellOf index = 0 ↔ index = 0 := by
  rw [Fin.ext_iff, ← BitVec.toNat_inj]
  simp [cellOf, Fin.ofNat, Nat.mod_eq_of_lt h]

/-- The three-bit register fields never name register zero. -/
theorem compressedField_ne_zero (w : U32) (k : ℕ) :
    ((w >>> k) &&& 0b111).setWidth 8 + compressedRegisterOffset ≠ 0 := by
  have h := toNat_compressedField_lt w k
  intro h0
  have h1 : ((w >>> k) &&& 0b111).toNat ≤ 7 := by
    rw [BitVec.toNat_and]
    exact Nat.and_le_right
  have h2 := congrArg BitVec.toNat h0
  have hoffset : compressedRegisterOffset.toNat = 8 := rfl
  rw [BitVec.toNat_add, BitVec.toNat_setWidth, hoffset] at h2
  have hzero : (0 : U8).toNat = 0 := rfl
  omega

theorem decodeInstruction_cAddi4spn {data : U32} {d : TypeCIW}
    (h : decodeInstruction data = some (.cAddi4spn d)) : d.rd ≠ 0 := by
  unfold decodeInstruction at h
  split at h <;> cases h
  exact compressedField_ne_zero data 5

theorem decodeInstruction_cLw {data : U32} {d : TypeCL}
    (h : decodeInstruction data = some (.cLw d)) : d.rdRs2 ≠ 0 := by
  unfold decodeInstruction at h
  split at h <;> cases h
  exact compressedField_ne_zero data 5

variable [Memory M]

/-- The load gives zero, or fails. -/
def LoadsZero (w : ℕ) (address : U32) (s : Interpreter M) : Prop :=
  ∀ value t, Interpreter.load w address s = .ok value t → value = 0

/-- An instruction that does not check its destination writes nothing but zero to
register zero. -/
def Decoded.SparesZero (s : Interpreter M) : Decoded → Prop
  | .loadStore data => data.rdRs2 = 0 → data.func ≤ LoadStore.lhuFunc →
      LoadsZero (LoadStore.width data.func) (s.registers.value data.rs1 + data.imm) s
  | .cLwsp data => data.rdRs1 = 0 →
      LoadsZero 32 (s.registers.value CPURegister.sp + data.imm) s
  | .cJrMv data | .cEbreakJalrAdd data => data.rdRs1 = 0 → s.registers.value data.rs2 = 0
  | _ => True

/-- The instruction at the program counter spares register zero. -/
def StepSparesZero (s : Interpreter M) : Prop :=
  ∀ inst t, Fetches s inst t → inst.SparesZero t

/-- The action writes nothing but zero to register zero. -/
def Action.SparesZero (s : Interpreter M) (action : Action) : Prop :=
  action.rd = some 0 → ∀ value t, action.effect.perform s = .ok value t → value = 0

theorem Action.zero_perform (action : Action) {s : Interpreter M} (hs : s.zero = 0) :
    (action.perform s).state.zero = 0 ↔ action.SparesZero s := by
  have hframe := action.effect.perform_outside s
  have hzero : (action.effect.perform s).state.zero = 0 := by
    have hcpu : (action.effect.perform s).state.registers.cpu = s.registers.cpu :=
      congrArg (fun p => p.2.1) hframe
    rw [Interpreter.zero, hcpu]
    exact hs
  rw [Action.perform, bind_apply, Action.SparesZero]
  cases he : action.effect.perform s with
  | error e t =>
    rw [he] at hzero
    exact ⟨fun _ _ value u h => (by cases h), fun _ => hzero⟩
  | ok value t =>
    rw [he] at hzero
    have hz : t.zero = 0 := hzero
    simp [zero_retire, hz]

theorem Action.sparesZero_of_rd {action : Action} {s : Interpreter M} (h : action.rd ≠ some 0) :
    action.SparesZero s := fun h0 => absurd h0 h

/-- Copying a register to the destination, whichever that is. -/
theorem Action.sparesZero_write {rd : U8} (h : rd.toNat < 32) (result : I32) (pc : U32)
    (s : Interpreter M) :
    (Action.write result (some (cellOf rd)) pc).SparesZero s ↔ (rd = 0 → result = 0) := by
  have hrd : (Action.write result (some (cellOf rd)) pc).rd = some (cellOf rd) := rfl
  rw [Action.SparesZero, hrd, Option.some_inj, cellOf_eq_zero h]
  refine forall_congr' (fun _ => ⟨fun hz => hz result s rfl, fun hz value t hv => ?_⟩)
  cases hv
  exact hz

theorem signExtend_eq_zero {w : ℕ} (h : w ≤ 32) (x : BitVec w) :
    x.signExtend 32 = 0#32 ↔ x = 0#w := by
  rw [← BitVec.toInt_inj, ← BitVec.toInt_inj, BitVec.toInt_signExtend_of_le h]
  simp

theorem setWidth_eq_zero {w : ℕ} (h : w ≤ 32) (x : BitVec w) :
    x.setWidth 32 = 0#32 ↔ x = 0#w := by
  have hlt : x.toNat < 2 ^ 32 := Nat.lt_of_lt_of_le x.isLt (Nat.pow_le_pow_right (by decide) h)
  rw [← BitVec.toNat_inj, ← BitVec.toNat_inj, BitVec.toNat_setWidth, Nat.mod_eq_of_lt hlt]
  simp

theorem loadsZero_iff {w : ℕ} {extend : BitVec w → I32}
    (hext : ∀ x, extend x = 0#32 ↔ x = 0#w) (address : U32) (s : Interpreter M) :
    (∀ value t, (Effect.load extend address).perform s = .ok value t → value = 0) ↔
      LoadsZero w address s := by
  rw [LoadsZero, Effect.perform]
  rcases load_cases s w address with ⟨value, memory, h⟩ | ⟨error, memory, h⟩
  · simp [h, hext]
  · simp [h]

theorem LoadStore.sparesZero_iff {data : TypeI} (h : data.rdRs2.toNat < 32) (size : U32)
    (s : Interpreter M) :
    (LoadStore.action size s.registers s.programCounter data).SparesZero s ↔
      (Decoded.loadStore data).SparesZero s := by
  have hrd : some (cellOf data.rdRs2) = some 0 ↔ data.rdRs2 = 0 := by
    rw [Option.some_inj, cellOf_eq_zero h]
  have hload {w : ℕ} {extend : BitVec w → I32} (hext : ∀ x, extend x = 0#32 ↔ x = 0#w)
      (hfunc : data.func ≤ lhuFunc) (hw : LoadStore.width data.func = w) :
      (Action.mk (.load extend (s.registers.value data.rs1 + data.imm)) (some (cellOf data.rdRs2))
        (s.programCounter + size) .running).SparesZero s ↔
        (Decoded.loadStore data).SparesZero s := by
    subst hw
    rw [Action.SparesZero, Decoded.SparesZero, hrd, loadsZero_iff hext]
    exact forall_congr' (fun _ => ⟨fun hz _ => hz, fun hz => hz hfunc⟩)
  unfold LoadStore.action
  by_cases hle : data.func ≤ lhuFunc
  · have hcases : data.func = lbFunc ∨ data.func = lhFunc ∨ data.func = lwFunc ∨
        data.func = lbuFunc ∨ data.func = lhuFunc := by
      revert hle
      generalize data.func = func
      revert func
      decide
    rcases hcases with hf | hf | hf | hf | hf <;> simp only [hf]
    · exact hload (signExtend_eq_zero (by decide)) hle (by rw [hf]; rfl)
    · exact hload (signExtend_eq_zero (by decide)) hle (by rw [hf]; rfl)
    · exact hload (fun x => Iff.rfl) hle (by rw [hf]; rfl)
    · exact hload (setWidth_eq_zero (by decide)) hle (by rw [hf]; rfl)
    · exact hload (setWidth_eq_zero (by decide)) hle (by rw [hf]; rfl)
  · have hne (func : U8) (hf : func ≤ lhuFunc) : data.func ≠ func := fun heq => hle (heq ▸ hf)
    rw [if_neg (hne lbFunc (by decide)), if_neg (hne lhFunc (by decide)),
      if_neg (hne lwFunc (by decide)), if_neg (hne lbuFunc (by decide)),
      if_neg (hne lhuFunc (by decide))]
    refine ⟨fun _ _ hle' => absurd hle' hle, fun _ => Action.sparesZero_of_rd ?_⟩
    split_ifs <;> simp [Action.refuse]

theorem CJrMv.sparesZero_iff {data : TypeCR} (h : data.rdRs1.toNat < 32) (size : U32)
    {s : Interpreter M} (hs : s.zero = 0) :
    (CJrMv.action size s.registers s.programCounter data).SparesZero s ↔
      (Decoded.cJrMv data).SparesZero s := by
  by_cases h2 : data.rs2 = 0
  · have hvalue : s.registers.value data.rs2 = 0 := h2 ▸ hs
    rw [CJrMv.action, if_pos h2]
    exact iff_of_true (Action.sparesZero_of_rd (by simp [Action.goto])) (fun _ => hvalue)
  · rw [CJrMv.action, if_neg h2, Action.sparesZero_write h]
    rfl

theorem CEbreakJalrAdd.sparesZero_iff {data : TypeCR} (h : data.rdRs1.toNat < 32) (size : U32)
    {s : Interpreter M} (hs : s.zero = 0) :
    (CEbreakJalrAdd.action size s.registers s.programCounter data).SparesZero s ↔
      (Decoded.cEbreakJalrAdd data).SparesZero s := by
  by_cases h2 : data.rs2 = 0
  · have hvalue : s.registers.value data.rs2 = 0 := h2 ▸ hs
    rw [CEbreakJalrAdd.action, if_pos h2]
    refine iff_of_true (Action.sparesZero_of_rd ?_) (fun _ => hvalue)
    split_ifs
    · simp [Action.goto]
    · simp [Action.write, cellOf, CPURegister.ra]
  · rw [CEbreakJalrAdd.action, if_neg h2, Action.sparesZero_write h]
    refine forall_congr' (fun hrd => ?_)
    have hvalue : s.registers.value data.rdRs1 = 0 := hrd ▸ hs
    rw [hvalue, zero_add]

/-- Whether an instruction spares register zero can be told from its operands and
the word it loads. -/
theorem Decoded.sparesZero_iff {data : U32} {inst : Decoded}
    (hdec : decodeInstruction data = some inst) (size : U32) {s : Interpreter M}
    (hs : s.zero = 0) :
    (inst.action size s.registers s.programCounter).SparesZero s ↔ inst.SparesZero s := by
  have hwf := decodeInstruction_wf hdec
  have hguarded {a : Action} {index : U8} (hrd : a.rd = unlessZero index)
      (hi : index.toNat < 32) : a.SparesZero s ↔ True :=
    iff_of_true (Action.sparesZero_of_rd (hrd ▸ unlessZero_ne_zero hi)) trivial
  have hnone {a : Action} (hrd : a.rd = none) : a.SparesZero s ↔ True :=
    iff_of_true (Action.sparesZero_of_rd (by simp [hrd])) trivial
  have hfixed {a : Action} {index : U8} (hrd : a.rd = some (cellOf index))
      (hi : index.toNat < 32) (h0 : index ≠ 0) : a.SparesZero s ↔ True := by
    refine iff_of_true (Action.sparesZero_of_rd ?_) trivial
    rw [hrd, Ne, Option.some_inj, cellOf_eq_zero hi]
    exact h0
  cases inst <;> simp only [Decoded.Wf, Decoded.registers, List.forall_mem_cons, List.not_mem_nil,
    IsEmpty.forall_iff, implies_true, and_true] at hwf
  case cAddi4spn d =>
    by_cases h0 : d.imm = 0
    · exact hnone (by simp [action, h0, Action.refuse])
    · exact hfixed (by simp only [action, if_neg h0]; rfl) hwf (decodeInstruction_cAddi4spn hdec)
  case cLw d => exact hfixed rfl hwf.1 (decodeInstruction_cLw hdec)
  case cSw d => exact hnone rfl
  case cAddi d => exact hguarded rfl hwf
  case cJal d => exact hfixed rfl (by decide) (by decide)
  case cLi d => exact hguarded rfl hwf
  case cAddi16sp d => exact hfixed rfl (by decide) (by decide)
  case cLui d => exact hguarded rfl hwf
  case cSrli d => exact hguarded rfl hwf
  case cSrai d => exact hguarded rfl hwf
  case cAndi d => exact hguarded rfl hwf
  case cSub d => exact hguarded rfl hwf.1
  case cXor d => exact hguarded rfl hwf.1
  case cOr d => exact hguarded rfl hwf.1
  case cAnd d => exact hguarded rfl hwf.1
  case cJ d => exact hnone rfl
  case cBeqz d => exact hnone rfl
  case cBnez d => exact hnone rfl
  case cSlli d => exact hguarded rfl hwf
  case cLwsp d =>
    rw [Action.SparesZero, Decoded.SparesZero]
    simp only [action, Option.some_inj, cellOf_eq_zero hwf, loadsZero_iff (fun _ => Iff.rfl)]
  case cJrMv d => exact CJrMv.sparesZero_iff hwf.1 size hs
  case cEbreakJalrAdd d => exact CEbreakJalrAdd.sparesZero_iff hwf.1 size hs
  case cSwsp d => exact hnone rfl
  case auipc d => exact hguarded rfl hwf
  case branch d =>
    refine hnone ?_
    simp only [action, Branch.action]
    split <;> rfl
  case jal d => exact hguarded rfl hwf
  case jalr d => exact hguarded rfl hwf.1
  case loadStore d => exact LoadStore.sparesZero_iff hwf.1 size s
  case lui d => exact hguarded rfl hwf
  case opImm d =>
    refine iff_of_true (Action.sparesZero_of_rd ?_) trivial
    simp only [action, OpImm.action]
    split_ifs with h0
    · simp [Action.goto]
    · split
      · simpa [Action.write, cellOf_eq_zero hwf.1] using h0
      · simp [Action.refuse]
  case opAmo d => exact hguarded rfl hwf.1
  case systemMiscMem d =>
    refine iff_of_true (Action.sparesZero_of_rd ?_) trivial
    rcases SystemMiscMem.action_cases size s.registers s.programCounter d with
      ⟨-, _, -, h⟩ | ⟨-, -, h⟩ | ⟨-, -, h⟩ | ⟨-, _, -, h⟩ | ⟨-, h⟩ <;> rw [action, h]
    · simp [Action.goto]
    · simp
    · simp [Action.refuse]
    · exact unlessZero_ne_zero hwf.1
    · simp [Action.refuse]

/-- A step from a state in which register zero is zero keeps it so exactly when the
executed instruction spares it. -/
theorem step_zero_iff {s : Interpreter M} (hs : s.zero = 0) :
    (step s).state.zero = 0 ↔ StepSparesZero s := by
  refine step_preserves_iff (I := fun s => s.zero = 0) (fun _ _ h => h) ?_ hs
  intro data inst t hinst ht
  rw [Action.zero_perform _ ht, Decoded.sparesZero_iff hinst _ ht]

theorem zero_invariant : Invariant StepSparesZero (fun s : Interpreter M => s.zero = 0) where
  new _ _ := by simp [Interpreter.zero, Interpreter.new, Registers.default, CPURegisters.default]
  reset s := by simp [Interpreter.zero, Interpreter.reset, Registers.default, CPURegisters.default]
  step s hs hP := (step_zero_iff hs).mpr hP
  interrupt s value hs := by
    rw [interrupt_apply]
    split <;> exact hs
  syscall s _ function hs := by
    rcases syscall_cases function s with ⟨memory, h⟩ | ⟨memory, result, h⟩ <;> rw [h]
    · exact hs
    · cases result <;>
        simpa [Interpreter.zero, syscallResult, CPURegisters.write, CPURegister.a0, CPURegister.a1]
          using hs

/-- Register zero is zero in every state reached by runs whose instructions spare it,
and an instruction that does not is exactly what makes it nonzero. -/
theorem zero_of_reachable :
    (∀ s : Interpreter M, Reachable StepSparesZero s → s.zero = 0) ∧
      ∀ s : Interpreter M, Reachable StepSparesZero s →
        ((step s).state.zero = 0 ↔ StepSparesZero s) :=
  ⟨fun _ h => zero_invariant.reachable h, fun _ h => step_zero_iff (zero_invariant.reachable h)⟩

/-- The Embive word of `lw x0, 0(x0)`. -/
def loadToZero : SliceMemory := ⟨[0x1B, 0x01, 0x00, 0x00], []⟩

theorem zero_not_invariant : letI := Target.release64
    ¬∀ s : Interpreter SliceMemory, Reachable (fun _ => True) s → s.zero = 0 := by
  let _ := Target.release64
  intro h
  have hstep := h _ (.step (.new loadToZero 0) trivial)
  revert hstep
  decide

/-- The Embive word of `lw x0, 4(x0)`, and a zero word. -/
def loadZeroToZero : SliceMemory := ⟨[0x1B, 0x01, 0x40, 0x00, 0x00, 0x00, 0x00, 0x00], []⟩

theorem zero_of_reachable_loadZeroToZero : letI := Target.release64
    StepSparesZero (new loadZeroToZero 0) ∧ (step (new loadZeroToZero 0)).state.zero = 0 := by
  let _ := Target.release64
  have hspares : StepSparesZero (new loadZeroToZero 0) :=
    ((zero_of_reachable (M := SliceMemory)).2 _ (.new loadZeroToZero 0)).mp (by decide)
  exact ⟨hspares, zero_of_reachable.1 _ (.step (.new loadZeroToZero 0) hspares)⟩

end Embive
