import Embive.Reachable
import Embive.Lib.OrLinear

/-! # Alignment of the program counter and the trap registers -/

namespace Embive

open EStateM Interpreter Lib

variable {M : Type}

/-- Bit 0 is clear. -/
def IsEven (x : U32) : Prop := x &&& 1 = 0

instance (x : U32) : Decidable (IsEven x) := inferInstanceAs (Decidable (x &&& 1 = 0))

theorem isEven_iff (x : U32) : IsEven x ↔ x.toNat % 2 = 0 := by
  rw [IsEven, ← BitVec.toNat_inj, BitVec.toNat_and]
  simp [Nat.and_one_is_mod]

theorem isEven_zero : IsEven 0 := by decide

theorem IsEven.add {x y : U32} (hx : IsEven x) (hy : IsEven y) : IsEven (x + y) := by
  rw [isEven_iff] at *
  rw [BitVec.toNat_add]
  omega

theorem IsEven.clear (x : U32) : IsEven (x &&& ~~~1) := by
  rw [IsEven, BitVec.and_assoc]
  exact BitVec.and_zero

theorem IsEven.clear_eq {x : U32} (h : IsEven x) : x &&& ~~~1 = x := by
  have hsplit : ∀ y : U32, y &&& ~~~1 ||| y &&& 1 = y :=
    OrLinear.eq_of_oneBit (by fun_prop) (by fun_prop) (by decide)
  have hx := hsplit x
  rw [h] at hx
  exact BitVec.or_zero.symm.trans hx

/-- The control and status registers hold aligned addresses. -/
structure CSRegisters.Aligned (cs : CSRegisters) : Prop where
  mepc : IsEven cs.mepc
  mtvec : cs.mtvec &&& mtvecMode = 0

/-- The program counter and the trap registers hold aligned addresses. -/
structure Interpreter.Aligned (s : Interpreter M) : Prop where
  programCounter : IsEven s.programCounter
  controlStatus : s.registers.controlStatus.Aligned

theorem CSRegisters.Aligned.operation {cs cs' : CSRegisters} (h : cs.Aligned)
    {op : Option CSOperation} {addr : U16} {value : U32}
    (hop : cs.operation op addr = .ok (value, cs')) : cs'.Aligned := by
  rcases cs.operation_cases op addr with he | ⟨value', cs'', hok, hmepc, hmtvec⟩
  · rw [he] at hop
    cases hop
  · rw [hok] at hop
    cases hop
    refine ⟨?_, ?_⟩
    · rcases hmepc with heq | ⟨x, heq⟩ <;> rw [heq]
      · exact h.mepc
      · exact IsEven.clear x
    · rcases hmtvec with heq | ⟨x, heq⟩ <;> rw [heq]
      · exact h.mtvec
      · rw [BitVec.and_assoc]
        exact BitVec.and_zero

theorem CSRegisters.Aligned.trapReturn {cs : CSRegisters} (h : cs.Aligned) :
    cs.trapReturn.1.Aligned := ⟨h.mepc, h.mtvec⟩

theorem CSRegisters.Aligned.trapEntry {cs : CSRegisters} (h : cs.Aligned) {pc : U32}
    (hpc : IsEven pc) (value : I32) : (cs.trapEntry pc value).1.Aligned := ⟨hpc, h.mtvec⟩

theorem mtvec_isEven (mtvec : U32) : IsEven (mtvec &&& ~~~mtvecMode) := by
  rw [IsEven, BitVec.and_assoc]
  exact BitVec.and_zero

theorem Size.isEven (size : Size) : IsEven size.toU32 := by
  cases size <;> decide

/-- The offset of a jump or branch relative to the program counter. -/
def Decoded.offset : Decoded → I32
  | .branch data => data.imm
  | .jal data => data.imm
  | .cJal data | .cJ data => data.imm
  | .cBeqz data | .cBnez data => data.imm
  | _ => 0

/-- The formats of jumps and branches hold even offsets only. -/
theorem decodeInstruction_offset {data : U32} {inst : Decoded}
    (h : decodeInstruction data = some inst) : IsEven inst.offset := by
  have hB : ∀ w : U32, (Format.fromEmbive w : TypeB).imm &&& 1 = 0#32 :=
    OrLinear.eq_of_oneBit (by simp only [Format.fromEmbive]; fun_prop) (by fun_prop) (by decide)
  have hJ : ∀ w : U32, (Format.fromEmbive w : TypeJ).imm &&& 1 = 0#32 :=
    OrLinear.eq_of_oneBit (by simp only [Format.fromEmbive]; fun_prop) (by fun_prop) (by decide)
  have hCJ : ∀ w : U32, (Format.fromEmbive w : TypeCJ).imm &&& 1 = 0#32 :=
    OrLinear.eq_of_oneBit (by simp only [Format.fromEmbive]; fun_prop) (by fun_prop) (by decide)
  have hCB : ∀ w : U32, (Format.fromEmbive w : TypeCB4).imm &&& 1 = 0#32 :=
    OrLinear.eq_of_oneBit (by simp only [Format.fromEmbive]; fun_prop) (by fun_prop) (by decide)
  unfold decodeInstruction at h
  split at h <;> cases h <;>
    first
      | exact BitVec.zero_and
      | exact hB data
      | exact hJ data
      | exact hCJ data
      | exact hCB data

/-- The target of an indirect jump is even. -/
def Decoded.JumpsEven (s : Interpreter M) : Decoded → Prop
  | .jalr data => IsEven (s.registers.value data.rs1 + data.imm)
  | .cJrMv data => data.rs2 = 0 → IsEven (s.registers.value data.rdRs1)
  | .cEbreakJalrAdd data => data.rs2 = 0 → data.rdRs1 ≠ 0 → IsEven (s.registers.value data.rdRs1)
  | _ => True

theorem Decoded.pc_isEven_iff {data : U32} {inst : Decoded}
    (hdec : decodeInstruction data = some inst) (size : Size) {s : Interpreter M}
    (hs : s.Aligned) :
    IsEven (inst.action size.toU32 s.registers s.programCounter).pc ↔ inst.JumpsEven s := by
  have hnext : IsEven (s.programCounter + size.toU32) := hs.programCounter.add size.isEven
  have hoffset := hs.programCounter.add (decodeInstruction_offset hdec)
  cases inst
  case cAddi4spn d =>
    refine iff_of_true ?_ trivial
    simp only [action]
    split
    · exact isEven_zero
    · exact hnext
  case cJal d => exact iff_of_true hoffset trivial
  case cJ d => exact iff_of_true hoffset trivial
  case cBeqz d =>
    refine iff_of_true ?_ trivial
    simp only [action, Action.goto]
    split
    · exact hoffset
    · exact hnext
  case cBnez d =>
    refine iff_of_true ?_ trivial
    simp only [action, Action.goto]
    split
    · exact hoffset
    · exact hnext
  case cJrMv d =>
    by_cases h2 : d.rs2 = 0
    · simp only [action, CJrMv.action, if_pos h2, JumpsEven]
      exact ⟨fun h _ => h, fun h => h h2⟩
    · simp only [action, CJrMv.action, if_neg h2, JumpsEven]
      exact iff_of_true hnext (fun h => absurd h h2)
  case cEbreakJalrAdd d =>
    by_cases h2 : d.rs2 = 0
    · by_cases hd : d.rdRs1 = 0
      · simp only [action, CEbreakJalrAdd.action, if_pos h2, if_pos hd, JumpsEven]
        exact iff_of_true hnext (fun _ h => absurd hd h)
      · simp only [action, CEbreakJalrAdd.action, if_pos h2, if_neg hd, JumpsEven]
        exact ⟨fun h _ _ => h, fun h => h h2 hd⟩
    · simp only [action, CEbreakJalrAdd.action, if_neg h2, JumpsEven]
      exact iff_of_true hnext (fun h => absurd h h2)
  case branch d =>
    refine iff_of_true ?_ trivial
    simp only [action, Branch.action]
    split
    · simp only [Action.goto]
      split
      · exact hoffset
      · exact hnext
    · exact isEven_zero
  case jal d => exact iff_of_true hoffset trivial
  case jalr d => exact Iff.rfl
  case loadStore d =>
    refine iff_of_true ?_ trivial
    rcases LoadStore.action_cases _ _ _ d with
      ⟨-, w, extend, -, h⟩ | ⟨w, -, h⟩ | h <;> rw [action, h]
    · exact hnext
    · exact hnext
    · exact isEven_zero
  case opImm d =>
    refine iff_of_true ?_ trivial
    simp only [action, OpImm.action]
    split
    · exact hnext
    · split
      · exact hnext
      · exact isEven_zero
  case systemMiscMem d =>
    refine iff_of_true ?_ trivial
    rcases SystemMiscMem.action_cases _ _ _ d with
      ⟨-, _, -, h⟩ | ⟨-, -, h⟩ | ⟨-, -, h⟩ | ⟨-, _, -, h⟩ | ⟨-, h⟩ <;> rw [action, h]
    · exact hnext
    · exact hs.controlStatus.mepc
    · exact isEven_zero
    · exact hnext
    · exact isEven_zero
  all_goals exact iff_of_true hnext trivial

variable [Memory M]

/-- An indirect jump cannot fail. -/
theorem Decoded.jumpsEven_of_error {inst : Decoded} {size : U32} {s s' t : Interpreter M}
    {e : Error}
    (h : (inst.action size s.registers s.programCounter).effect.perform s' = .error e t) :
    inst.JumpsEven s' := by
  cases inst
  case jalr d => cases h
  case cJrMv d =>
    intro h2
    simp only [action, CJrMv.action, if_pos h2] at h
    cases h
  case cEbreakJalrAdd d =>
    intro h2 hd
    simp only [action, CEbreakJalrAdd.action, if_pos h2, if_neg hd] at h
    cases h
  all_goals trivial

theorem Effect.perform_aligned (effect : Effect) {s : Interpreter M}
    (h : s.registers.controlStatus.Aligned) :
    (effect.perform s).state.registers.controlStatus.Aligned :=
  Effect.preserves (I := fun t => t.registers.controlStatus.Aligned)
    (preserves_load (fun _ _ h => h)) (preserves_store (fun _ _ h => h)) effect
    (fun _ _ _ h => h) (fun _ _ _ _ _ _ hop h => CSRegisters.Aligned.operation h hop)
    (fun _ _ h => CSRegisters.Aligned.trapReturn h) s h

/-- The instruction at the program counter is no indirect jump to an odd target. -/
def StepJumpsEven (s : Interpreter M) : Prop :=
  ∀ inst t, Fetches s inst t → inst.JumpsEven t

theorem Decoded.perform_aligned_iff {data : U32} {inst : Decoded}
    (hdec : decodeInstruction data = some inst) {s : Interpreter M} (hs : s.Aligned) :
    ((inst.action inst.size.toU32 s.registers s.programCounter).perform s).state.Aligned ↔
      inst.JumpsEven s := by
  have hpc := pc_isEven_iff hdec inst.size hs
  have herror (e : Error) (t : Interpreter M)
      (he : (inst.action inst.size.toU32 s.registers s.programCounter).effect.perform s =
        .error e t) : inst.JumpsEven s := jumpsEven_of_error he
  have haligned := (inst.action inst.size.toU32 s.registers s.programCounter).effect.perform_aligned
    hs.controlStatus
  have hout := (inst.action inst.size.toU32 s.registers s.programCounter).effect.perform_outside s
  rw [Action.perform, bind_apply]
  cases he : (inst.action inst.size.toU32 s.registers s.programCounter).effect.perform s with
  | error e t =>
    rw [he] at haligned hout
    have hpc' : t.programCounter = s.programCounter := congrArg Prod.fst hout
    exact iff_of_true ⟨hpc'.symm ▸ hs.programCounter, haligned⟩ (herror e t he)
  | ok result t =>
    rw [he] at haligned
    rw [← hpc]
    cases (inst.action inst.size.toU32 s.registers s.programCounter).rd with
    | none => exact ⟨fun h => h.programCounter, fun h => ⟨h, haligned⟩⟩
    | some rd => exact ⟨fun h => h.programCounter, fun h => ⟨h, haligned⟩⟩

/-- A step from an aligned state is aligned exactly when it is no indirect jump to an
odd target. -/
theorem step_aligned_iff {s : Interpreter M} (hs : s.Aligned) :
    (step s).state.Aligned ↔ StepJumpsEven s := by
  refine step_preserves_iff (fun _ _ h => ⟨h.programCounter, h.controlStatus⟩) ?_ hs
  intro data inst t hinst ht
  exact Decoded.perform_aligned_iff hinst ht

theorem aligned_invariant : Invariant StepJumpsEven (fun s : Interpreter M => s.Aligned) where
  new _ _ := ⟨isEven_zero, isEven_zero, BitVec.zero_and⟩
  reset s := ⟨isEven_zero, isEven_zero, BitVec.zero_and⟩
  step s hs hP := (step_aligned_iff hs).mpr hP
  interrupt s value hs := by
    rw [interrupt_apply]
    split
    · have hpending : s.registers.controlStatus.setInterrupt.Aligned :=
        ⟨hs.controlStatus.mepc, hs.controlStatus.mtvec⟩
      exact ⟨mtvec_isEven _, hpending.trapEntry hs.programCounter value⟩
    · exact hs
  syscall s _ function hs := by
    rcases syscall_cases function s with ⟨memory, h⟩ | ⟨memory, result, h⟩ <;> rw [h]
    · exact ⟨hs.programCounter, hs.controlStatus⟩
    · cases result <;> exact ⟨hs.programCounter, hs.controlStatus⟩

/-- The program counter and the trap registers are aligned in every state reached by
runs without indirect jumps to odd targets, and such a jump is exactly what breaks
the alignment. -/
theorem aligned_of_reachable :
    (∀ s : Interpreter M, Reachable StepJumpsEven s → s.Aligned) ∧
      ∀ s : Interpreter M, Reachable StepJumpsEven s →
        ((step s).state.Aligned ↔ StepJumpsEven s) :=
  ⟨fun _ h => aligned_invariant.reachable h,
    fun _ h => step_aligned_iff (aligned_invariant.reachable h)⟩

/-- The Embive word of `jalr x0, 1(x0)`. -/
def jumpToOdd : SliceMemory := ⟨[0x1A, 0x00, 0x10, 0x00], []⟩

theorem aligned_not_invariant : letI := Target.release64
    ¬∀ s : Interpreter SliceMemory, Reachable (fun _ => True) s → s.Aligned := by
  let _ := Target.release64
  intro h
  have hpc := (h _ (.step (.new jumpToOdd 0) trivial)).programCounter
  revert hpc
  decide

/-- The Embive word of `jalr x0, 4(x0)`. -/
def jumpToEven : SliceMemory := ⟨[0x1A, 0x00, 0x40, 0x00], []⟩

theorem aligned_of_reachable_jumpToEven : letI := Target.release64
    StepJumpsEven (new jumpToEven 0) ∧ (step (new jumpToEven 0)).state.Aligned := by
  let _ := Target.release64
  have hjump : StepJumpsEven (new jumpToEven 0) :=
    ((aligned_of_reachable (M := SliceMemory)).2 _ (.new jumpToEven 0)).mp
      ⟨by decide, by decide, by decide⟩
  exact ⟨hjump, aligned_of_reachable.1 _ (.step (.new jumpToEven 0) hjump)⟩

end Embive
