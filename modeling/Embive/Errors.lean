import Embive.FailedStep
import Embive.SliceAccess

/-! # The errors that bytecode can bring about

An instruction fails with its own errors or with those of its accesses. Over slice
memory no bytecode reaches the errors that are internal to the interpreter: decoding
names existing registers only, and no access of an instruction is too long.
-/

namespace Embive

open EStateM Interpreter

section Effects

/-- Accesses of these widths fail with these errors only. -/
structure Memory.AccessesRaise (M : Type) [Memory M] (E : Error → Prop) (W : ℕ → Prop) :
    Prop where
  load : ∀ {w}, W w → ∀ address, Raises E (Interpreter.load w address : Exec M (BitVec w))
  store : ∀ {w}, W w → ∀ (value : BitVec w) address,
    Raises E (Interpreter.store value address : Exec M PUnit)

/-- The effect's own errors are among these, and its accesses have these widths. -/
def Effect.RaisesOnly (E : Error → Prop) (W : ℕ → Prop) : Effect → Prop
  | .refuse error => E error
  | .value _ => True
  | .load (w := w) _ _ => W w
  | .store (w := w) _ _ => W w
  | .readModifyWrite _ _ | .loadReserved _ | .storeConditional _ _ => W 32
  | .loadThenRefuse _ error => W 32 ∧ E error
  | .controlStatus _ addr => E (.invalidCSRegister addr)
  | .trapReturn => True

variable {M : Type} [Memory M] {E : Error → Prop} {W : ℕ → Prop}

/-- An effect fails with its own errors and those of its accesses. -/
theorem Effect.RaisesOnly.perform (hM : Memory.AccessesRaise M E W) {effect : Effect}
    (h : effect.RaisesOnly E W) : Raises E (effect.perform : Exec M I32) := by
  cases effect with
  | refuse error => exact raises_throw h
  | value result => exact raises_pure result
  | load extend address => exact (hM.load h address).bind (fun _ => raises_pure _)
  | store stored address => exact (hM.store h stored address).bind (fun _ => raises_pure _)
  | readModifyWrite combine address =>
    apply (hM.load h address).bind
    intro value
    exact (hM.store h _ address).bind (fun _ => raises_pure _)
  | loadReserved address =>
    apply (hM.load h address).bind
    intro value s e t ht
    cases ht
  | storeConditional stored address =>
    apply (hM.load h address).bind
    intro value s e t ht
    rw [bind_ok (takeReservation_apply s)] at ht
    revert ht
    split_ifs
    · exact (hM.store h stored address).bind (fun _ => raises_pure _) _ e t
    · intro ht
      cases ht
  | loadThenRefuse address error =>
    exact (hM.load h.1 address).bind (fun _ => raises_throw h.2)
  | controlStatus op addr =>
    intro s e t ht
    simp only [Effect.perform, onControlStatus] at ht
    cases hop : s.registers.controlStatus.operation op addr with
    | ok p =>
      rw [hop] at ht
      cases ht
    | error e' =>
      rw [hop] at ht
      cases ht
      rw [CSRegisters.operation_error hop]
      exact h
  | trapReturn =>
    intro s e t ht
    cases ht

theorem Action.raises (hM : Memory.AccessesRaise M E W) {action : Action}
    (h : action.effect.RaisesOnly E W) : Raises E (action.perform : Exec M State) := by
  apply (h.perform hM).bind
  intro result s e t ht
  cases ht

end Effects

section SliceAccesses

variable [Target]

/-- A refused slice range ends outside the slice, or its end is no `usize`. -/
theorem checkedSliceRange_eq_error {slice : List U8} {start len : ℕ} {e : Error}
    (h : checkedSliceRange slice start len = .error e) :
    e = .invalidMemoryAddress (BitVec.ofNat 32 (start + len)) ∨
      e = .invalidMemoryAccessLength len ∧ 2 ^ Target.usizeBits ≤ start + len := by
  unfold checkedSliceRange at h
  split_ifs at h with hfits hinside
  · cases h
    exact .inl rfl
  · cases h
    exact .inr ⟨rfl, by omega⟩

/-- An accepted slice range lies inside the slice and has the length asked for. -/
theorem checkedSliceRange_eq_ok {slice : List U8} {start len stop : ℕ}
    (h : checkedSliceRange slice start len = .ok stop) :
    stop = start + len ∧ stop ≤ slice.length := by
  unfold checkedSliceRange at h
  split_ifs at h with hfits hinside
  cases h
  exact ⟨rfl, by omega⟩

variable {m : SliceMemory} {address : U32} {e : Error}

/-- A load fails with the check of a range that starts at a `u32`. -/
theorem SliceMemory.loadBytes_eq_error {len : ℕ} (h : m.loadBytes address len = .error e) :
    ∃ slice, ∃ start < 2 ^ 32, checkedSliceRange slice start len = .error e := by
  unfold SliceMemory.loadBytes at h
  split at h
  · refine ⟨m.ram, (address - ramOffset).toNat, (address - ramOffset).isLt, ?_⟩
    cases hrange : checkedSliceRange m.ram (address - ramOffset).toNat len with
    | ok stop =>
      simp only [hrange] at h
      cases h
    | error e' =>
      simp only [hrange] at h
      cases h
      rfl
  · refine ⟨m.code, address.toNat, address.isLt, ?_⟩
    cases hrange : checkedSliceRange m.code address.toNat len with
    | ok stop =>
      simp only [hrange] at h
      cases h
    | error e' =>
      simp only [hrange] at h
      cases h
      rfl

/-- So does a store. -/
theorem SliceMemory.storeBytes_eq_error {data : List U8}
    (h : m.storeBytes address data = .error e) :
    ∃ slice, ∃ start < 2 ^ 32, checkedSliceRange slice start data.length = .error e := by
  unfold SliceMemory.storeBytes at h
  refine ⟨m.ram, (address - ramOffset).toNat, (address - ramOffset).isLt, ?_⟩
  cases hrange : checkedSliceRange m.ram (address - ramOffset).toNat data.length with
  | ok stop =>
    simp only [hrange] at h
    cases h
  | error e' =>
    simp only [hrange] at h
    cases h
    rfl

/-- The errors that bytecode can bring about at a program counter: an access is too long
only where a `usize` has 32 bits, and no register is missing. -/
def Error.OfBytecode (pc : U32) : Error → Prop
  | .invalidMemoryAddress _ => True
  | .invalidMemoryAccessLength _ => Target.usizeBits = 32
  | .invalidInstruction pc' => pc' = pc
  | .illegalInstruction pc' => pc' = pc
  | .invalidCSRegister _ => True
  | _ => False

/-- The check of a range of at most four bytes that starts at a `u32`. -/
theorem Error.ofBytecode_range {slice : List U8} {start len : ℕ} (pc : U32)
    (hstart : start < 2 ^ 32) (hlen : len ≤ 4)
    (h : checkedSliceRange slice start len = .error e) : e.OfBytecode pc := by
  rcases checkedSliceRange_eq_error h with rfl | ⟨rfl, hend⟩
  · trivial
  · by_contra hwide
    have hge := @Target.usizeBits_ge _
    have hpow : 2 ^ 33 ≤ 2 ^ Target.usizeBits :=
      Nat.pow_le_pow_right (by decide) (by
        have hne : Target.usizeBits ≠ 32 := hwide
        omega)
    omega

/-- Over slice memory the accesses of instructions fail with such errors only. -/
theorem SliceMemory.accessesRaise (pc : U32) :
    Memory.AccessesRaise SliceMemory (Error.OfBytecode pc) (· ≤ 32) where
  load {w} hw address := by
    apply raises_onPart
    intro m e t h
    by_cases hmapped : m.Mapped address (w / 8)
    · rw [load_of_mapped hmapped (by omega)] at h
      cases h
    · obtain ⟨e', he⟩ := loadBytes_of_not_mapped hmapped
      simp only [MemoryType.load, Memory.loadBytes, bind_apply, reads_apply, he] at h
      cases h
      obtain ⟨slice, start, hstart, hrange⟩ := loadBytes_eq_error he
      exact Error.ofBytecode_range pc hstart (by omega) hrange
  store {w} hw value address := by
    apply raises_onPart
    apply raises_updates
    intro m e h
    obtain ⟨slice, start, hstart, hrange⟩ := storeBytes_eq_error h
    have hlength := length_toLeBytes value
    exact Error.ofBytecode_range pc hstart (by omega) hrange

end SliceAccesses

section Bytecode

variable [Target] (size pc : U32) (regs : Registers)

/-- Whatever an instruction is decoded from, its own errors are about the instruction at
the program counter or a control and status register, and it accesses words at most. -/
theorem Decoded.raisesOnly (inst : Decoded) :
    (inst.action size regs pc).effect.RaisesOnly (Error.OfBytecode pc) (· ≤ 32) := by
  cases inst
  case cAddi4spn data =>
    simp only [action]
    split
    · exact rfl
    · trivial
  case cLw data => exact le_rfl
  case cSw data => exact le_rfl
  case cLwsp data => exact le_rfl
  case cSwsp data => exact le_rfl
  case cJrMv data =>
    simp only [action, CJrMv.action]
    split <;> trivial
  case cEbreakJalrAdd data =>
    simp only [action, CEbreakJalrAdd.action]
    split_ifs <;> trivial
  case branch data =>
    simp only [action, Branch.action]
    split
    · trivial
    · exact rfl
  case opImm data =>
    simp only [action, OpImm.action]
    split
    · trivial
    · split
      · trivial
      · exact rfl
  case loadStore data =>
    rcases LoadStore.action_cases size regs pc data with
      ⟨-, w, extend, hw, h⟩ | ⟨w, hw, h⟩ | h <;> rw [action, h]
    · exact hw
    · simp only [List.mem_cons, Prod.mk.injEq, List.not_mem_nil, or_false] at hw
      rcases hw with ⟨-, rfl⟩ | ⟨-, rfl⟩ | ⟨-, rfl⟩ <;> simp [Effect.RaisesOnly]
    · exact rfl
  case opAmo data =>
    rcases OpAmo.effect_cases regs pc data with
      ⟨result, h⟩ | ⟨-, h⟩ | ⟨-, h⟩ | ⟨stored, -, h⟩ | h <;> simp only [action, h]
    · trivial
    · exact le_rfl
    · exact le_rfl
    · exact le_rfl
    · exact ⟨le_rfl, rfl⟩
  case systemMiscMem data =>
    rcases SystemMiscMem.action_cases size regs pc data with
      ⟨-, state, -, h⟩ | ⟨-, -, h⟩ | ⟨-, -, h⟩ | ⟨-, op, -, h⟩ | ⟨-, h⟩ <;> rw [action, h]
    · trivial
    · trivial
    · exact rfl
    · trivial
    · exact rfl
  all_goals trivial

variable {s t : Interpreter SliceMemory} {e : Error}

theorem decodeExecute_error {w : U32} (h : decodeExecute w s = .error e t) :
    e.OfBytecode s.programCounter := by
  obtain ⟨inst, hinst⟩ := decodeInstruction_isSome w
  rw [decodeExecute_eq_sized hinst, decodeExecuteSized_eq_perform _ s hinst] at h
  have honly := inst.raisesOnly inst.size.toU32 s.programCounter s.registers
  exact Action.raises (SliceMemory.accessesRaise s.programCounter) honly s e t h

theorem step_error (h : step s = .error e t) : e.OfBytecode s.programCounter := by
  rcases bind_eq_error h with hfetch | ⟨w, u, hfetch, hexecute⟩
  · exact (SliceMemory.accessesRaise s.programCounter).load le_rfl _ s e t hfetch
  · obtain rfl := load_ok_state hfetch
    exact decodeExecute_error hexecute

/-- No bytecode reaches the internal error branches over slice memory: every word decodes,
to registers that exist; a step fails with an error of the guest's own making only, unless a
`usize` is no wider than an address; and every slice range it takes lies in the slice. -/
theorem internal_errors_unreachable (s : Interpreter SliceMemory) (w : U32) :
    (∃ inst, decodeInstruction w = some inst ∧ ∀ index ∈ inst.registers, index.toNat < 32) ∧
    (∀ e t, decodeExecute w s = .error e t ∨ step s = .error e t →
      (∀ index, e ≠ .invalidCPURegister index) ∧
      (32 < Target.usizeBits → (∀ len, e ≠ .invalidMemoryAccessLength len) ∧
        ((∃ address, e = .invalidMemoryAddress address) ∨
          e = .invalidInstruction s.programCounter ∨ e = .illegalInstruction s.programCounter ∨
          ∃ addr, e = .invalidCSRegister addr))) ∧
    ∀ slice start len stop, checkedSliceRange slice start len = .ok stop →
      stop = start + len ∧ stop ≤ slice.length := by
  refine ⟨?_, ?_, fun _ _ _ _ h => checkedSliceRange_eq_ok h⟩
  · obtain ⟨inst, hinst⟩ := decodeInstruction_isSome w
    exact ⟨inst, hinst, decodeInstruction_wf hinst⟩
  · intro e t h
    have hcode : e.OfBytecode s.programCounter := h.elim decodeExecute_error step_error
    cases e with
    | invalidMemoryAddress address => simp
    | invalidMemoryAccessLength len =>
      have husize : Target.usizeBits = 32 := hcode
      simp [husize]
    | invalidInstruction pc =>
      obtain rfl : pc = s.programCounter := hcode
      simp
    | illegalInstruction pc =>
      obtain rfl : pc = s.programCounter := hcode
      simp
    | invalidCSRegister addr => simp
    | invalidProgramCounter pc => exact hcode.elim
    | invalidCPURegister index => exact hcode.elim
    | interruptNotEnabled => exact hcode.elim
    | noSyscallFunction => exact hcode.elim

end Bytecode

/-- Reading the first control and status register is refused, as it does not exist. -/
theorem internal_errors_unreachable_csrrw : letI := Target.release64
    let s : Interpreter SliceMemory := new ⟨[], []⟩ 0
    decodeExecute 0x9F s = .error (.invalidCSRegister 0) s ∧
      checkedSliceRange [0, 0] 1 1 = .ok 2 ∧ 2 ≤ [0, 0].length ∧
      ∀ index, Error.invalidCSRegister 0 ≠ .invalidCPURegister index := by
  let _ := Target.release64
  let s : Interpreter SliceMemory := new ⟨[], []⟩ 0
  have herror : decodeExecute 0x9F s = .error (.invalidCSRegister 0) s := rfl
  have hrange : checkedSliceRange [0, 0] 1 1 = .ok 2 := rfl
  obtain ⟨-, herrors, hranges⟩ := internal_errors_unreachable s 0x9F
  exact ⟨herror, hrange, (hranges _ _ _ _ hrange).2, (herrors _ _ (.inl herror)).1⟩

end Embive
