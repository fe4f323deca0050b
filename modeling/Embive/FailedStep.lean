import Embive.Reachable

/-! # A failed step leaves no trace

Over slice memory a load changes nothing and a refused store changes nothing, and
every instruction fails before it changes anything else, save one: a store
conditional has taken the reservation when its store is refused.
-/

namespace Embive

open EStateM Interpreter

/-- The effects of a register or atomic operation on the reservation. -/
theorem OpAmo.effect_storeConditional {regs : Registers} {pc : U32} {data : TypeR} {stored : I32}
    {address : U32} (h : OpAmo.effect regs pc data = .storeConditional stored address) :
    data.func = OpAmo.scFunc ∧ stored = regs.value data.rs2 ∧ address = regs.value data.rs1 := by
  rcases OpAmo.effect_cases regs pc data with
    ⟨_, he⟩ | ⟨-, he⟩ | ⟨hsc, he⟩ | ⟨_, -, he⟩ | he <;> rw [he] at h <;> cases h
  exact ⟨hsc, rfl, rfl⟩

/-- Only atomic operations reserve a word or consume a reservation. -/
theorem Decoded.of_isReserving {inst : Decoded} {size pc : U32} {regs : Registers}
    (h : (inst.action size regs pc).effect.IsReserving) : ∃ data, inst = .opAmo data := by
  rcases inst.effect_isPlain size pc regs with hplain | hamo | ⟨data, rfl⟩
  · cases heffect : (inst.action size regs pc).effect <;> rw [heffect] at h hplain
    all_goals first | exact h.elim | exact hplain.elim
  · exact hamo
  · rcases SystemMiscMem.action_cases size regs pc data with
      ⟨-, _, -, ha⟩ | ⟨-, -, ha⟩ | ⟨-, -, ha⟩ | ⟨-, _, -, ha⟩ | ⟨-, ha⟩
    all_goals
      rw [action, ha] at h
      exact h.elim

section SliceAccesses

variable [Target] {s t : Interpreter SliceMemory} {w : ℕ} {address : U32} {e : Error}

theorem SliceMemory.load_state (w : ℕ) (address : U32) (memory : SliceMemory) :
    (MemoryType.load w address memory).state = memory := by
  simp only [MemoryType.load, bind_apply, Memory.loadBytes, reads_apply]
  cases memory.loadBytes address (w / 8) with
  | error e => rfl
  | ok bytes =>
    dsimp only
    split_ifs <;> rfl

theorem SliceMemory.store_error {value : BitVec w} {memory memory' : SliceMemory}
    (h : MemoryType.store value address memory = .error e memory') : memory' = memory := by
  simp only [MemoryType.store, Memory.storeBytes, updates_apply] at h
  split at h <;> cases h
  rfl

theorem load_state (w : ℕ) (address : U32) (s : Interpreter SliceMemory) :
    (Interpreter.load w address s).state = s := by
  rw [Interpreter.load, onPart_apply, Result.state_mapState, SliceMemory.load_state]

theorem load_ok_state {value : BitVec w} (h : Interpreter.load w address s = .ok value t) :
    t = s := by
  have hs := load_state w address s
  rw [h] at hs
  exact hs

theorem load_error_state (h : Interpreter.load w address s = .error e t) : t = s := by
  have hs := load_state w address s
  rw [h] at hs
  exact hs

theorem store_error_state {value : BitVec w} (h : Interpreter.store value address s = .error e t) :
    t = s := by
  rw [Interpreter.store, onPart_apply] at h
  cases hm : MemoryType.store value address s.memory with
  | ok _ memory =>
    rw [hm] at h
    cases h
  | error e' memory =>
    rw [hm, SliceMemory.store_error hm] at h
    cases h
    rfl

/-- Whether a store is refused depends on the memory only. -/
theorem store_error_iff {value : BitVec w} :
    Interpreter.store value address s = .error e s ↔
      MemoryType.store value address s.memory = .error e s.memory := by
  rw [Interpreter.store, onPart_apply]
  cases hm : MemoryType.store value address s.memory with
  | ok _ memory => simp
  | error e' memory => simp [SliceMemory.store_error hm]

theorem Fetches.state_eq {inst : Decoded} (h : Fetches s inst t) : t = s := by
  obtain ⟨data, hload, _⟩ := h
  exact load_ok_state hload

end SliceAccesses

/-- A store conditional to the reserved word is refused its store. -/
def RefusedConditional [Target] (s : Interpreter SliceMemory) (stored : I32) (address : U32) :
    Prop :=
  (∃ value, Interpreter.load 32 address s = .ok value s ∧
    s.memoryReservation = some (address, value)) ∧
  ∃ e, Interpreter.store stored address s = .error e s

section FailedSteps

variable [Target] {s t : Interpreter SliceMemory} {e : Error}

theorem Effect.perform_error {effect : Effect} (h : effect.perform s = .error e t) :
    t = s ∨ ∃ stored address, effect = .storeConditional stored address ∧
      RefusedConditional s stored address ∧ t = { s with memoryReservation := none } := by
  cases effect with
  | refuse error =>
    cases h
    exact .inl rfl
  | value result => cases h
  | load extend address =>
    rcases bind_eq_error h with hload | ⟨value, u, _, hrest⟩
    · exact .inl (load_error_state hload)
    · cases hrest
  | store stored address =>
    rcases bind_eq_error h with hstore | ⟨_, u, _, hrest⟩
    · exact .inl (store_error_state hstore)
    · cases hrest
  | readModifyWrite combine address =>
    rcases bind_eq_error h with hload | ⟨value, u, hload, hrest⟩
    · exact .inl (load_error_state hload)
    · obtain rfl := load_ok_state hload
      rcases bind_eq_error hrest with hstore | ⟨_, u', _, hrest'⟩
      · exact .inl (store_error_state hstore)
      · cases hrest'
  | loadReserved address =>
    rcases bind_eq_error h with hload | ⟨value, u, _, hrest⟩
    · exact .inl (load_error_state hload)
    · cases hrest
  | storeConditional stored address =>
    rcases bind_eq_error h with hload | ⟨value, u, hload, hrest⟩
    · exact .inl (load_error_state hload)
    · obtain rfl := load_ok_state hload
      rw [bind_ok (takeReservation_apply u)] at hrest
      by_cases hreserved : u.memoryReservation = some (address, value)
      · rw [if_pos hreserved] at hrest
        rcases bind_eq_error hrest with hstore | ⟨_, u', _, hrest'⟩
        · obtain rfl := store_error_state hstore
          have hrefused : Interpreter.store stored address u = .error e u :=
            store_error_iff.mpr
              (store_error_iff (s := { u with memoryReservation := none }).mp hstore)
          exact .inr ⟨stored, address, rfl, ⟨⟨value, hload, hreserved⟩, e, hrefused⟩, rfl⟩
        · cases hrest'
      · rw [if_neg hreserved] at hrest
        cases hrest
  | loadThenRefuse address error =>
    rcases bind_eq_error h with hload | ⟨value, u, hload, hrest⟩
    · exact .inl (load_error_state hload)
    · obtain rfl := load_ok_state hload
      cases hrest
      exact .inl rfl
  | controlStatus op addr =>
    simp only [perform, onControlStatus] at h
    split at h <;> cases h
    exact .inl rfl
  | trapReturn => cases h

/-- A failed step has changed nothing at all, unless it is a store conditional whose
reservation matches and whose store is refused: that one loses the reservation. -/
theorem step_error_state (h : step s = .error e t) :
    t = s ∨ ∃ data, Fetches s (.opAmo data) s ∧ data.func = OpAmo.scFunc ∧
      RefusedConditional s (s.registers.value data.rs2) (s.registers.value data.rs1) ∧
      t = { s with memoryReservation := none } := by
  rcases bind_eq_error h with hfetch | ⟨data, u, hfetch, hexec⟩
  · exact .inl (load_error_state hfetch)
  · obtain ⟨inst, hinst⟩ := decodeInstruction_isSome data
    have hf : Fetches s inst u := ⟨data, hfetch, hinst⟩
    obtain rfl := hf.state_eq
    rw [hf.step] at h
    rcases bind_eq_error h with heffect | ⟨result, v, _, hretire⟩
    · rcases Effect.perform_error heffect with heq | ⟨stored, address, hsc, hrefused, heq⟩
      · exact .inl heq
      · have hreserving : (inst.action inst.size.toU32 u.registers
            u.programCounter).effect.IsReserving := by
          rw [hsc]
          trivial
        obtain ⟨data, rfl⟩ := Decoded.of_isReserving hreserving
        obtain ⟨hfunc, rfl, rfl⟩ := OpAmo.effect_storeConditional hsc
        exact .inr ⟨data, hf, hfunc, hrefused, heq⟩
    · cases hretire

end FailedSteps

/-- The Embive word of `sc.w x0, x0, (x0)`, reserved itself: code cannot be stored to. -/
def refusedCode : Interpreter SliceMemory :=
  { new ⟨[0x9E, 0x09, 0x00, 0x00], []⟩ 0 with memoryReservation := some (0, 0x99E) }

theorem step_error_state_refusedCode : letI := Target.release64
    ∃ data, Fetches refusedCode (.opAmo data) refusedCode ∧ data.func = OpAmo.scFunc ∧
      RefusedConditional refusedCode (refusedCode.registers.value data.rs2)
        (refusedCode.registers.value data.rs1) := by
  let _ := Target.release64
  have hstep : step refusedCode =
      .error (.invalidMemoryAddress 0x80000004) { refusedCode with memoryReservation := none } := by
    rfl
  rcases step_error_state hstep with heq | ⟨data, hfetch, hfunc, hrefused, _⟩
  · exact absurd heq (by decide)
  · exact ⟨data, hfetch, hfunc, hrefused⟩

end Embive
