import Embive.SliceAccess
import Embive.Transpiler.Conformance

/-! # Loads, stores and atomic operations conform to RV32IA

The conversion of a memory instruction reads and writes exactly the little-endian bytes
at its address, and fails without a trace when these are not mapped or not writable.
-/

namespace Embive.Transpiler

open Rv32 EStateM

variable [Target]

/-- What the instruction does on slice memory. -/
def Conforms (inst : Access) (s : Interpreter SliceMemory)
    (r : Result Embive.Error (Interpreter SliceMemory) State) : Prop :=
  let address := inst.address s.x
  match inst with
  | .load op rd _ _ =>
    (s.memory.Mapped address op.width → r = .ok .running
      (s.advance rd (op.result (s.memory.bytesAt address op.width)) (s.programCounter + 4))) ∧
    (¬s.memory.Mapped address op.width → ∃ e, r = .error e s)
  | .store op rs2 _ _ =>
    (s.memory.Writable address op.width → r = .ok .running
      { s with
        memory := s.memory.write address (leBytes op.width (s.x rs2).toNat)
        programCounter := s.programCounter + 4 }) ∧
    (¬s.memory.Writable address op.width → ∃ e, r = .error e s)
  | .amo op _ _ rd rs2 _ =>
    let old := fromLeBytes 32 (s.memory.bytesAt address 4)
    (s.memory.Mapped address 4 ∧ s.memory.Writable address 4 → r = .ok .running
      (Interpreter.advance rd old (s.programCounter + 4)
        { s with memory := s.memory.write address (toLeBytes (op.result old (s.x rs2))) })) ∧
    (¬(s.memory.Mapped address 4 ∧ s.memory.Writable address 4) → ∃ e, r = .error e s)

section Actions

variable {s : Interpreter SliceMemory} {address : U32} {rd : Option (Fin 32)} {pc : U32}

theorem perform_load {w : ℕ} (hw : w / 8 ≤ 4) (extend : BitVec w → I32) :
    (s.memory.Mapped address (w / 8) →
      (Action.perform ⟨.load extend address, rd, pc, .running⟩ : Exec SliceMemory State) s =
        .ok .running (s.retire rd (extend (fromLeBytes w (s.memory.bytesAt address (w / 8)))) pc)) ∧
    (¬s.memory.Mapped address (w / 8) → ∃ e,
      (Action.perform ⟨.load extend address, rd, pc, .running⟩ : Exec SliceMemory State) s =
        .error e s) := by
  constructor
  · intro h
    simp only [Action.perform, Effect.perform, bind_apply,
      Interpreter.load_of_mapped h (hw.trans (by decide))]
    rfl
  · intro h
    obtain ⟨e, he⟩ := Interpreter.load_of_not_mapped h
    refine ⟨e, ?_⟩
    simp only [Action.perform, Effect.perform, bind_apply, he]

theorem perform_store {w : ℕ} (stored : BitVec w) :
    (s.memory.Writable address (w / 8) →
      (Action.perform ⟨.store stored address, none, pc, .running⟩ : Exec SliceMemory State) s =
        .ok .running { s with
          memory := s.memory.write address (toLeBytes stored)
          programCounter := pc }) ∧
    (¬s.memory.Writable address (w / 8) → ∃ e,
      (Action.perform ⟨.store stored address, none, pc, .running⟩ : Exec SliceMemory State) s =
        .error e s) := by
  constructor
  · intro h
    simp only [Action.perform, Effect.perform, bind_apply, Interpreter.store_of_writable h]
    rfl
  · intro h
    obtain ⟨e, he⟩ := Interpreter.store_of_not_writable stored h
    refine ⟨e, ?_⟩
    simp only [Action.perform, Effect.perform, bind_apply, he]

theorem perform_storeLow (n : ℕ) (value : U32) :
    (s.memory.Writable address n →
      (Action.perform ⟨.store (value.setWidth (8 * n)) address, none, pc, .running⟩ :
        Exec SliceMemory State) s = .ok .running { s with
          memory := s.memory.write address (leBytes n value.toNat)
          programCounter := pc }) ∧
    (¬s.memory.Writable address n → ∃ e,
      (Action.perform ⟨.store (value.setWidth (8 * n)) address, none, pc, .running⟩ :
        Exec SliceMemory State) s = .error e s) := by
  have hstep := @perform_store _ s address pc (8 * n) (value.setWidth (8 * n))
  rw [toLeBytes_setWidth, Nat.mul_div_cancel_left n (by decide)] at hstep
  exact hstep

theorem perform_readModifyWrite (combine : I32 → I32) :
    (s.memory.Mapped address 4 ∧ s.memory.Writable address 4 →
      (Action.perform ⟨.readModifyWrite combine address, rd, pc, .running⟩ :
        Exec SliceMemory State) s =
        .ok .running (Interpreter.retire rd (fromLeBytes 32 (s.memory.bytesAt address 4)) pc
          { s with
            memory := s.memory.write address
              (toLeBytes (combine (fromLeBytes 32 (s.memory.bytesAt address 4)))) })) ∧
    (¬(s.memory.Mapped address 4 ∧ s.memory.Writable address 4) → ∃ e,
      (Action.perform ⟨.readModifyWrite combine address, rd, pc, .running⟩ :
        Exec SliceMemory State) s = .error e s) := by
  by_cases hmapped : s.memory.Mapped address (32 / 8)
  · have hload := Interpreter.load_of_mapped hmapped (by decide)
    constructor
    · rintro ⟨-, hwritable⟩
      have hstore := @Interpreter.store_of_writable _ s address 32
        (combine (fromLeBytes 32 (s.memory.bytesAt address 4))) hwritable
      simp only [Action.perform, Effect.perform, bind_apply, hload, hstore]
      rfl
    · intro hno
      have hwritable : ¬s.memory.Writable address (32 / 8) := fun h => hno ⟨hmapped, h⟩
      obtain ⟨e, he⟩ := Interpreter.store_of_not_writable
        (combine (fromLeBytes 32 (s.memory.bytesAt address 4))) hwritable
      refine ⟨e, ?_⟩
      simp only [Action.perform, Effect.perform, bind_apply, hload, he]
  · obtain ⟨e, he⟩ := Interpreter.load_of_not_mapped hmapped
    refine ⟨fun h => absurd h.1 hmapped, fun _ => ⟨e, ?_⟩⟩
    simp only [Action.perform, Effect.perform, bind_apply, he]

end Actions

section Tables

omit [Target] in
theorem ite_slt {α : Type} (x y : U32) (a b : α) :
    (if y.slt x then a else b) = if x.toInt ≤ y.toInt then b else a := by
  by_cases h : x.toInt ≤ y.toInt
  · rw [if_pos h, if_neg]
    rw [BitVec.slt_iff_toInt_lt]
    omega
  · rw [if_neg h, if_pos]
    rw [BitVec.slt_iff_toInt_lt]
    omega

omit [Target] in
theorem ite_ult {α : Type} (x y : U32) (a b : α) :
    (if y.ult x then a else b) = if x.toNat ≤ y.toNat then b else a := by
  by_cases h : x.toNat ≤ y.toNat
  · rw [if_pos h, if_neg]
    rw [BitVec.ult_iff_toNat_lt]
    omega
  · rw [if_neg h, if_pos]
    rw [BitVec.ult_iff_toNat_lt]
    omega

/-- The load is renumbered to a function that loads its value, whatever its size. -/
theorem loadOp_loads (op : LoadOp) :
    ∃ func, Riscv.Load.embiveFunc (op.funct3.setWidth 8) = some func ∧
      ∀ (size : U32) (s : Interpreter SliceMemory) (rd rs1 : U8) (imm : I32),
        let r := (LoadStore.action size s.registers s.programCounter
          ⟨rd, rs1, imm, func⟩).perform s
        let address := s.registers.value rs1 + imm
        (s.memory.Mapped address op.width → r = .ok .running
          (s.retire (some (cellOf rd)) (op.result (s.memory.bytesAt address op.width))
            (s.programCounter + size))) ∧
        (¬s.memory.Mapped address op.width → ∃ e, r = .error e s) := by
  cases op with
  | lb => exact ⟨_, rfl, fun _ _ _ _ _ => perform_load (w := 8) (by decide) _⟩
  | lh => exact ⟨_, rfl, fun _ _ _ _ _ => perform_load (w := 16) (by decide) _⟩
  | lw => exact ⟨_, rfl, fun _ _ _ _ _ => perform_load (w := 32) (by decide) _⟩
  | lbu => exact ⟨_, rfl, fun _ _ _ _ _ => perform_load (w := 8) (by decide) _⟩
  | lhu => exact ⟨_, rfl, fun _ _ _ _ _ => perform_load (w := 16) (by decide) _⟩

/-- The load at full size. -/
theorem loadOp_performs (op : LoadOp) :
    ∃ func, Riscv.Load.embiveFunc (op.funct3.setWidth 8) = some func ∧
      ∀ (s : Interpreter SliceMemory) (rd rs1 : U8) (imm : I32),
        let r := (LoadStore.action 4 s.registers s.programCounter ⟨rd, rs1, imm, func⟩).perform s
        let address := s.registers.value rs1 + imm
        (s.memory.Mapped address op.width → r = .ok .running
          (s.retire (some (cellOf rd)) (op.result (s.memory.bytesAt address op.width))
            (s.programCounter + 4))) ∧
        (¬s.memory.Mapped address op.width → ∃ e, r = .error e s) := by
  obtain ⟨func, hfunc, hload⟩ := loadOp_loads op
  exact ⟨func, hfunc, hload 4⟩

/-- The store is renumbered to a function that stores its bytes, whatever its size. -/
theorem storeOp_stores (op : StoreOp) :
    ∃ func, Riscv.Store.embiveFunc (op.funct3.setWidth 8) = some func ∧
      ∀ (size : U32) (s : Interpreter SliceMemory) (rs2 rs1 : U8) (imm : I32),
        let r := (LoadStore.action size s.registers s.programCounter
          ⟨rs2, rs1, imm, func⟩).perform s
        let address := s.registers.value rs1 + imm
        (s.memory.Writable address op.width → r = .ok .running
          { s with
            memory := s.memory.write address (leBytes op.width (s.registers.value rs2).toNat)
            programCounter := s.programCounter + size }) ∧
        (¬s.memory.Writable address op.width → ∃ e, r = .error e s) := by
  cases op with
  | sb => exact ⟨_, rfl, fun _ _ _ _ _ => perform_storeLow 1 _⟩
  | sh => exact ⟨_, rfl, fun _ _ _ _ _ => perform_storeLow 2 _⟩
  | sw => exact ⟨_, rfl, fun _ _ _ _ _ => perform_storeLow 4 _⟩

/-- The store at full size. -/
theorem storeOp_performs (op : StoreOp) :
    ∃ func, Riscv.Store.embiveFunc (op.funct3.setWidth 8) = some func ∧
      ∀ (s : Interpreter SliceMemory) (rs2 rs1 : U8) (imm : I32),
        let r := (LoadStore.action 4 s.registers s.programCounter ⟨rs2, rs1, imm, func⟩).perform s
        let address := s.registers.value rs1 + imm
        (s.memory.Writable address op.width → r = .ok .running
          { s with
            memory := s.memory.write address (leBytes op.width (s.registers.value rs2).toNat)
            programCounter := s.programCounter + 4 }) ∧
        (¬s.memory.Writable address op.width → ∃ e, r = .error e s) := by
  obtain ⟨func, hfunc, hstore⟩ := storeOp_stores op
  exact ⟨func, hfunc, hstore 4⟩

omit [Target] in
theorem readModifyWrite_congr {f g : I32 → I32} {address : U32} (h : ∀ old, f old = g old) :
    Effect.readModifyWrite f address = .readModifyWrite g address := by
  rw [funext h]

omit [Target] in
theorem amoOp_performs (op : AmoOp) (aq rl : BitVec 1) :
    ∃ func, Riscv.Amo.embiveFunc (((op.funct5 ++ aq ++ rl).extractLsb' 2 5).setWidth 8) =
        some func ∧
      ∀ (regs : Registers) (pc : U32) (rd rs1 rs2 : U8),
        OpAmo.effect regs pc ⟨rd, rs1, rs2, func⟩ =
          .readModifyWrite (fun old => op.result old (regs.value rs2)) (regs.value rs1) := by
  have hfunct5 : (op.funct5 ++ aq ++ rl).extractLsb' 2 5 = op.funct5 := by
    simp (disch := omega) only [BitVec.extractLsb'_append_eq_of_le, Nat.reduceSub,
      BitVec.extractLsb'_eq_self]
  rw [hfunct5]
  cases op with
  | swap => exact ⟨_, rfl, fun _ _ _ _ _ => rfl⟩
  | add => exact ⟨_, rfl, fun _ _ _ _ _ => rfl⟩
  | xor => exact ⟨_, rfl, fun _ _ _ _ _ => rfl⟩
  | and => exact ⟨_, rfl, fun _ _ _ _ _ => rfl⟩
  | or => exact ⟨_, rfl, fun _ _ _ _ _ => rfl⟩
  | min =>
    refine ⟨_, rfl, ?_⟩
    intro regs pc rd rs1 rs2
    exact readModifyWrite_congr (fun old => ite_slt old (regs.value rs2) (regs.value rs2) old)
  | max =>
    refine ⟨_, rfl, ?_⟩
    intro regs pc rd rs1 rs2
    exact readModifyWrite_congr (fun old => ite_slt old (regs.value rs2) old (regs.value rs2))
  | minu =>
    refine ⟨_, rfl, ?_⟩
    intro regs pc rd rs1 rs2
    exact readModifyWrite_congr (fun old => ite_ult old (regs.value rs2) (regs.value rs2) old)
  | maxu =>
    refine ⟨_, rfl, ?_⟩
    intro regs pc rd rs1 rs2
    exact readModifyWrite_congr (fun old => ite_ult old (regs.value rs2) old (regs.value rs2))

end Tables

/-- Every load, store and atomic memory operation is accepted, and its conversion does
what the instruction does. -/
theorem access_conforms [ElfCrate] (inst : Access) (hrd : inst.HasDestination) :
    ∃ r, convert inst.encode = .ok r ∧ r.size = .word ∧
      ∀ s : Interpreter SliceMemory, s.registers.value 0 = 0 →
        Conforms inst s (decodeExecute r.data s) := by
  cases inst with
  | load op rd rs1 imm =>
    obtain ⟨func, hfunc, hperform⟩ := loadOp_performs op
    obtain ⟨hconvert, hsize, hexecute⟩ :=
      (load_converts rd rs1 _ imm hfunc).executes SliceMemory rfl
    refine ⟨_, hconvert, hsize, ?_⟩
    intro s h0
    have hstep := hperform s (rd.setWidth 8) (rs1.setWidth 8) (imm.signExtend 32)
    have hretire (value pc : U32) : s.retire (some (cellOf (rd.setWidth 8))) value pc =
        s.advance rd value pc := by
      rw [← retire_eq, unlessZero_of_ne (setWidth_ne_zero hrd)]
    rw [hexecute]
    simp only [value_eq h0, hretire] at hstep
    exact hstep
  | store op rs2 rs1 imm =>
    obtain ⟨func, hfunc, hperform⟩ := storeOp_performs op
    obtain ⟨hconvert, hsize, hexecute⟩ :=
      (store_converts rs1 rs2 _ imm hfunc).executes SliceMemory rfl
    refine ⟨_, hconvert, hsize, ?_⟩
    intro s h0
    have hstep := hperform s (rs2.setWidth 8) (rs1.setWidth 8) (imm.signExtend 32)
    rw [hexecute]
    simp only [value_eq h0] at hstep
    exact hstep
  | amo op aq rl rd rs2 rs1 =>
    obtain ⟨func, hfunc, heffect⟩ := amoOp_performs op aq rl
    obtain ⟨hconvert, hsize, hexecute⟩ :=
      (amo_converts rd rs1 rs2 _ hfunc).executes SliceMemory rfl
    refine ⟨_, hconvert, hsize, ?_⟩
    intro s h0
    rw [hexecute]
    simp only [Decoded.action, heffect, value_eq h0]
    have hstep := @perform_readModifyWrite _ s (s.x rs1) (unlessZero (rd.setWidth 8))
      (s.programCounter + 4) (fun old => op.result old (s.x rs2))
    simp only [retire_eq] at hstep
    exact hstep

/-- A state with a word in RAM and its address in register six. -/
def accessState : Interpreter SliceMemory :=
  { Interpreter.new ⟨[], [1, 0, 0, 0]⟩ 0 with
    registers := ⟨CPURegisters.default.write 6 0x80000000, .default⟩ }

omit [Target] in
/-- The word of `amoadd.w x6, x6, (x6)`. -/
theorem access_conforms_amoadd : letI := Target.release64
    letI := ElfCrate.parsesNothing
    ∃ r, convert 0x0063232F = .ok r ∧
      decodeExecute r.data accessState = .ok .running
        (Interpreter.advance 6 1 4 { accessState with memory := ⟨[], [1, 0, 0, 0x80]⟩ }) := by
  let _ := Target.release64
  let _ := ElfCrate.parsesNothing
  obtain ⟨r, hconvert, -, hexecute⟩ := access_conforms (.amo .add 0 0 6 6 6) trivial
  have hmapped : accessState.memory.Mapped 0x80000000 4 := by
    rw [SliceMemory.Mapped, if_pos (by decide)]
    decide
  have hwritable : accessState.memory.Writable 0x80000000 4 := ⟨by decide, by decide⟩
  exact ⟨r, hconvert, (hexecute accessState rfl).1 ⟨hmapped, hwritable⟩⟩

end Embive.Transpiler
