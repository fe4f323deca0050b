import Embive.Reservation
import Embive.Transpiler.Accesses
import Embive.Transpiler.Compressed
import Embive.Transpiler.Csr
import Embive.Transpiler.Hart
import Embive.Transpiler.Multiply

/-! # Every instruction runs as on the machine

The conversion of every instruction does to the state of the interpreter what the machine
does to the hart, whatever its size.
-/

namespace Embive

open Rv32 EStateM

namespace Transpiler

open Interpreter

/-- The outcome of a step is the one of the machine. -/
def Follows (expected : Except Stop (State × Hart))
    (r : Result Embive.Error (Interpreter SliceMemory) State) : Prop :=
  match expected with
  | .ok (state, h) => ∃ t, r = .ok state t ∧ t.Models h
  | .error .failed => ∃ e t, r = .error e t
  | .error .unspecified => True

section Outcomes

variable {s t : Interpreter SliceMemory} {r : Result Embive.Error (Interpreter SliceMemory) State}
  {rd : BitVec 5} {value pc : U32} {state : State}

theorem follows_ok (hr : r = .ok state t) (ht : t.Sound) : Follows (.ok (state, t.hart)) r :=
  ⟨t, hr, rfl, ht⟩

theorem follows_advance (hs : s.Sound) (hpc : IsEven pc)
    (hr : r = .ok state (s.advance rd value pc)) :
    Follows (.ok (state, s.hart.advance rd value pc)) r := by
  rw [← hart_advance]
  exact follows_ok hr (hs.advance rd value hpc)

theorem follows_goto (hs : s.Sound) (hpc : IsEven pc)
    (hr : r = .ok state { s with programCounter := pc }) :
    Follows (.ok (state, { s.hart with pc })) r :=
  follows_ok (t := { s with programCounter := pc }) hr ⟨hpc, hs.zero, hs.masked⟩

/-- The outcome where a condition holds, and where it does not. -/
theorem follows_ite {c : Prop} [Decidable c] (ht : t.Sound)
    (h : (c → r = .ok state t) ∧ (¬c → ∃ e, r = .error e s)) :
    Follows (if c then .ok (state, t.hart) else .error .failed) r := by
  by_cases hc : c
  · rw [if_pos hc]
    exact follows_ok (h.1 hc) ht
  · obtain ⟨e, he⟩ := h.2 hc
    rw [if_neg hc]
    exact ⟨e, s, he⟩

theorem follows_failed (h : ∃ e, r = .error e s) : Follows (.error .failed) r := by
  obtain ⟨e, he⟩ := h
  exact ⟨e, s, he⟩

end Outcomes

variable [Target]

/-- Whatever its size, the converted instruction does what the machine does. -/
def Implements (d : Decoded) (inst : Instr) : Prop :=
  ∀ (size : Size) (s : Interpreter SliceMemory), s.Sound →
    Follows (inst.execute size.toU32 s.hart)
      ((d.action size.toU32 s.registers s.programCounter).perform s)

/-- The instruction has a conversion that implements it. -/
def Implemented (inst : Instr) : Prop :=
  ∃ d, ConvertsTo inst.encode d ∧ d.size = .word ∧ Implements d inst

theorem Implements.implemented {d : Decoded} {inst : Instr} (h : Implements d inst)
    (hsize : d.size = .word) (hconverts : ConvertsTo inst.encode d) : Implemented inst :=
  ⟨d, hconverts, hsize, h⟩

omit [Target] in
theorem even_next {s : Interpreter SliceMemory} (hs : s.Sound) (size : Size) :
    IsEven (s.programCounter + size.toU32) := hs.even.add size.isEven

section Integer

variable {rd rs1 rs2 : BitVec 5}

/-- A register operation that computes the result of an instruction. -/
theorem follows_compute {func : U16} {result : U32 → U32 → U32}
    (h : ∀ x y, OpAmo.compute func x y = some (result x y)) (size : Size)
    {s : Interpreter SliceMemory} (hs : s.Sound) :
    Follows (.ok (.running, s.hart.advance rd (result (s.x rs1) (s.x rs2))
        (s.programCounter + size.toU32)))
      (((Decoded.opAmo ⟨rd.setWidth 8, rs1.setWidth 8, rs2.setWidth 8, func⟩).action size.toU32
        s.registers s.programCounter).perform s) := by
  apply follows_advance hs (even_next hs size)
  simp only [Decoded.action, OpAmo.effect, value_eq hs.zero, h, perform_value, retire_eq]

/-- An operation with an immediate that computes the result of an instruction. -/
theorem follows_computeImm {func : U8} {imm : I32} {result : U32 → U32}
    (h : ∀ x, OpImm.compute func x imm = some (result x)) (size : Size)
    {s : Interpreter SliceMemory} (hs : s.Sound) :
    Follows (.ok (.running, s.hart.advance rd (result (s.x rs1)) (s.programCounter + size.toU32)))
      (((Decoded.opImm ⟨rd.setWidth 8, rs1.setWidth 8, imm, func⟩).action size.toU32
        s.registers s.programCounter).perform s) := by
  apply follows_advance hs (even_next hs size)
  simp only [Decoded.action, OpImm.action, value_eq hs.zero, h]
  rw [← retire_eq]
  by_cases hrd : rd.setWidth 8 = (0 : U8)
  · rw [if_pos hrd, hrd]
    rfl
  · rw [if_neg hrd, unlessZero_of_ne hrd]
    rfl

theorem implemented_integer (inst : Rv32.Integer) : Implemented (.integer inst) := by
  cases inst with
  | alu op rd rs1 rs2 =>
    obtain ⟨func, hfunc, hcompute⟩ := aluOp_computes op
    refine Implements.implemented ?_ rfl (op_converts rd rs1 rs2 _ _ hfunc)
    intro size s hs
    exact follows_compute hcompute size hs
  | aluImm op rd rs1 imm =>
    obtain ⟨func, hfunc, hcompute⟩ := aluImmOp_computes op
    refine Implements.implemented ?_ rfl (opImm_converts rd rs1 _ imm hfunc)
    intro size s hs
    exact follows_computeImm (fun x => hcompute x imm) size hs
  | shift op rd rs1 shamt =>
    obtain ⟨func, hfunc, hcompute⟩ := shiftOp_computes op
    refine Implements.implemented ?_ rfl (opImm_converts rd rs1 _ _ hfunc)
    intro size s hs
    exact follows_computeImm (fun x => hcompute x shamt) size hs
  | lui rd imm =>
    refine Implements.implemented ?_ rfl (lui_converts rd imm)
    intro size s hs
    apply follows_advance hs (even_next hs size)
    simp only [Decoded.action, perform_write, retire_eq]
    rfl
  | auipc rd imm =>
    refine Implements.implemented ?_ rfl (auipc_converts rd imm)
    intro size s hs
    apply follows_advance hs (even_next hs size)
    simp only [Decoded.action, perform_write, retire_eq]
    rfl

theorem implemented_multiply (op : MulDivOp) (rd rs1 rs2 : BitVec 5) :
    Implemented (.multiply op rd rs1 rs2) := by
  obtain ⟨func, hfunc, hcompute⟩ := mulDivOp_computes op
  refine Implements.implemented ?_ rfl (op_converts rd rs1 rs2 _ _ hfunc)
  intro size s hs
  exact follows_compute hcompute size hs

end Integer

section Control

omit [Target] in
theorem offset12_even (offset : BitVec 12) : IsEven ((offset ++ 0#1).signExtend 32) := by
  revert offset
  exact Lib.OrLinear.eq_of_oneBit (by fun_prop) (by fun_prop) (by decide)

omit [Target] in
theorem offset20_even (offset : BitVec 20) : IsEven ((offset ++ 0#1).signExtend 32) := by
  revert offset
  exact Lib.OrLinear.eq_of_oneBit (by fun_prop) (by fun_prop) (by decide)

theorem implemented_control (inst : Control) : Implemented (.control inst) := by
  cases inst with
  | branch op rs1 rs2 offset =>
    obtain ⟨func, hfunc, htaken⟩ := branchOp_taken op
    refine Implements.implemented ?_ rfl (branch_converts rs1 rs2 _ offset hfunc)
    intro size s hs
    have heven : (Control.branch op rs1 rs2 offset).TargetsEven s.hart.x := trivial
    rw [execute_control heven, goesTo_branch]
    apply follows_advance hs
    · split_ifs
      · exact hs.even.add (offset12_even offset)
      · exact even_next hs size
    · simp only [Decoded.action, Branch.action, value_eq hs.zero, htaken, perform_goto]
      rfl
  | jal rd offset =>
    refine Implements.implemented ?_ rfl (jal_converts rd offset)
    intro size s hs
    have heven : (Control.jal rd offset).TargetsEven s.hart.x := trivial
    rw [execute_control heven]
    apply follows_advance hs (hs.even.add (offset20_even offset))
    simp only [Decoded.action, perform_write, retire_eq]
    rfl
  | jalr rd rs1 imm =>
    refine Implements.implemented ?_ rfl (jalr_converts rd rs1 imm)
    intro size s hs
    by_cases heven : (Control.jalr rd rs1 imm).TargetsEven s.x
    · have hclear : (Control.jalr rd rs1 imm).goesTo s.hart.x s.hart.pc size.toU32 =
          s.x rs1 + imm.signExtend 32 := IsEven.clear_eq heven
      rw [execute_control heven, hclear]
      apply follows_advance hs heven
      simp only [Decoded.action, perform_write, value_eq hs.zero, retire_eq]
      rfl
    · rw [execute_control_odd heven]
      trivial

end Control

section Access

theorem implemented_load (op : LoadOp) (rd rs1 : BitVec 5) (imm : BitVec 12) :
    Implemented (.access (.load op rd rs1 imm)) := by
  obtain ⟨func, hfunc, hload⟩ := loadOp_loads op
  refine Implements.implemented ?_ rfl (load_converts rd rs1 _ imm hfunc)
  intro size s hs
  by_cases hrd : rd = 0
  · have hexecute : Instr.execute (.access (.load op rd rs1 imm)) size.toU32 s.hart =
        .error .unspecified := if_pos hrd
    rw [hexecute]
    trivial
  · have hexecute : Instr.execute (.access (.load op rd rs1 imm)) size.toU32 s.hart =
        _ := if_neg hrd
    have hstep := hload size.toU32 s (rd.setWidth 8) (rs1.setWidth 8) (imm.signExtend 32)
    have hretire (value pc : U32) : s.retire (some (cellOf (rd.setWidth 8))) value pc =
        s.advance rd value pc := by
      rw [← retire_eq, unlessZero_of_ne (setWidth_ne_zero hrd)]
    simp only [value_eq hs.zero, hretire] at hstep
    rw [hexecute, ← hart_advance]
    exact follows_ite (hs.advance rd _ (even_next hs size)) hstep

theorem implemented_store (op : StoreOp) (rs2 rs1 : BitVec 5) (imm : BitVec 12) :
    Implemented (.access (.store op rs2 rs1 imm)) := by
  obtain ⟨func, hfunc, hstore⟩ := storeOp_stores op
  refine Implements.implemented ?_ rfl (store_converts rs1 rs2 _ imm hfunc)
  intro size s hs
  have hstep := hstore size.toU32 s (rs2.setWidth 8) (rs1.setWidth 8) (imm.signExtend 32)
  simp only [value_eq hs.zero] at hstep
  exact follows_ite (t := { s with
    memory := s.memory.write (s.x rs1 + imm.signExtend 32) (leBytes op.width (s.x rs2).toNat)
    programCounter := s.programCounter + size.toU32 }) ⟨even_next hs size, hs.zero, hs.masked⟩ hstep

theorem implemented_amo (op : AmoOp) (aq rl : BitVec 1) (rd rs2 rs1 : BitVec 5) :
    Implemented (.access (.amo op aq rl rd rs2 rs1)) := by
  obtain ⟨func, hfunc, heffect⟩ := amoOp_performs op aq rl
  refine Implements.implemented ?_ rfl (amo_converts rd rs1 rs2 _ hfunc)
  intro size s hs
  have hstep := @perform_readModifyWrite _ s (s.x rs1) (unlessZero (rd.setWidth 8))
    (s.programCounter + size.toU32) (fun old => op.result old (s.x rs2))
  simp only [retire_eq] at hstep
  simp only [Decoded.action, heffect, value_eq hs.zero]
  have hsound : ({ s with
      memory := s.memory.write (s.x rs1)
        (toLeBytes (op.result (fromLeBytes 32 (s.memory.bytesAt (s.x rs1) 4)) (s.x rs2))) } :
      Interpreter SliceMemory).Sound := ⟨hs.even, hs.zero, hs.masked⟩
  have hfollows := follows_ite (hsound.advance rd (fromLeBytes 32 (s.memory.bytesAt (s.x rs1) 4))
    (even_next hs size)) hstep
  rw [hart_advance] at hfollows
  exact hfollows

end Access

section Reserved

theorem implemented_loadReserved (aq rl : BitVec 1) (rd rs1 : BitVec 5) :
    Implemented (.loadReserved aq rl rd rs1) := by
  have hfunc : Riscv.Amo.embiveFunc (((0b00010#5 ++ aq ++ rl).extractLsb' 2 5).setWidth 8) =
      some OpAmo.lrFunc := by
    revert aq rl
    decide
  refine Implements.implemented ?_ rfl (amo_converts rd rs1 0 _ hfunc)
  intro size s hs
  have heffect : OpAmo.effect s.registers s.programCounter
      ⟨rd.setWidth 8, rs1.setWidth 8, (0 : BitVec 5).setWidth 8, OpAmo.lrFunc⟩ =
        .loadReserved (s.registers.value (rs1.setWidth 8)) :=
    (OpAmo.effect_of_lr s.registers s.programCounter rfl).2
  simp only [Decoded.action, heffect, value_eq hs.zero]
  have hsound : ({ s with
      memoryReservation := some (s.x rs1, fromLeBytes 32 (s.memory.bytesAt (s.x rs1) 4)) } :
      Interpreter SliceMemory).Sound := ⟨hs.even, hs.zero, hs.masked⟩
  have hnext := hsound.advance rd (fromLeBytes 32 (s.memory.bytesAt (s.x rs1) 4))
    (even_next hs size)
  have hexecute : Instr.execute (.loadReserved aq rl rd rs1) size.toU32 s.hart =
      if s.memory.Mapped (s.x rs1) 4 then .ok (.running, Interpreter.hart (Interpreter.advance rd
        (fromLeBytes 32 (s.memory.bytesAt (s.x rs1) 4)) (s.programCounter + size.toU32)
        { s with
          memoryReservation := some (s.x rs1, fromLeBytes 32 (s.memory.bytesAt (s.x rs1) 4)) }))
      else .error .failed := by
    rw [hart_advance]
    rfl
  rw [hexecute]
  apply follows_ite (s := s) hnext
  constructor
  · intro hmapped
    simp only [Action.perform, Effect.perform, bind_apply,
      Interpreter.load_of_mapped (w := 32) hmapped (by decide), setReservation_apply, ← retire_eq]
    rfl
  · intro hmapped
    obtain ⟨e, he⟩ := Interpreter.load_of_not_mapped (w := 32) hmapped
    simp only [Action.perform, Effect.perform, bind_apply, he]
    exact ⟨e, rfl⟩

theorem implemented_storeConditional (aq rl : BitVec 1) (rd rs2 rs1 : BitVec 5) :
    Implemented (.storeConditional aq rl rd rs2 rs1) := by
  have hfunc : Riscv.Amo.embiveFunc (((0b00011#5 ++ aq ++ rl).extractLsb' 2 5).setWidth 8) =
      some OpAmo.scFunc := by
    revert aq rl
    decide
  refine Implements.implemented ?_ rfl (amo_converts rd rs1 rs2 _ hfunc)
  intro size s hs
  have heffect : OpAmo.effect s.registers s.programCounter
      ⟨rd.setWidth 8, rs1.setWidth 8, rs2.setWidth 8, OpAmo.scFunc⟩ =
        .storeConditional (s.registers.value (rs2.setWidth 8))
          (s.registers.value (rs1.setWidth 8)) :=
    OpAmo.effect_of_sc rfl
  simp only [Decoded.action, heffect, value_eq hs.zero]
  by_cases hmapped : s.memory.Mapped (s.x rs1) 4
  · have hload := Interpreter.load_of_mapped (w := 32) hmapped (by decide)
    simp only [Action.perform, Effect.perform, bind_apply, hload, takeReservation_apply]
    by_cases hreserved : s.memoryReservation =
        some (s.x rs1, fromLeBytes 32 (s.memory.bytesAt (s.x rs1) 4))
    · by_cases hwritable : s.memory.Writable (s.x rs1) 4
      · have hexecute : Instr.execute (.storeConditional aq rl rd rs2 rs1) size.toU32 s.hart = _ :=
          (if_pos hmapped).trans ((if_pos hreserved).trans (if_pos hwritable))
        have hstore : Interpreter.store (s.x rs2) (s.x rs1) { s with memoryReservation := none } =
            .ok ⟨⟩ { s with
              memory := s.memory.write (s.x rs1) (toLeBytes (s.x rs2))
              memoryReservation := none } :=
          Interpreter.store_of_writable (s := { s with memoryReservation := none }) hwritable
        have hsound : ({ s with
            memory := s.memory.write (s.x rs1) (toLeBytes (s.x rs2))
            memoryReservation := none } : Interpreter SliceMemory).Sound :=
          ⟨hs.even, hs.zero, hs.masked⟩
        have hfollows : Follows (.ok (.running, _)) _ :=
          follows_ok rfl (hsound.advance rd 0 (even_next hs size))
        rw [hart_advance] at hfollows
        rw [hexecute, if_pos hreserved, bind_apply, hstore]
        simp only [← retire_eq] at hfollows ⊢
        exact hfollows
      · have hexecute : Instr.execute (.storeConditional aq rl rd rs2 rs1) size.toU32 s.hart = _ :=
          (if_pos hmapped).trans ((if_pos hreserved).trans (if_neg hwritable))
        obtain ⟨e, he⟩ := Interpreter.store_of_not_writable
          (s := { s with memoryReservation := none }) (s.x rs2) hwritable
        rw [hexecute, if_pos hreserved, bind_apply, he]
        exact ⟨_, _, rfl⟩
    · have hexecute : Instr.execute (.storeConditional aq rl rd rs2 rs1) size.toU32 s.hart = _ :=
        (if_pos hmapped).trans (if_neg hreserved)
      have hsound : ({ s with memoryReservation := none } : Interpreter SliceMemory).Sound :=
        ⟨hs.even, hs.zero, hs.masked⟩
      have hfollows : Follows (.ok (.running, _)) _ :=
        follows_ok rfl (hsound.advance rd 1 (even_next hs size))
      rw [hart_advance] at hfollows
      rw [hexecute, if_neg hreserved]
      simp only [← retire_eq] at hfollows
      exact hfollows
  · have hexecute : Instr.execute (.storeConditional aq rl rd rs2 rs1) size.toU32 s.hart = _ :=
      if_neg hmapped
    obtain ⟨e, he⟩ := Interpreter.load_of_not_mapped (w := 32) hmapped
    simp only [Action.perform, Effect.perform, bind_apply, he]
    rw [hexecute]
    exact ⟨e, s, rfl⟩

end Reserved

section ControlStatus

omit [Target] in
/-- The registers after an operation, as the machine has them. -/
theorem csrOperation_values {op : CsrOp} {rs1 : BitVec 5} {operand old : U32} {field : CsrField}
    {addr : U16} {cs cs' : CSRegisters}
    (hupdate : cs'.view = Function.update cs.view addr
      (some (field.after (executeOperation (csrOperation op rs1 operand) old))))
    (hnone : csrOperation op rs1 operand = none → cs' = cs) :
    cs'.values = if op.Writes rs1 then
      Function.update cs.values addr (field.after (op.result old operand)) else cs.values := by
  by_cases hwrites : op.Writes rs1
  · rw [if_pos hwrites, ← csrOperation_of_writes hwrites]
    exact CSRegisters.values_update hupdate
  · rw [if_neg hwrites, hnone (csrOperation_of_not_writes hwrites operand)]

theorem implemented_csr (op : CsrOp) (rd rs1 : BitVec 5) (number : BitVec 12) :
    Implemented (.csr op rd rs1 number) := by
  obtain ⟨func, hfunc, hmisc, hop⟩ := csrOp_operates op
  have hmisc' : op.funct3.setWidth 8 ≠ SystemMiscMem.miscFunc := by
    cases op <;> decide
  refine Implements.implemented ?_ rfl (csr_converts rd rs1 _ number hmisc' hfunc)
  intro size s hs
  have haction : (Decoded.systemMiscMem ⟨rd.setWidth 8, rs1.setWidth 8, number.signExtend 32,
      func⟩).action size.toU32 s.registers s.programCounter =
      ⟨.controlStatus (csrOperation op rs1 (op.operand (s.x rs1) rs1)) (number.setWidth 16),
        unlessZero (rd.setWidth 8), s.programCounter + size.toU32, .running⟩ := by
    rw [Decoded.action, SystemMiscMem.action, if_neg hmisc, hop, csr_address, value_eq hs.zero]
  rw [haction]
  cases hfield : csrField (number.setWidth 16) with
  | none =>
    simp only [Instr.execute, hfield]
    apply follows_failed (s := s)
    simp only [Action.perform, Effect.perform, Interpreter.onControlStatus, EStateM.bind_apply,
      operation_unsupported _ hfield]
    exact ⟨_, rfl⟩
  | some field =>
    obtain ⟨old, cs, hview, -, hoperation, hmasked, hupdate, hnone⟩ :=
      operation_updates hs.masked hfield (csrOperation op rs1 (op.operand (s.x rs1) rs1))
    have hold : s.hart.csrs (number.setWidth 16) = old := CSRegisters.values_of_view hview
    have hsound : ({ s with registers.controlStatus := cs } : Interpreter SliceMemory).Sound :=
      ⟨hs.even, hs.zero, hmasked⟩
    have hperform : (Action.perform ⟨.controlStatus (csrOperation op rs1
        (op.operand (s.x rs1) rs1)) (number.setWidth 16), unlessZero (rd.setWidth 8),
        s.programCounter + size.toU32, .running⟩ : Exec SliceMemory State) s = .ok .running
          (Interpreter.advance rd old (s.programCounter + size.toU32)
            { s with registers.controlStatus := cs }) := by
      simp only [Action.perform, Effect.perform, Interpreter.onControlStatus,
        EStateM.bind_apply, hoperation, ← retire_eq]
      rfl
    have hfollows := follows_ok hperform (hsound.advance rd old (even_next hs size))
    have hhart : ({ s with registers.controlStatus := cs } : Interpreter SliceMemory).hart =
        if op.Writes rs1 then
          { s.hart with
            csrs := Function.update s.hart.csrs (number.setWidth 16)
              (field.after (op.result old (op.operand (s.x rs1) rs1))) }
        else s.hart := by
      have hvalues := csrOperation_values hupdate hnone
      split_ifs with hwrites
      · rw [if_pos hwrites] at hvalues
        exact congrArg (fun csrs => { s.hart with csrs }) hvalues
      · rw [if_neg hwrites] at hvalues
        exact congrArg (fun csrs => { s.hart with csrs }) hvalues
    rw [hart_advance, hhart, ← hold] at hfollows
    simp only [Instr.execute, hfield]
    exact hfollows

end ControlStatus

section Environment

variable {imm : I32} {state : State}

/-- An instruction that only goes on. -/
theorem follows_misc {d : Decoded} (size : Size) {s : Interpreter SliceMemory} (hs : s.Sound)
    (haction : d.action size.toU32 s.registers s.programCounter =
      .goto (s.programCounter + size.toU32) state) :
    Follows (.ok (state, { s.hart with pc := s.programCounter + size.toU32 }))
      ((d.action size.toU32 s.registers s.programCounter).perform s) := by
  rw [haction, perform_goto]
  exact follows_goto hs (even_next hs size) rfl

theorem implemented_fence (funct3 : BitVec 3) (rd rs1 : BitVec 5) (imm : BitVec 12) :
    Implemented (.fence funct3 rd rs1 imm) := by
  have hconverts : ConvertsTo (iType imm rs1 funct3 rd 0b0001111) (.systemMiscMem
      { (Format.fromRiscv (iType imm rs1 funct3 rd 0b0001111) : TypeI) with
        func := SystemMiscMem.miscFunc, imm := SystemMiscMem.fenceiImm }) :=
    .inl ⟨isFullSize_iType rd rs1 funct3 (by decide) imm, rfl⟩
  refine Implements.implemented ?_ rfl hconverts
  intro size s hs
  exact follows_misc size hs rfl

theorem implemented_ecall : Implemented .ecall := by
  refine Implements.implemented (d := .systemMiscMem ⟨0, 0, SystemMiscMem.ecallImm,
    SystemMiscMem.miscFunc⟩) ?_ rfl (.inr (.inl ⟨by decide, rfl, rfl⟩))
  intro size s hs
  exact follows_misc size hs rfl

theorem implemented_ebreak : Implemented .ebreak := by
  refine Implements.implemented ?_ rfl ebreak_converts
  intro size s hs
  exact follows_misc size hs rfl

theorem implemented_wfi : Implemented .wfi := by
  refine Implements.implemented (d := .systemMiscMem ⟨0, 0, SystemMiscMem.wfiImm,
    SystemMiscMem.miscFunc⟩) ?_ rfl (.inr (.inl ⟨by decide, rfl, rfl⟩))
  intro size s hs
  exact follows_misc size hs rfl

theorem implemented_mret : Implemented .mret := by
  refine Implements.implemented (d := .systemMiscMem ⟨0, 0, SystemMiscMem.mretImm,
    SystemMiscMem.miscFunc⟩) ?_ rfl (.inr (.inl ⟨by decide, rfl, rfl⟩))
  intro size s hs
  have hhart : ({ s with
      programCounter := s.registers.controlStatus.mepc
      registers.controlStatus := s.registers.controlStatus.trapReturn.1 } :
      Interpreter SliceMemory).hart = { s.hart with
        csrs := Function.update s.hart.csrs mstatusAddr (statusReturned (s.hart.csrs mstatusAddr))
        pc := s.hart.csrs mepcAddr } :=
    congrArg (fun csrs => { s.hart with csrs, pc := s.registers.controlStatus.mepc })
      (CSRegisters.values_trapReturn hs.masked)
  have hexecute : Instr.execute .mret size.toU32 s.hart = .ok (.running, _) := rfl
  rw [hexecute, ← hhart]
  exact follows_ok rfl ⟨hs.masked.mepc, hs.zero, hs.masked.trapReturn⟩

/-- Every instruction has a conversion that does what the machine does. -/
theorem implemented (inst : Instr) : Implemented inst := by
  cases inst with
  | integer inst => exact implemented_integer inst
  | multiply op rd rs1 rs2 => exact implemented_multiply op rd rs1 rs2
  | control inst => exact implemented_control inst
  | access inst =>
    cases inst with
    | load op rd rs1 imm => exact implemented_load op rd rs1 imm
    | store op rs2 rs1 imm => exact implemented_store op rs2 rs1 imm
    | amo op aq rl rd rs2 rs1 => exact implemented_amo op aq rl rd rs2 rs1
  | loadReserved aq rl rd rs1 => exact implemented_loadReserved aq rl rd rs1
  | storeConditional aq rl rd rs2 rs1 => exact implemented_storeConditional aq rl rd rs2 rs1
  | csr op rd rs1 number => exact implemented_csr op rd rs1 number
  | fence funct3 rd rs1 imm => exact implemented_fence funct3 rd rs1 imm
  | ecall => exact implemented_ecall
  | ebreak => exact implemented_ebreak
  | wfi => exact implemented_wfi
  | mret => exact implemented_mret

end Environment

end Transpiler

end Embive
