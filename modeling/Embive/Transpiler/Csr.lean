import Embive.ControlStatus
import Embive.Transpiler.Conformance

/-! # Control and status instructions conform to Zicsr

The conversion of a control and status instruction reads the register at its address
into the destination and updates the address map there, through the register's mask.
-/

namespace Embive.Transpiler

open Rv32

section Tables

/-- The operation on the registers, none where nothing is written. -/
def csrOperation (op : CsrOp) (rs1 : BitVec 5) (operand : U32) : Option CSOperation :=
  match op with
  | .csrrw | .csrrwi => some (.write operand)
  | .csrrs | .csrrsi => if rs1 ≠ 0 then some (.set operand) else none
  | .csrrc | .csrrci => if rs1 ≠ 0 then some (.clear operand) else none

theorem csrOperation_of_writes {op : CsrOp} {rs1 : BitVec 5} (h : op.Writes rs1)
    (old operand : U32) :
    executeOperation (csrOperation op rs1 operand) old = op.result old operand := by
  cases op with
  | csrrw | csrrwi => rfl
  | csrrs | csrrc | csrrsi | csrrci =>
    have hrs1 : rs1 ≠ 0 := h
    rw [csrOperation, if_pos hrs1]
    rfl

theorem csrOperation_of_not_writes {op : CsrOp} {rs1 : BitVec 5} (h : ¬op.Writes rs1)
    (operand : U32) : csrOperation op rs1 operand = none := by
  cases op with
  | csrrw | csrrwi => exact absurd trivial h
  | csrrs | csrrc | csrrsi | csrrci =>
    have hrs1 : ¬rs1 ≠ 0 := h
    rw [csrOperation, if_neg hrs1]

/-- The instruction is renumbered to a function that reads its operand and performs its
operation. -/
theorem csrOp_operates (op : CsrOp) :
    ∃ func, Riscv.System.embiveFunc (op.funct3.setWidth 8) = some func ∧
      func ≠ SystemMiscMem.miscFunc ∧ ∀ (regs : Registers) pc rd rs1 imm,
        SystemMiscMem.op regs pc ⟨rd, rs1.setWidth 8, imm, func⟩ =
          .ok (csrOperation op rs1 (op.operand (regs.value (rs1.setWidth 8)) rs1)) := by
  have hzero : ∀ rs1 : BitVec 5, rs1.setWidth 8 ≠ (0 : U8) ↔ rs1 ≠ 0 := by decide
  have hwidth : ∀ rs1 : BitVec 5, (rs1.setWidth 8).setWidth 32 = (rs1.setWidth 32 : U32) := by
    decide
  cases op with
  | csrrw => exact ⟨_, rfl, by decide, fun _ _ _ _ _ => rfl⟩
  | csrrs =>
    refine ⟨SystemMiscMem.csrrsFunc, rfl, by decide, ?_⟩
    intro regs pc rd rs1 imm
    simp only [csrOperation, CsrOp.operand, ← hzero]
    rfl
  | csrrc =>
    refine ⟨SystemMiscMem.csrrcFunc, rfl, by decide, ?_⟩
    intro regs pc rd rs1 imm
    simp only [csrOperation, CsrOp.operand, ← hzero]
    rfl
  | csrrwi =>
    refine ⟨SystemMiscMem.csrrwiFunc, rfl, by decide, ?_⟩
    intro regs pc rd rs1 imm
    simp only [csrOperation, CsrOp.operand, ← hwidth]
    rfl
  | csrrsi =>
    refine ⟨SystemMiscMem.csrrsiFunc, rfl, by decide, ?_⟩
    intro regs pc rd rs1 imm
    simp only [csrOperation, CsrOp.operand, ← hzero, ← hwidth]
    rfl
  | csrrci =>
    refine ⟨SystemMiscMem.csrrciFunc, rfl, by decide, ?_⟩
    intro regs pc rd rs1 imm
    simp only [csrOperation, CsrOp.operand, ← hzero, ← hwidth]
    rfl

end Tables

section Instructions

theorem csr_converts (rd rs1 : BitVec 5) (funct3 : BitVec 3) (csr : BitVec 12) {func : U8}
    (hmisc : funct3.setWidth 8 ≠ SystemMiscMem.miscFunc)
    (h : Riscv.System.embiveFunc (funct3.setWidth 8) = some func) :
    ConvertsTo (iType csr rs1 funct3 rd 0b1110011)
      (.systemMiscMem ⟨rd.setWidth 8, rs1.setWidth 8, csr.signExtend 32, func⟩) := by
  refine .inr (.inr ⟨isFullSize_iType rd rs1 funct3 (by decide) csr, ?_, func, ?_, ?_⟩)
  · rw [fromRiscv_iType]
    exact hmisc
  · rw [fromRiscv_iType]
    exact h
  · rw [fromRiscv_iType]

/-- The address is the immediate without its sign. -/
theorem csr_address (csr : BitVec 12) :
    (csr.signExtend 32 &&& 0b1111_1111_1111).setWidth 16 = (csr.setWidth 16 : U16) := by
  revert csr
  exact Lib.OrLinear.eq_of_oneBit (by fun_prop) (by fun_prop) (by decide)

variable {M : Type} [Memory M]

/-- Every control and status instruction is accepted. At a supported address its conversion
writes what a read returned to the destination and updates the address map at this address
with the register's mask, or changes no register where it is no write; at any other address
it fails and changes nothing. -/
theorem csr_conforms [ElfCrate] (op : CsrOp) (rd rs1 : BitVec 5) (csr : BitVec 12) :
    ∃ r, convert (op.encode rd rs1 csr) = .ok r ∧ r.size = .word ∧
      ∀ s : Interpreter M, s.registers.controlStatus.Masked →
        let addr : U16 := csr.setWidth 16
        (csrField addr = none → decodeExecute r.data s = .error (.invalidCSRegister addr) s) ∧
        ∀ field, csrField addr = some field →
          ∃ old cs, s.registers.controlStatus.view addr = some old ∧ field.after old = old ∧
            decodeExecute r.data s = .ok .running
              ({ s with registers.controlStatus := cs }.advance rd old (s.programCounter + 4)) ∧
            cs.Masked ∧
            (¬op.Writes rs1 → cs = s.registers.controlStatus) ∧
            (op.Writes rs1 → cs.view = Function.update s.registers.controlStatus.view addr
              (some (field.after
                (op.result old (op.operand (s.registers.value (rs1.setWidth 8)) rs1))))) := by
  obtain ⟨func, hfunc, hmisc, hop⟩ := csrOp_operates op
  have hmisc' : op.funct3.setWidth 8 ≠ SystemMiscMem.miscFunc := by
    cases op <;> decide
  obtain ⟨hconvert, hsize, hexecute⟩ := (csr_converts rd rs1 _ csr hmisc' hfunc).executes M rfl
  refine ⟨_, hconvert, hsize, ?_⟩
  intro s hmasked addr
  have haction : (Decoded.systemMiscMem ⟨rd.setWidth 8, rs1.setWidth 8, csr.signExtend 32,
      func⟩).action 4 s.registers s.programCounter = ⟨.controlStatus (csrOperation op rs1
        (op.operand (s.registers.value (rs1.setWidth 8)) rs1)) addr, unlessZero (rd.setWidth 8),
        s.programCounter + 4, .running⟩ := by
    rw [Decoded.action, SystemMiscMem.action, if_neg hmisc, hop, csr_address]
  rw [hexecute, haction]
  constructor
  · intro hfield
    simp only [Action.perform, Effect.perform, Interpreter.onControlStatus,
      EStateM.bind_apply, operation_unsupported _ hfield]
  · intro field hfield
    obtain ⟨old, cs, hview, hafter, hoperation, hmasked', hupdate, hnone⟩ :=
      operation_updates hmasked hfield (csrOperation op rs1
        (op.operand (s.registers.value (rs1.setWidth 8)) rs1))
    refine ⟨old, cs, hview, hafter, ?_, hmasked', ?_, ?_⟩
    · simp only [Action.perform, Effect.perform, Interpreter.onControlStatus,
        EStateM.bind_apply, hoperation, ← retire_eq]
      rfl
    · intro hwrites
      exact hnone (csrOperation_of_not_writes hwrites _)
    · intro hwrites
      rw [hupdate, csrOperation_of_writes hwrites]

end Instructions

/-- The word of `csrrwi x1, mscratch, 5`. -/
theorem csr_conforms_mscratch : letI := Target.release64
    letI := ElfCrate.parsesNothing
    let s : Interpreter SliceMemory := .new ⟨[], []⟩ 0
    ∃ r cs, convert 0x3402D0F3 = .ok r ∧
      decodeExecute r.data s =
        .ok .running ({ s with registers.controlStatus := cs }.advance 1 0 4) ∧
      cs.view = Function.update s.registers.controlStatus.view mscratchAddr (some 5) := by
  let _ := Target.release64
  let _ := ElfCrate.parsesNothing
  let s : Interpreter SliceMemory := .new ⟨[], []⟩ 0
  obtain ⟨r, hconvert, -, hexecute⟩ := csr_conforms (M := SliceMemory) .csrrwi 1 5 0x340
  obtain ⟨-, hsupported⟩ := hexecute s CSRegisters.masked_default
  obtain ⟨old, cs, hview, -, hexecute, -, -, hupdate⟩ := hsupported _ rfl
  obtain rfl : 0 = old := Option.some.inj hview
  have haddr : (0x340 : BitVec 12).setWidth 16 = mscratchAddr := by decide
  have hafter : (CsrField.writable 0xFFFFFFFF).after
      (CsrOp.csrrwi.result 0 (CsrOp.csrrwi.operand 0 5)) = 5 := by decide
  have hview' := hupdate trivial
  rw [haddr] at hview'
  exact ⟨r, cs, hconvert, hexecute, hview'.trans (by rw [← hafter]; rfl)⟩

end Embive.Transpiler
