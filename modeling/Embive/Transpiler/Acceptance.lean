import Embive.Errors
import Embive.Transpiler.RoundTrip

/-! # Which accepted words are refused when they are executed

Every function that a converter gives to an instruction is one its executor knows.
The immediates of the system instructions without a function are the exception:
the converter lets those it does not know through.
-/

namespace Embive

open EStateM Interpreter

/-- The error of an instruction that is not known. -/
def Error.IsInvalidInstruction : Error → Prop
  | .invalidInstruction _ => True
  | _ => False

/-- The memory's own errors are about addresses and lengths of accesses. -/
structure Memory.AccessErrors (M : Type) [Memory M] : Prop where
  loadBytes : ∀ address len,
    Raises (fun e => ¬e.IsInvalidInstruction) (Memory.loadBytes address len : EStateM Error M _)
  storeBytes : ∀ address data,
    Raises (fun e => ¬e.IsInvalidInstruction) (Memory.storeBytes address data : EStateM Error M _)

theorem checkedSliceRange_error [Target] {slice : List U8} {start len : ℕ} {e : Error}
    (h : checkedSliceRange slice start len = .error e) : ¬e.IsInvalidInstruction := by
  rcases checkedSliceRange_eq_error h with rfl | ⟨rfl, -⟩ <;> exact id

theorem SliceMemory.accessErrors [Target] : Memory.AccessErrors SliceMemory where
  loadBytes address len := by
    apply raises_reads
    intro memory e h
    obtain ⟨slice, start, -, hrange⟩ := SliceMemory.loadBytes_eq_error h
    exact checkedSliceRange_error hrange
  storeBytes address data := by
    apply raises_updates
    intro memory e h
    obtain ⟨slice, start, -, hrange⟩ := SliceMemory.storeBytes_eq_error h
    exact checkedSliceRange_error hrange

section Effects

/-- The effect is no refusal of an unknown instruction. -/
def Effect.Known : Effect → Prop
  | .refuse error | .loadThenRefuse _ error => ¬error.IsInvalidInstruction
  | _ => True

variable {M : Type} [Memory M]

theorem Memory.AccessErrors.accessesRaise (hM : Memory.AccessErrors M) :
    Memory.AccessesRaise M (fun e => ¬e.IsInvalidInstruction) (fun _ => True) where
  load {w} _ address := by
    apply raises_onPart
    apply (hM.loadBytes address (w / 8)).bind
    intro bytes
    by_cases h : bytes.length = w / 8
    · rw [if_pos h]
      exact raises_pure _
    · rw [if_neg h]
      exact raises_throw id
  store _ value address := raises_onPart (hM.storeBytes address _)

/-- A known effect is not refused as an unknown instruction. -/
theorem Effect.Known.raisesOnly {effect : Effect} (h : effect.Known) :
    effect.RaisesOnly (fun e => ¬e.IsInvalidInstruction) (fun _ => True) := by
  cases effect with
  | refuse error => exact h
  | loadThenRefuse address error => exact ⟨trivial, h⟩
  | controlStatus op addr => exact id
  | _ => trivial

end Effects

section Actions

variable (size : U32) (regs : Registers) (pc : U32)

theorem Branch.action_known {data : TypeB}
    (h : ∀ rs1 rs2, (Branch.taken data.func rs1 rs2).isSome) :
    (Branch.action size regs pc data).effect.Known := by
  obtain ⟨branch, hbranch⟩ := Option.isSome_iff_exists.mp
    (h (regs.value data.rs1) (regs.value data.rs2))
  rw [Branch.action, hbranch]
  trivial

theorem OpImm.action_known {data : TypeI}
    (h : ∀ rs1 imm, (OpImm.compute data.func rs1 imm).isSome) :
    (OpImm.action size regs pc data).effect.Known := by
  obtain ⟨result, hresult⟩ := Option.isSome_iff_exists.mp (h (regs.value data.rs1) data.imm)
  rw [OpImm.action, hresult]
  split <;> trivial

/-- The functions that a register or atomic operation knows. -/
def OpAmo.KnowsFunc (func : U16) : Prop :=
  (∀ rs1 rs2, (OpAmo.compute func rs1 rs2).isSome) ∨ func = lrFunc ∨ func = scFunc ∨
    ∀ rs2, (OpAmo.combine func rs2).isSome

theorem OpAmo.effect_known {data : TypeR} (h : OpAmo.KnowsFunc data.func) :
    (OpAmo.effect regs pc data).Known := by
  simp only [OpAmo.effect]
  rcases h with hcompute | hlr | hsc | hcombine
  · obtain ⟨result, hresult⟩ := Option.isSome_iff_exists.mp
      (hcompute (regs.value data.rs1) (regs.value data.rs2))
    rw [hresult]
    trivial
  · split
    · trivial
    · rw [if_pos hlr]
      trivial
  · split
    · trivial
    · split_ifs <;> trivial
  · obtain ⟨stored, hstored⟩ := Option.isSome_iff_exists.mp (hcombine (regs.value data.rs2))
    rw [hstored]
    split
    · trivial
    · split_ifs <;> trivial

end Actions

namespace Transpiler

open Riscv

section Tables

theorem isSome_of_eq_ite {α : Type} {c : Prop} [Decidable c] {x y : α} {o : Option α}
    (h : o = if c then some x else some y) : o.isSome := by
  rw [h]
  split <;> rfl

theorem Branch.embiveFunc_known (func : U8) : ∀ f, Branch.embiveFunc func = some f →
    ∀ rs1 rs2, (Embive.Branch.taken f rs1 rs2).isSome := by
  unfold Branch.embiveFunc
  repeat refine forall_entry (fun _ _ _ => rfl) ?_
  intro f hf
  cases hf

theorem OpImm.embiveFunc_known (func : U8) : ∀ f, OpImm.embiveFunc func = some f →
    ∀ rs1 imm, (Embive.OpImm.compute f rs1 imm).isSome := by
  unfold OpImm.embiveFunc
  iterate 5 refine forall_entry (fun _ _ _ => rfl) ?_
  refine forall_entry (fun _ _ imm => isSome_of_eq_ite (c := (imm &&& (0b1 <<< 10)) ≠ 0) rfl) ?_
  iterate 2 refine forall_entry (fun _ _ _ => rfl) ?_
  intro f hf
  cases hf

theorem Op.embiveFunc_known (func : U16) : ∀ f, Op.embiveFunc func = some f →
    OpAmo.KnowsFunc f := by
  unfold Op.embiveFunc
  iterate 14 refine forall_entry (fun _ => .inl (fun _ _ => rfl)) ?_
  iterate 4
    refine forall_entry (fun _ => .inl (fun _ rs2 => isSome_of_eq_ite (c := rs2 = 0) rfl)) ?_
  intro f hf
  cases hf

theorem Amo.embiveFunc_known (funct5 : U8) : ∀ f, Amo.embiveFunc funct5 = some f →
    OpAmo.KnowsFunc f := by
  unfold Amo.embiveFunc
  refine forall_entry (fun _ => .inr (.inl rfl)) ?_
  refine forall_entry (fun _ => .inr (.inr (.inl rfl))) ?_
  iterate 9 refine forall_entry (fun _ => .inr (.inr (.inr (fun _ => rfl)))) ?_
  intro f hf
  cases hf

end Tables

/-- A system word without a function whose immediate has a meaning neither in RISC-V, as
far as the converter knows it, nor in the Embive table. -/
def Riscv.System.Unassigned (w : U32) : Prop :=
  let inst : TypeI := Format.fromRiscv w
  IsFullSize w System.opcode ∧ inst.func = SystemMiscMem.miscFunc ∧
    inst.imm ∉ [System.ecallImm, System.ebreakImm, System.wfiImm, System.mretImm,
      SystemMiscMem.fenceiImm, SystemMiscMem.wfiImm, SystemMiscMem.mretImm]

instance (w : U32) : Decidable (System.Unassigned w) := inferInstanceAs (Decidable (_ ∧ _ ∧ _))

/-- The immediates of the Embive system instructions without a function. -/
def assignedImms : List I32 :=
  [SystemMiscMem.ecallImm, SystemMiscMem.ebreakImm, SystemMiscMem.fenceiImm,
    SystemMiscMem.wfiImm, SystemMiscMem.mretImm]

theorem System.embiveImm_mem_iff (imm : I32) : System.embiveImm imm ∈ assignedImms ↔
    imm ∈ [System.ecallImm, System.ebreakImm, System.wfiImm, System.mretImm,
      SystemMiscMem.fenceiImm, SystemMiscMem.wfiImm, SystemMiscMem.mretImm] := by
  unfold System.embiveImm
  split_ifs with hecall hebreak hwfi hmret
  · rw [hecall]
    decide
  · rw [hebreak]
    decide
  · rw [hwfi]
    decide
  · rw [hmret]
    decide
  · have hecall' : imm ≠ SystemMiscMem.ecallImm := hecall
    have hebreak' : imm ≠ SystemMiscMem.ebreakImm := hebreak
    simp only [assignedImms, List.mem_cons, List.not_mem_nil, or_false, hecall, hebreak, hwfi,
      hmret, hecall', hebreak', false_or]

section Execution

variable (size : U32) (regs : Registers) (pc : U32)

theorem System.action_known {data : TypeI} (hfunc : data.func = SystemMiscMem.miscFunc)
    (himm : data.imm ∈ assignedImms) :
    (SystemMiscMem.action size regs pc data).effect.Known := by
  rw [SystemMiscMem.action, if_pos hfunc]
  simp only [assignedImms, List.mem_cons, List.not_mem_nil, or_false] at himm
  rcases himm with h | h | h | h | h <;> rw [h] <;> trivial

theorem System.action_refuse {data : TypeI} (hfunc : data.func = SystemMiscMem.miscFunc)
    (himm : data.imm ∉ assignedImms) :
    SystemMiscMem.action size regs pc data = .refuse (.invalidInstruction pc) := by
  simp only [assignedImms, List.mem_cons, List.not_mem_nil, or_false, not_or] at himm
  obtain ⟨hecall, hebreak, hfencei, hwfi, hmret⟩ := himm
  rw [SystemMiscMem.action, if_pos hfunc, if_neg hecall, if_neg hebreak, if_neg hfencei,
    if_neg hwfi, if_neg hmret]

theorem Load.action_known (func : U8) (data : TypeI) : ∀ f, Load.embiveFunc func = some f →
    (LoadStore.action size regs pc { data with func := f }).effect.Known := by
  unfold Load.embiveFunc
  repeat refine forall_entry (fun _ => trivial) ?_
  intro f hf
  cases hf

theorem Store.action_known (func : U8) (data : TypeI) : ∀ f, Store.embiveFunc func = some f →
    (LoadStore.action size regs pc { data with func := f }).effect.Known := by
  unfold Store.embiveFunc
  repeat refine forall_entry (fun _ => trivial) ?_
  intro f hf
  cases hf

theorem System.csr_action_known (func : U8) (data : TypeI) :
    ∀ f, System.embiveFunc func = some f →
      (SystemMiscMem.action size regs pc { data with func := f }).effect.Known := by
  unfold System.embiveFunc
  repeat refine forall_entry (fun _ => trivial) ?_
  intro f hf
  cases hf

/-- What a word is converted to is known to its executor, but for the unassigned system
words. -/
theorem ConvertsTo.action_known {w : U32} {inst : Decoded} (h : ConvertsTo w inst)
    (hw : ¬System.Unassigned w) : (inst.action size regs pc).effect.Known := by
  cases inst
  case cAddi4spn data =>
    simp only [Decoded.action]
    split
    · exact id
    · trivial
  case cJrMv data =>
    simp only [Decoded.action, CJrMv.action]
    split <;> trivial
  case cEbreakJalrAdd data =>
    simp only [Decoded.action, CEbreakJalrAdd.action]
    split_ifs <;> trivial
  case branch data =>
    obtain ⟨-, func, hfunc, rfl⟩ := h
    exact Branch.action_known size regs pc (Branch.embiveFunc_known _ _ hfunc)
  case opImm data =>
    obtain ⟨-, func, hfunc, rfl⟩ := h
    exact OpImm.action_known size regs pc (OpImm.embiveFunc_known _ _ hfunc)
  case loadStore data =>
    rcases h with ⟨-, func, hfunc, rfl⟩ | ⟨-, func, hfunc, rfl⟩
    · exact Load.action_known size regs pc _ _ _ hfunc
    · exact Store.action_known size regs pc _
        ⟨(Format.fromRiscv w : TypeS).rs2, (Format.fromRiscv w : TypeS).rs1,
          (Format.fromRiscv w : TypeS).imm, 0⟩ _ hfunc
  case opAmo data =>
    rcases h with ⟨-, func, hfunc, rfl⟩ | ⟨-, -, func, hfunc, rfl⟩
    · exact OpAmo.effect_known regs pc (Op.embiveFunc_known _ _ hfunc)
    · exact OpAmo.effect_known regs pc (Amo.embiveFunc_known _ _ hfunc)
  case systemMiscMem data =>
    rcases h with ⟨-, rfl⟩ | ⟨hsystem, hmisc, rfl⟩ | ⟨-, -, func, hfunc, rfl⟩
    · trivial
    · have himm : System.embiveImm (Format.fromRiscv w : TypeI).imm ∈ assignedImms := by
        rw [System.embiveImm_mem_iff]
        by_contra himm
        exact hw ⟨hsystem, hmisc, himm⟩
      exact System.action_known size regs pc hmisc himm
    · exact System.csr_action_known size regs pc _ _ _ hfunc
  all_goals trivial

end Execution

section Acceptance

variable [ElfCrate] {M : Type} [Memory M]

/-- An accepted word is executed without being refused as an unknown instruction, in any
state, unless it is an unassigned system word. -/
theorem convert_known_iff (hM : Memory.AccessErrors M) {w : U32} {r : RawInstruction}
    (h : convert w = .ok r) (s : Interpreter M) :
    (∀ e t, decodeExecute r.data s = .error e t → ¬e.IsInvalidInstruction) ↔
      ¬System.Unassigned w := by
  obtain ⟨inst, rfl, hinst, hdec⟩ := convert_decodes h
  rw [decodeExecute_eq_sized hdec, decodeExecuteSized_eq_perform inst.size.toU32 s hdec]
  constructor
  · rintro hknown ⟨hsystem, hmisc, himm⟩
    rw [← System.embiveImm_mem_iff] at himm
    obtain ⟨data, hdata, hfunc, hdataImm⟩ : ∃ data, ConvertsTo w (.systemMiscMem data) ∧
        data.func = SystemMiscMem.miscFunc ∧ data.imm ∉ assignedImms :=
      ⟨_, .inr (.inl ⟨hsystem, hmisc, rfl⟩), hmisc, himm⟩
    cases hinst.unique hdata
    refine hknown (.invalidInstruction s.programCounter) s ?_ trivial
    simp only [Decoded.action, System.action_refuse _ s.registers s.programCounter hfunc hdataImm,
      perform_refuse]
  · intro hw
    have hknown := hinst.action_known inst.size.toU32 s.registers s.programCounter hw
    exact Action.raises hM.accessesRaise hknown.raisesOnly s

end Acceptance

/-- The environment call is accepted and executed. -/
theorem convert_known_iff_ecall :
    letI := Target.release64
    letI := ElfCrate.parsesNothing
    convert 0x00000073 = .ok ⟨0x0000001F, .word⟩ ∧
      ∀ e t, decodeExecute 0x0000001F (new ⟨[], []⟩ 0 : Interpreter SliceMemory) = .error e t →
        ¬e.IsInvalidInstruction := by
  let _ := Target.release64
  let _ := ElfCrate.parsesNothing
  have hconvert : convert 0x00000073 = .ok ⟨0x0000001F, .word⟩ := rfl
  exact ⟨hconvert, (convert_known_iff SliceMemory.accessErrors hconvert _).mpr (by decide)⟩

/-- The supervisor's trap return is accepted, and refused when it is executed. -/
theorem convert_accepts_unknown :
    letI := Target.release64
    letI := ElfCrate.parsesNothing
    ¬∀ w r, convert w = .ok r → ∀ (s : Interpreter SliceMemory) e t,
      decodeExecute r.data s = .error e t → ¬e.IsInvalidInstruction := by
  let _ := Target.release64
  let _ := ElfCrate.parsesNothing
  intro h
  exact h 0x10200073 ⟨0x1020001F, .word⟩ rfl (new ⟨[], []⟩ 0) (.invalidInstruction 0) _ rfl trivial

end Transpiler

end Embive
