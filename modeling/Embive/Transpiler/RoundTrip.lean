import Embive.FormatLaws
import Embive.Transpiler.Selection

/-! # Converted words decode to the instruction that was selected

A word that the converter accepts is read as one instruction of the table. The
Embive word decodes to that instruction, and so does every word that agrees with it
on the instruction's own bytes.
-/

namespace Embive

/-- Writing the instruction and reading it back gives the instruction. -/
def Format.Fits {F : Type} [Format F] (x : F) : Prop := Format.fromEmbive (Format.toEmbive x) = x

namespace Decoded

/-- The instruction's fields fit its Embive format. -/
def Fits : Decoded → Prop
  | .cAddi4spn data => Format.Fits data
  | .cLw data | .cSw data => Format.Fits data
  | .cAddi data | .cLi data => Format.Fits data
  | .cJal data | .cJ data => Format.Fits data
  | .cAddi16sp data => Format.Fits data
  | .cLui data => Format.Fits data
  | .cSrli data | .cSrai data => Format.Fits data
  | .cAndi data => Format.Fits data
  | .cSub data | .cXor data | .cOr data | .cAnd data => Format.Fits data
  | .cBeqz data | .cBnez data => Format.Fits data
  | .cSlli data => Format.Fits data
  | .cLwsp data => Format.Fits data
  | .cJrMv data | .cEbreakJalrAdd data => Format.Fits data
  | .cSwsp data => Format.Fits data
  | .auipc data | .lui data => Format.Fits data
  | .branch data => Format.Fits data
  | .jal data => Format.Fits data
  | .jalr data | .loadStore data | .opImm data | .systemMiscMem data => Format.Fits data
  | .opAmo data => Format.Fits data

theorem encode_opcodeClear (inst : Decoded) : OpcodeClear inst.encode := by
  cases inst <;> exact LawfulFormat.toEmbive_opcode _

theorem opcode_mask (inst : Decoded) :
    inst.opcode.setWidth 32 &&& 0x1F = inst.opcode.setWidth 32 := by
  cases inst <;> (rw [opcode]; decide)

end Decoded

/-- The bits of a word that the bytes of an instruction of this size fill. -/
def Size.mask : Size → U32
  | .half => 0x0000FFFF
  | .word => 0xFFFFFFFF

theorem Size.payload_mask (size : Size) : size.payload &&& size.mask = size.payload := by
  cases size <;> rfl

theorem Size.opcode_mask (size : Size) : 0x1F &&& size.mask = 0x1F := by
  cases size <;> rfl

theorem and_eq_of_and_eq {x y c m : U32} (hc : c &&& m = c) (h : x &&& m = y &&& m) :
    x &&& c = y &&& c := by
  rw [← hc, BitVec.and_comm c, ← BitVec.and_assoc, h, BitVec.and_assoc]

theorem Size.payload_opcode (size : Size) : 0x1F &&& size.payload = 0 := by
  cases size <;> rfl

/-- An opcode does not change what a format reads. -/
theorem fromEmbive_or_opcode {F : Type} [Format F] [LawfulFormat F] (x : U32) {opcode : U32}
    (h : opcode &&& 0x1F = opcode) :
    (Format.fromEmbive (x ||| opcode) : F) = Format.fromEmbive x := by
  have hpayload : opcode &&& (Format.size F).payload = 0 := by
    rw [← h, BitVec.and_assoc, Size.payload_opcode]
    exact BitVec.and_zero
  have hor := (Lib.OrLinear.id.mask (Format.size F).payload).or x opcode
  rw [← LawfulFormat.fromEmbive_payload, hor, hpayload]
  exact (congrArg _ BitVec.or_zero).trans (LawfulFormat.fromEmbive_payload x)

theorem fromEmbive_of_mask {F : Type} [Format F] [LawfulFormat F] {x y : U32}
    (h : x &&& (Format.size F).mask = y &&& (Format.size F).mask) :
    (Format.fromEmbive x : F) = Format.fromEmbive y := by
  have hpayload := and_eq_of_and_eq (Format.size F).payload_mask h
  rw [← LawfulFormat.fromEmbive_payload x, hpayload, LawfulFormat.fromEmbive_payload]

/-- Decoding looks at the instruction's own bytes only. -/
theorem decodeInstruction_of_mask {x y : U32} {inst : Decoded}
    (hx : decodeInstruction x = some inst) (h : y &&& inst.size.mask = x &&& inst.size.mask) :
    decodeInstruction y = some inst := by
  have hopcode : y &&& 0x1F = x &&& 0x1F := and_eq_of_and_eq inst.size.opcode_mask h
  unfold decodeInstruction at hx ⊢
  rw [hopcode]
  split at hx <;> cases hx <;> exact congrArg some (congrArg _ (fromEmbive_of_mask h))

namespace Transpiler

theorem embiveRaw_opcode (inst : Decoded) :
    (embiveRaw inst).data &&& 0x1F = inst.opcode.setWidth 32 := by
  have hor := (Lib.OrLinear.id.mask (0x1F : U32)).or inst.encode (inst.opcode.setWidth 32)
  rw [embiveRaw, hor, inst.opcode_mask, inst.encode_opcodeClear]
  exact BitVec.zero_or

/-- An instruction that fits its format is decoded from its Embive word. -/
theorem decodeInstruction_embiveRaw {inst : Decoded} (h : inst.Fits) :
    decodeInstruction (embiveRaw inst).data = some inst := by
  have hopcode := embiveRaw_opcode inst
  have hmask := inst.opcode_mask
  unfold decodeInstruction
  rw [hopcode]
  cases inst <;> exact congrArg some (congrArg _ ((fromEmbive_or_opcode _ hmask).trans h))

open Riscv

section Fits

theorem Load.embiveFunc_lt (func : U8) :
    ∀ f, Load.embiveFunc func = some f → f.toNat < 8 := by
  unfold Load.embiveFunc
  repeat refine forall_entry (fun _ => by decide) ?_
  intro f hf
  cases hf

theorem Store.embiveFunc_lt (func : U8) :
    ∀ f, Store.embiveFunc func = some f → f.toNat < 8 := by
  unfold Store.embiveFunc
  repeat refine forall_entry (fun _ => by decide) ?_
  intro f hf
  cases hf

theorem OpImm.embiveFunc_lt (func : U8) :
    ∀ f, OpImm.embiveFunc func = some f → f.toNat < 8 := by
  unfold OpImm.embiveFunc
  repeat refine forall_entry (fun _ => by decide) ?_
  intro f hf
  cases hf

theorem Branch.embiveFunc_lt (func : U8) :
    ∀ f, Branch.embiveFunc func = some f → f.toNat < 8 := by
  unfold Branch.embiveFunc
  repeat refine forall_entry (fun _ => by decide) ?_
  intro f hf
  cases hf

theorem System.embiveFunc_lt (func : U8) :
    ∀ f, System.embiveFunc func = some f → f.toNat < 8 := by
  unfold System.embiveFunc
  repeat refine forall_entry (fun _ => by decide) ?_
  intro f hf
  cases hf

theorem Op.embiveFunc_lt (func : U16) :
    ∀ f, Op.embiveFunc func = some f → f.toNat < 1024 := by
  unfold Op.embiveFunc
  repeat refine forall_entry (fun _ => by decide) ?_
  intro f hf
  cases hf

theorem Amo.embiveFunc_lt (funct5 : U8) :
    ∀ f, Amo.embiveFunc funct5 = some f → f.toNat < 1024 := by
  unfold Amo.embiveFunc
  repeat refine forall_entry (fun _ => by decide) ?_
  intro f hf
  cases hf

theorem setWidth_setWidth_of_lt {m n : ℕ} {x : BitVec n} (h : x.toNat < 2 ^ m) :
    (x.setWidth m).setWidth n = x := by
  apply BitVec.eq_of_toNat_eq
  rw [BitVec.toNat_setWidth, BitVec.toNat_setWidth, Nat.mod_eq_of_lt h, Nat.mod_eq_of_lt x.isLt]

theorem TypeI.fits_of_lt (w : U32) {func : U8} (h : func.toNat < 8) :
    Format.Fits { (Format.fromRiscv w : TypeI) with func } := by
  have hfits := TypeI.fits_func w (func.setWidth 3)
  simp only [setWidth_setWidth_of_lt (show func.toNat < 2 ^ 3 from h)] at hfits
  exact hfits

theorem TypeB.fits_of_lt (w : U32) {func : U8} (h : func.toNat < 8) :
    Format.Fits { (Format.fromRiscv w : TypeB) with func } := by
  have hfits := TypeB.fits_func w (func.setWidth 3)
  simp only [setWidth_setWidth_of_lt (show func.toNat < 2 ^ 3 from h)] at hfits
  exact hfits

theorem TypeR.fits_of_lt (w : U32) {func : U16} (h : func.toNat < 1024) :
    Format.Fits { (Format.fromRiscv w : TypeR) with func } := by
  have hfits := TypeR.fits_func w (func.setWidth 10)
  simp only [setWidth_setWidth_of_lt (show func.toNat < 2 ^ 10 from h)] at hfits
  exact hfits

theorem System.fits_embiveImm {w : U32}
    (h : (Format.fromRiscv w : TypeI).func = SystemMiscMem.miscFunc) :
    Format.Fits { (Format.fromRiscv w : TypeI) with
      imm := System.embiveImm (Format.fromRiscv w : TypeI).imm } := by
  have hfields (fields : BitVec 12) : Format.Fits { (Format.fromRiscv w : TypeI) with
      imm := fields.signExtend 32 } := by
    have himm : (fields ++ 0#3).extractLsb' 3 12 = fields := by
      rw [BitVec.extractLsb'_append_eq_of_le le_rfl]
      simp
    have hfunc : (fields ++ 0#3).extractLsb' 0 3 = 0#3 := by
      rw [BitVec.extractLsb'_append_eq_of_add_le (by decide)]
      simp
    have hfits := TypeI.fits_imm w (fields ++ 0#3)
    rw [himm, hfunc] at hfits
    generalize (Format.fromRiscv w : TypeI) = inst at h hfits ⊢
    obtain ⟨rdRs2, rs1, imm, func⟩ := inst
    cases h
    exact hfits
  unfold System.embiveImm
  split_ifs
  · exact hfields 0
  · exact hfields 1
  · exact hfields 3
  · exact hfields 4
  · exact LawfulFormat.fits_fromRiscv w

/-- What a word is converted to fits its Embive format. -/
theorem ConvertsTo.fits {w : U32} {inst : Decoded} (h : ConvertsTo w inst) : inst.Fits := by
  cases inst
  case branch data =>
    obtain ⟨-, func, hfunc, rfl⟩ := h
    exact TypeB.fits_of_lt w (Branch.embiveFunc_lt _ _ hfunc)
  case opImm data =>
    obtain ⟨-, func, hfunc, rfl⟩ := h
    exact TypeI.fits_of_lt w (OpImm.embiveFunc_lt _ _ hfunc)
  case loadStore data =>
    rcases h with ⟨-, func, hfunc, rfl⟩ | ⟨-, func, hfunc, rfl⟩
    · exact TypeI.fits_of_lt w (Load.embiveFunc_lt _ _ hfunc)
    · have hfits := TypeS.fits_func w (func.setWidth 3)
      simp only [setWidth_setWidth_of_lt
        (show func.toNat < 2 ^ 3 from Store.embiveFunc_lt _ _ hfunc)] at hfits
      exact hfits
  case opAmo data =>
    rcases h with ⟨-, func, hfunc, rfl⟩ | ⟨-, -, func, hfunc, rfl⟩
    · exact TypeR.fits_of_lt w (Op.embiveFunc_lt _ _ hfunc)
    · exact TypeR.fits_of_lt w (Amo.embiveFunc_lt _ _ hfunc)
  case systemMiscMem data =>
    rcases h with ⟨-, rfl⟩ | ⟨-, hmisc, rfl⟩ | ⟨-, -, func, hfunc, rfl⟩
    · exact TypeI.fits_imm w 16
    · exact System.fits_embiveImm hmisc
    · exact TypeI.fits_of_lt w (System.embiveFunc_lt _ _ hfunc)
  case cAddi16sp | cLui | cSrli | cSrai | cAndi | cJrMv | cEbreakJalrAdd =>
    obtain ⟨-, -, rfl⟩ := h
    exact LawfulFormat.fits_fromRiscv w
  all_goals
    obtain ⟨-, rfl⟩ := h
    exact LawfulFormat.fits_fromRiscv w

end Fits

variable [ElfCrate] {w : U32}

/-- A word is converted to one instruction only. -/
theorem ConvertsTo.unique {inst inst' : Decoded} (h : ConvertsTo w inst)
    (h' : ConvertsTo w inst') : inst = inst' := by
  have heq : embiveRaw inst = embiveRaw inst' := by
    have hconvert := convert_of_convertsTo h
    rw [convert_of_convertsTo h'] at hconvert
    exact (Except.ok.inj hconvert).symm
  have hdec := decodeInstruction_embiveRaw h.fits
  rw [heq, decodeInstruction_embiveRaw h'.fits] at hdec
  cases hdec
  rfl

/-- An accepted word is one instruction of the table, and its conversion decodes to that
instruction. -/
theorem convert_decodes {r : RawInstruction} (h : convert w = .ok r) :
    ∃ inst, r = embiveRaw inst ∧ ConvertsTo w inst ∧ decodeInstruction r.data = some inst := by
  obtain ⟨inst, rfl, hinst⟩ := convert_yields r h
  exact ⟨inst, rfl, hinst, decodeInstruction_embiveRaw hinst.fits⟩

end Transpiler

end Embive
