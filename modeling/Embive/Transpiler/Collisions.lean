import Embive.RiscvLayout
import Embive.Transpiler.RoundTrip

/-! # Which different words are converted to one Embive word

Two accepted words with one conversion were read as the same instruction, so they
agree on the bits that its format reads and on the bits that selected it. The
fences, the ordering bits of the atomic operations and the system words that carry an
Embive immediate are what is left.
-/

namespace Embive.Transpiler

open Lib Riscv

/-- The function tables number consecutive Embive functions. -/
def Numbered {m n : ℕ} (first : ℕ) (functions : List (BitVec n)) (f : BitVec m)
    (func : BitVec n) : Prop :=
  first ≤ f.toNat ∧ functions[f.toNat - first]? = some func

namespace Numbered

variable {m n first : ℕ} {functions : List (BitVec n)} {f : BitVec m} {func func' : BitVec n}

theorem unique (h : Numbered first functions f func) (h' : Numbered first functions f func') :
    func = func' := by
  have heq := h.2
  rw [h'.2] at heq
  exact (Option.some.inj heq).symm

theorem lt (h : Numbered first functions f func) : f.toNat < first + functions.length := by
  have hlt := (List.getElem?_eq_some_iff.mp h.2).1
  have hle := h.1
  omega

end Numbered

theorem Load.numbered (func : U8) : ∀ f, Load.embiveFunc func = some f →
    Numbered 0 [Load.lbFunc, Load.lhFunc, Load.lwFunc, Load.lbuFunc, Load.lhuFunc] f func := by
  unfold Load.embiveFunc
  repeat refine forall_entry (fun h => ⟨by decide, by subst h; rfl⟩) ?_
  intro f hf
  cases hf

theorem Store.numbered (func : U8) : ∀ f, Store.embiveFunc func = some f →
    Numbered 5 [Store.sbFunc, Store.shFunc, Store.swFunc] f func := by
  unfold Store.embiveFunc
  repeat refine forall_entry (fun h => ⟨by decide, by subst h; rfl⟩) ?_
  intro f hf
  cases hf

theorem OpImm.numbered (func : U8) : ∀ f, OpImm.embiveFunc func = some f →
    Numbered 0 [Riscv.OpImm.addiFunc, Riscv.OpImm.slliFunc, Riscv.OpImm.sltiFunc,
      Riscv.OpImm.sltiuFunc, Riscv.OpImm.xoriFunc, Riscv.OpImm.srliSraiFunc, Riscv.OpImm.oriFunc,
      Riscv.OpImm.andiFunc] f func := by
  unfold OpImm.embiveFunc
  repeat refine forall_entry (fun h => ⟨by decide, by subst h; rfl⟩) ?_
  intro f hf
  cases hf

theorem Branch.numbered (func : U8) : ∀ f, Branch.embiveFunc func = some f →
    Numbered 0 [Riscv.Branch.beqFunc, Riscv.Branch.bneFunc, Riscv.Branch.bltFunc,
      Riscv.Branch.bgeFunc, Riscv.Branch.bltuFunc, Riscv.Branch.bgeuFunc] f func := by
  unfold Branch.embiveFunc
  repeat refine forall_entry (fun h => ⟨by decide, by subst h; rfl⟩) ?_
  intro f hf
  cases hf

theorem System.numbered (func : U8) : ∀ f, System.embiveFunc func = some f →
    Numbered 1 [System.csrrwFunc, System.csrrsFunc, System.csrrcFunc, System.csrrwiFunc,
      System.csrrsiFunc, System.csrrciFunc] f func := by
  unfold System.embiveFunc
  repeat refine forall_entry (fun h => ⟨by decide, by subst h; rfl⟩) ?_
  intro f hf
  cases hf

theorem Op.numbered (func : U16) : ∀ f, Op.embiveFunc func = some f →
    Numbered 0 [Op.addFunc, Op.subFunc, Op.sllFunc, Op.sltFunc, Op.sltuFunc, Op.xorFunc,
      Op.srlFunc, Op.sraFunc, Op.orFunc, Op.andFunc, Op.mulFunc, Op.mulhFunc, Op.mulhsuFunc,
      Op.mulhuFunc, Op.divFunc, Op.divuFunc, Op.remFunc, Op.remuFunc] f func := by
  unfold Op.embiveFunc
  repeat refine forall_entry (fun h => ⟨by decide, by subst h; rfl⟩) ?_
  intro f hf
  cases hf

theorem Amo.numbered (funct5 : U8) : ∀ f, Amo.embiveFunc funct5 = some f →
    Numbered 18 [Amo.lrFunct5, Amo.scFunct5, Amo.amoswapFunct5, Amo.amoaddFunct5,
      Amo.amoxorFunct5, Amo.amoandFunct5, Amo.amoorFunct5, Amo.amominFunct5, Amo.amomaxFunct5,
      Amo.amominuFunct5, Amo.amomaxuFunct5] f funct5 := by
  unfold Amo.embiveFunc
  repeat refine forall_entry (fun h => ⟨by decide, by subst h; rfl⟩) ?_
  intro f hf
  cases hf

section Bits

variable {x y : U32}

theorem and_or_eq {c d : U32} (hc : x &&& c = y &&& c) (hd : x &&& d = y &&& d) :
    x &&& (c ||| d) = y &&& (c ||| d) := by
  rw [BitVec.and_or_distrib_left, BitVec.and_or_distrib_left, hc, hd]

theorem quadrant_bits (h : quadrant x = quadrant y) : x &&& 0x3 = y &&& 0x3 :=
  OrLinear.mask_eq_of_eq (f := quadrant) (by unfold quadrant; fun_prop) _ (by decide) h

theorem majorOpcode_bits (h : majorOpcode x = majorOpcode y) : x &&& 0x7F = y &&& 0x7F :=
  OrLinear.mask_eq_of_eq (f := majorOpcode) (by unfold majorOpcode; fun_prop) _ (by decide) h

theorem cFunct3_bits (h : cFunct3 x = cFunct3 y) : x &&& 0xE000 = y &&& 0xE000 :=
  OrLinear.mask_eq_of_eq (f := cFunct3) (by unfold cFunct3; fun_prop) _ (by decide) h

theorem cBit12_bits (h : cBit12 x = cBit12 y) : x &&& 0x1000 = y &&& 0x1000 :=
  OrLinear.mask_eq_of_eq (f := cBit12) (by unfold cBit12; fun_prop) _ (by decide) h

theorem cBits11_10_bits (h : cBits11_10 x = cBits11_10 y) : x &&& 0x0C00 = y &&& 0x0C00 :=
  OrLinear.mask_eq_of_eq (f := cBits11_10) (by unfold cBits11_10; fun_prop) _ (by decide) h

theorem cBits6_5_bits (h : cBits6_5 x = cBits6_5 y) : x &&& 0x0060 = y &&& 0x0060 :=
  OrLinear.mask_eq_of_eq (f := cBits6_5) (by unfold cBits6_5; fun_prop) _ (by decide) h

theorem IsCompressed.bits_eq {opcode funct3 : U8} (hx : IsCompressed x opcode funct3)
    (hy : IsCompressed y opcode funct3) : x &&& 0xE003 = y &&& 0xE003 :=
  and_or_eq (cFunct3_bits (hx.2.trans hy.2.symm)) (quadrant_bits (hx.1.trans hy.1.symm))

theorem IsRegisterPair.bits_eq {bits : U8} (hx : IsRegisterPair x bits)
    (hy : IsRegisterPair y bits) : x &&& 0xFC63 = y &&& 0xFC63 := by
  have h11_10 := cBits11_10_bits (hx.2.1.trans hy.2.1.symm)
  have h12 := cBit12_bits (hx.2.2.1.trans hy.2.2.1.symm)
  have h6_5 := cBits6_5_bits (hx.2.2.2.trans hy.2.2.2.symm)
  exact and_or_eq (hx.1.bits_eq hy.1) (and_or_eq h11_10 (and_or_eq h12 h6_5))

theorem cBit12_eq_of_ne (hx : cBit12 x ≠ 0) (hy : cBit12 y ≠ 0) : cBit12 x = cBit12 y := by
  have hone {w : U32} (h : cBit12 w ≠ 0) : cBit12 w = 1 := by
    have hand : ((w >>> 12) &&& 0b1).toNat ≤ 1 := by
      rw [BitVec.toNat_and]
      exact Nat.and_le_right
    have hle : (cBit12 w).toNat ≤ 1 := by
      rw [cBit12, BitVec.toNat_setWidth]
      omega
    have hne : (cBit12 w).toNat ≠ 0 := by
      intro h0
      exact h (BitVec.eq_of_toNat_eq h0)
    apply BitVec.eq_of_toNat_eq
    rw [show (1 : U8).toNat = 1 from rfl]
    omega
  rw [hone hx, hone hy]

/-- The bits that select an instruction and the bits that its format reads. -/
theorem eq_of_fromRiscv_eq {F : Type} [Format F] [RiscvLayout F] {c m : U32}
    (hc : x &&& c = y &&& c) (h : (Format.fromRiscv x : F) = Format.fromRiscv y)
    (hm : c ||| RiscvLayout.bits F = m) : x &&& m = y &&& m := by
  rw [← hm]
  exact and_or_eq hc (bits_eq_of_fromRiscv_eq h)

theorem IsFullSize.eq_of_and_eq {opcode : U8} {c : U32} (hx : IsFullSize x opcode)
    (hy : IsFullSize y opcode) (hc : x &&& c = y &&& c) : x &&& (0x7F ||| c) = y &&& (0x7F ||| c) :=
  and_or_eq (majorOpcode_bits (hx.2.trans hy.2.symm)) hc

theorem IsFullSize.eq_of_fromRiscv_eq {F : Type} [Format F] [RiscvLayout F] {opcode : U8}
    (hx : IsFullSize x opcode) (hy : IsFullSize y opcode)
    (h : (Format.fromRiscv x : F) = Format.fromRiscv y)
    (hm : 0x7F ||| RiscvLayout.bits F = 0xFFFFFFFF) : x = y := by
  have hall := hx.eq_of_and_eq hy (bits_eq_of_fromRiscv_eq h)
  rw [hm] at hall
  have hones (w : U32) : w &&& 0xFFFFFFFF = w := BitVec.and_allOnes
  rwa [hones, hones] at hall

end Bits

section Alike

/-- The bits of a word that the converter looks at. -/
def significant (w : U32) : U32 := if quadrant w = 0b11 then w else w &&& 0xFFFF

/-- The words name the same registers. -/
def SameRegisters (x y : U32) : Prop :=
  (Format.fromRiscv x : TypeI).rdRs2 = (Format.fromRiscv y : TypeI).rdRs2 ∧
    (Format.fromRiscv x : TypeI).rs1 = (Format.fromRiscv y : TypeI).rs1

/-- Two fences that name the same registers. -/
def BothFences (x y : U32) : Prop :=
  IsFullSize x MiscMem.opcode ∧ IsFullSize y MiscMem.opcode ∧ SameRegisters x y

/-- Two atomic operations that differ in their ordering bits only. -/
def DifferInOrdering (x y : U32) : Prop :=
  IsFullSize x Amo.opcode ∧ IsFullSize y Amo.opcode ∧ x &&& 0xF9FFFFFF = y &&& 0xF9FFFFFF

/-- The same instruction, up to what the conversion is meant to ignore. -/
def Alike (x y : U32) : Prop :=
  significant x = significant y ∨ BothFences x y ∨ DifferInOrdering x y

/-- A system word without a function, with this immediate. -/
def IsMisc (w : U32) (imm : I32) : Prop :=
  IsFullSize w System.opcode ∧ (Format.fromRiscv w : TypeI).func = SystemMiscMem.miscFunc ∧
    (Format.fromRiscv w : TypeI).imm = imm

/-- The first word has an Embive immediate where RISC-V has none, and turns into the
second. -/
def Impersonates (x y : U32) : Prop :=
  SameRegisters x y ∧
    (IsMisc x SystemMiscMem.fenceiImm ∧ IsFullSize y MiscMem.opcode ∨
      IsMisc x SystemMiscMem.wfiImm ∧ IsMisc y System.wfiImm ∨
      IsMisc x SystemMiscMem.mretImm ∧ IsMisc y System.mretImm)

variable {x y : U32}

theorem Alike.symm (h : Alike x y) : Alike y x := by
  rcases h with h | ⟨hx, hy, hrd, hrs1⟩ | ⟨hx, hy, h⟩
  · exact .inl h.symm
  · exact .inr (.inl ⟨hy, hx, hrd.symm, hrs1.symm⟩)
  · exact .inr (.inr ⟨hy, hx, h.symm⟩)

theorem IsFullSize.opcode_unique {opcode opcode' : U8} (h : IsFullSize x opcode)
    (h' : IsFullSize x opcode') : opcode = opcode' := h.2.symm.trans h'.2

theorem IsFullSize.significant_eq {opcode : U8} (h : IsFullSize x opcode) : significant x = x :=
  if_pos h.1

theorem IsCompressed.significant_eq {opcode funct3 : U8} (h : IsCompressed x opcode funct3)
    (hq : opcode ≠ 0b11) : significant x = x &&& 0xFFFF := by
  apply if_neg
  rw [h.1]
  exact hq

theorem System.embiveImm_cases (imm : I32) :
    imm = System.wfiImm ∧ System.embiveImm imm = SystemMiscMem.wfiImm ∨
      imm = System.mretImm ∧ System.embiveImm imm = SystemMiscMem.mretImm ∨
      System.embiveImm imm = imm := by
  unfold System.embiveImm
  split_ifs with hecall hebreak hwfi hmret
  · exact .inr (.inr hecall.symm)
  · exact .inr (.inr hebreak.symm)
  · exact .inl ⟨hwfi, rfl⟩
  · exact .inr (.inl ⟨hmret, rfl⟩)
  · exact .inr (.inr rfl)

/-- The immediates that become the same Embive immediate. -/
theorem System.embiveImm_eq {a b : I32} (h : System.embiveImm a = System.embiveImm b) : a = b ∨
    a = SystemMiscMem.wfiImm ∧ b = System.wfiImm ∨ b = SystemMiscMem.wfiImm ∧ a = System.wfiImm ∨
    a = SystemMiscMem.mretImm ∧ b = System.mretImm ∨
    b = SystemMiscMem.mretImm ∧ a = System.mretImm := by
  rcases System.embiveImm_cases a with ⟨ha, hea⟩ | ⟨ha, hea⟩ | hea <;>
    rcases System.embiveImm_cases b with ⟨hb, heb⟩ | ⟨hb, heb⟩ | heb <;> rw [hea, heb] at h
  · exact .inl (ha.trans hb.symm)
  · cases h
  · exact .inr (.inr (.inl ⟨h.symm, ha⟩))
  · cases h
  · exact .inl (ha.trans hb.symm)
  · exact .inr (.inr (.inr (.inr ⟨h.symm, ha⟩)))
  · exact .inr (.inl ⟨h, hb⟩)
  · exact .inr (.inr (.inr (.inl ⟨h, hb⟩)))
  · exact .inl h

/-- Different system words without a function with the same conversion. -/
theorem System.alike_of_misc {dataX dataY : TypeI} (hx : System.ReadsMisc x dataX)
    (hy : System.ReadsMisc y dataY) (h : dataX = dataY) (hxy : ¬Impersonates x y)
    (hyx : ¬Impersonates y x) : x = y := by
  obtain ⟨hx, hmiscX, rfl⟩ := hx
  obtain ⟨hy, hmiscY, rfl⟩ := hy
  simp only [TypeI.mk.injEq] at h
  obtain ⟨hrd, hrs1, himm, -⟩ := h
  have hregisters : SameRegisters x y := ⟨hrd, hrs1⟩
  rcases System.embiveImm_eq himm with heq | ⟨ha, hb⟩ | ⟨ha, hb⟩ | ⟨ha, hb⟩ | ⟨ha, hb⟩
  · apply hx.eq_of_fromRiscv_eq (F := TypeI) hy
    · ext1
      · exact hrd
      · exact hrs1
      · exact heq
      · exact hmiscX.trans hmiscY.symm
    · rfl
  · exact absurd ⟨hregisters, .inr (.inl ⟨⟨hx, hmiscX, ha⟩, hy, hmiscY, hb⟩)⟩ hxy
  · exact absurd ⟨⟨hrd.symm, hrs1.symm⟩, .inr (.inl ⟨⟨hy, hmiscY, ha⟩, hx, hmiscX, hb⟩)⟩ hyx
  · exact absurd ⟨hregisters, .inr (.inr ⟨⟨hx, hmiscX, ha⟩, hy, hmiscY, hb⟩)⟩ hxy
  · exact absurd ⟨⟨hrd.symm, hrs1.symm⟩, .inr (.inr ⟨⟨hy, hmiscY, ha⟩, hx, hmiscX, hb⟩)⟩ hyx

theorem IsCompressed.alike {F : Type} [Format F] [RiscvLayout F] {opcode funct3 : U8} {c : U32}
    (hx : IsCompressed x opcode funct3) (hy : IsCompressed y opcode funct3)
    (hc : x &&& c = y &&& c) (h : (Format.fromRiscv x : F) = Format.fromRiscv y)
    (hq : opcode ≠ 0b11) (hm : c ||| RiscvLayout.bits F = 0xFFFF) : Alike x y := by
  left
  rw [hx.significant_eq hq, hy.significant_eq hq]
  exact eq_of_fromRiscv_eq hc h hm

theorem IsFullSize.alike {F : Type} [Format F] [RiscvLayout F] {opcode : U8}
    (hx : IsFullSize x opcode) (hy : IsFullSize y opcode)
    (h : (Format.fromRiscv x : F) = Format.fromRiscv y)
    (hm : 0x7F ||| RiscvLayout.bits F = 0xFFFFFFFF) : Alike x y :=
  .inl (congrArg significant (hx.eq_of_fromRiscv_eq hy h hm))

theorem Load.alike {data : TypeI} (hx : Load.Reads x data) (hy : Load.Reads y data) :
    Alike x y := by
  obtain ⟨hx, f, hf, rfl⟩ := hx
  obtain ⟨hy, g, hg, hdata⟩ := hy
  obtain ⟨hrd, hrs1, himm, rfl⟩ := TypeI.mk.inj hdata
  have hfunc := (Load.numbered _ _ hf).unique (Load.numbered _ _ hg)
  exact hx.alike hy (TypeI.ext hrd hrs1 himm hfunc) rfl

theorem Store.alike {data : TypeI} (hx : Store.Reads x data) (hy : Store.Reads y data) :
    Alike x y := by
  obtain ⟨hx, f, hf, rfl⟩ := hx
  obtain ⟨hy, g, hg, hdata⟩ := hy
  obtain ⟨hrs2, hrs1, himm, rfl⟩ := TypeI.mk.inj hdata
  have hfunc := (Store.numbered _ _ hf).unique (Store.numbered _ _ hg)
  exact hx.alike hy (TypeS.ext hrs1 hrs2 himm hfunc) rfl

theorem Load.reads_ne_store {data : TypeI} (hx : Load.Reads x data) (hy : Store.Reads y data) :
    False := by
  obtain ⟨-, f, hf, rfl⟩ := hx
  obtain ⟨-, g, hg, hdata⟩ := hy
  obtain ⟨-, -, -, rfl⟩ := TypeI.mk.inj hdata
  have hlt := (Load.numbered _ _ hf).lt
  have hle := (Store.numbered _ _ hg).1
  simp only [List.length_cons, List.length_nil] at hlt
  omega

theorem Op.alike {data : TypeR} (hx : Op.Reads x data) (hy : Op.Reads y data) : Alike x y := by
  obtain ⟨hx, f, hf, rfl⟩ := hx
  obtain ⟨hy, g, hg, hdata⟩ := hy
  obtain ⟨hrd, hrs1, hrs2, rfl⟩ := TypeR.mk.inj hdata
  have hfunc := (Op.numbered _ _ hf).unique (Op.numbered _ _ hg)
  exact hx.alike hy (TypeR.ext hrd hrs1 hrs2 hfunc) rfl

/-- The fields of a word that an atomic operation keeps. -/
def Amo.fields (w : U32) : BitVec 40 :=
  let inst : TypeR := Format.fromRiscv w
  inst.rd ++ inst.rs1 ++ inst.rs2 ++ (inst.func &&& 0b111).setWidth 8 ++
    (inst.func >>> 5).setWidth 8

theorem Amo.alike {data : TypeR} (hx : Amo.Reads x data) (hy : Amo.Reads y data) : Alike x y := by
  obtain ⟨hx, hwidthX, f, hf, rfl⟩ := hx
  obtain ⟨hy, hwidthY, g, hg, hdata⟩ := hy
  obtain ⟨hrd, hrs1, hrs2, rfl⟩ := TypeR.mk.inj hdata
  have hfunc := (Amo.numbered _ _ hf).unique (Amo.numbered _ _ hg)
  have hfields : Amo.fields x = Amo.fields y := by
    simp only [Amo.fields, hrd, hrs1, hrs2, hwidthX, hwidthY, hfunc]
  have hbits : x &&& 0xF9FFFF80 = y &&& 0xF9FFFF80 := by
    refine OrLinear.mask_eq_of_eq (f := Amo.fields) ?_ _ (by decide) hfields
    unfold Amo.fields
    simp only [Format.fromRiscv]
    fun_prop
  exact .inr (.inr ⟨hx, hy, hx.eq_of_and_eq hy hbits⟩)

theorem Op.reads_ne_amo {data : TypeR} (hx : Op.Reads x data) (hy : Amo.Reads y data) : False := by
  obtain ⟨-, f, hf, rfl⟩ := hx
  obtain ⟨-, -, g, hg, hdata⟩ := hy
  obtain ⟨-, -, -, rfl⟩ := TypeR.mk.inj hdata
  have hlt := (Op.numbered _ _ hf).lt
  have hle := (Amo.numbered _ _ hg).1
  simp only [List.length_cons, List.length_nil] at hlt
  omega

theorem System.csr_alike {data : TypeI} (hx : System.ReadsCsr x data)
    (hy : System.ReadsCsr y data) : Alike x y := by
  obtain ⟨hx, -, f, hf, rfl⟩ := hx
  obtain ⟨hy, -, g, hg, hdata⟩ := hy
  obtain ⟨hrd, hrs1, himm, rfl⟩ := TypeI.mk.inj hdata
  have hfunc := (System.numbered _ _ hf).unique (System.numbered _ _ hg)
  exact hx.alike hy (TypeI.ext hrd hrs1 himm hfunc) rfl

theorem System.csr_func_ne {data : TypeI} (h : System.ReadsCsr x data) :
    data.func ≠ SystemMiscMem.miscFunc := by
  obtain ⟨-, -, f, hf, rfl⟩ := h
  have hle := (System.numbered _ _ hf).1
  rintro (rfl : f = SystemMiscMem.miscFunc)
  exact absurd hle (by decide)

theorem MiscMem.alike {data : TypeI} (hx : MiscMem.Reads x data) (hy : MiscMem.Reads y data) :
    Alike x y := by
  obtain ⟨hx, rfl⟩ := hx
  obtain ⟨hy, hdata⟩ := hy
  obtain ⟨hrd, hrs1, -, -⟩ := TypeI.mk.inj hdata
  exact .inr (.inl ⟨hx, hy, hrd, hrs1⟩)

theorem System.fencei_impersonates {data : TypeI} (hx : System.ReadsMisc x data)
    (hy : MiscMem.Reads y data) : Impersonates x y := by
  obtain ⟨hx, hmisc, rfl⟩ := hx
  obtain ⟨hy, hdata⟩ := hy
  obtain ⟨hrd, hrs1, himm, -⟩ := TypeI.mk.inj hdata
  refine ⟨⟨hrd, hrs1⟩, .inl ⟨⟨hx, hmisc, ?_⟩, hy⟩⟩
  rcases System.embiveImm_cases (Format.fromRiscv x : TypeI).imm with ⟨-, h⟩ | ⟨-, h⟩ | h <;>
    rw [h] at himm
  · cases himm
  · cases himm
  · exact himm

/-- Words that are read as the same instruction. -/
theorem ConvertsTo.alike {inst : Decoded} (hx : ConvertsTo x inst) (hy : ConvertsTo y inst)
    (hxy : ¬Impersonates x y) (hyx : ¬Impersonates y x) : Alike x y := by
  cases inst
  case loadStore data =>
    rcases hx with hx | hx <;> rcases hy with hy | hy
    · exact Load.alike hx hy
    · exact (Load.reads_ne_store hx hy).elim
    · exact (Load.reads_ne_store hy hx).elim
    · exact Store.alike hx hy
  case opAmo data =>
    rcases hx with hx | hx <;> rcases hy with hy | hy
    · exact Op.alike hx hy
    · exact (Op.reads_ne_amo hx hy).elim
    · exact (Op.reads_ne_amo hy hx).elim
    · exact Amo.alike hx hy
  case systemMiscMem data =>
    rcases hx with hx | hx | hx <;> rcases hy with hy | hy | hy
    · exact MiscMem.alike hx hy
    · exact absurd (System.fencei_impersonates hy hx) hyx
    · exact absurd (congrArg TypeI.func hx.2) (System.csr_func_ne hy)
    · exact absurd (System.fencei_impersonates hx hy) hxy
    · exact .inl (congrArg significant (System.alike_of_misc hx hy rfl hxy hyx))
    · exact absurd (hx.2.2 ▸ hx.2.1) (System.csr_func_ne hy)
    · exact absurd (congrArg TypeI.func hy.2) (System.csr_func_ne hx)
    · exact absurd (hy.2.2 ▸ hy.2.1) (System.csr_func_ne hx)
    · exact System.csr_alike hx hy
  case opImm data =>
    obtain ⟨hx, f, hf, rfl⟩ := hx
    obtain ⟨hy, g, hg, hdata⟩ := hy
    obtain ⟨hrd, hrs1, himm, rfl⟩ := TypeI.mk.inj hdata
    have hfunc := (OpImm.numbered _ _ hf).unique (OpImm.numbered _ _ hg)
    exact hx.alike hy (TypeI.ext hrd hrs1 himm hfunc) rfl
  case branch data =>
    obtain ⟨hx, f, hf, rfl⟩ := hx
    obtain ⟨hy, g, hg, hdata⟩ := hy
    obtain ⟨hrs1, hrs2, himm, rfl⟩ := TypeB.mk.inj hdata
    have hfunc := (Branch.numbered _ _ hf).unique (Branch.numbered _ _ hg)
    exact hx.alike hy (TypeB.ext hrs1 hrs2 himm hfunc) rfl
  case auipc | lui | jal | jalr => exact hx.1.alike hy.1 (hx.2.symm.trans hy.2) rfl
  case cSub | cXor | cOr | cAnd =>
    exact hx.1.1.alike hy.1.1 (hx.1.bits_eq hy.1) (hx.2.symm.trans hy.2) (by decide) rfl
  case cSrli | cSrai | cAndi =>
    have hbits := cBits11_10_bits (hx.2.1.trans hy.2.1.symm)
    exact hx.1.alike hy.1 (and_or_eq (hx.1.bits_eq hy.1) hbits) (hx.2.2.symm.trans hy.2.2)
      (by decide) rfl
  case cAddi16sp | cLui =>
    exact hx.1.alike hy.1 (hx.1.bits_eq hy.1) (hx.2.2.symm.trans hy.2.2) (by decide) rfl
  case cJrMv =>
    have hbit := cBit12_bits (hx.2.1.trans hy.2.1.symm)
    exact hx.1.alike hy.1 (and_or_eq (hx.1.bits_eq hy.1) hbit) (hx.2.2.symm.trans hy.2.2)
      (by decide) rfl
  case cEbreakJalrAdd =>
    have hbit := cBit12_bits (cBit12_eq_of_ne hx.2.1 hy.2.1)
    exact hx.1.alike hy.1 (and_or_eq (hx.1.bits_eq hy.1) hbit) (hx.2.2.symm.trans hy.2.2)
      (by decide) rfl
  all_goals
    exact hx.1.alike hy.1 (hx.1.bits_eq hy.1) (hx.2.symm.trans hy.2) (by decide) rfl

/-- An impersonated word is a different instruction. -/
theorem Impersonates.not_alike (h : Impersonates x y) : ¬Alike x y := by
  have hx : IsFullSize x System.opcode := by
    rcases h.2 with ⟨hx, -⟩ | ⟨hx, -⟩ | ⟨hx, -⟩ <;> exact hx.1
  rintro (heq | ⟨hfence, -⟩ | ⟨hamo, -⟩)
  · have hy : significant y = y := by
      rcases h.2 with ⟨-, hy⟩ | ⟨-, hy⟩ | ⟨-, hy⟩
      · exact hy.significant_eq
      · exact hy.1.significant_eq
      · exact hy.1.significant_eq
    rw [hx.significant_eq, hy] at heq
    subst heq
    rcases h.2 with ⟨-, hy⟩ | ⟨⟨-, -, hx⟩, -, -, hy⟩ | ⟨⟨-, -, hx⟩, -, -, hy⟩
    · exact absurd (hx.opcode_unique hy) (by decide)
    · exact absurd (hx.symm.trans hy) (by decide)
    · exact absurd (hx.symm.trans hy) (by decide)
  · exact absurd (hx.opcode_unique hfence) (by decide)
  · exact absurd (hx.opcode_unique hamo) (by decide)

theorem IsMisc.convertsTo {imm : I32} (h : IsMisc x imm) : ConvertsTo x (.systemMiscMem
    ⟨(Format.fromRiscv x : TypeI).rdRs2, (Format.fromRiscv x : TypeI).rs1,
      System.embiveImm imm, SystemMiscMem.miscFunc⟩) := by
  obtain ⟨hx, hmisc, rfl⟩ := h
  right
  left
  refine ⟨hx, hmisc, ?_⟩
  ext1
  · rfl
  · rfl
  · rfl
  · exact hmisc.symm

/-- It is read as the same instruction all the same. -/
theorem Impersonates.convertsTo (h : Impersonates x y) :
    ∃ inst, ConvertsTo x inst ∧ ConvertsTo y inst := by
  obtain ⟨⟨hrd, hrs1⟩, ⟨hx, hy⟩ | ⟨hx, hy⟩ | ⟨hx, hy⟩⟩ := h
  · refine ⟨_, hx.convertsTo, .inl ⟨hy, ?_⟩⟩
    rw [hrd, hrs1]
    rfl
  · refine ⟨_, hx.convertsTo, ?_⟩
    rw [hrd, hrs1]
    exact hy.convertsTo
  · refine ⟨_, hx.convertsTo, ?_⟩
    rw [hrd, hrs1]
    exact hy.convertsTo

end Alike

section Separation

variable [ElfCrate] {x y : U32} {rx ry : RawInstruction}

/-- The conversion tells two accepted words apart unless one of them impersonates the
other. -/
theorem convert_separates_iff (hx : convert x = .ok rx) (hy : convert y = .ok ry) :
    (rx.data = ry.data → Alike x y) ↔ ¬(Impersonates x y ∨ Impersonates y x) := by
  obtain ⟨instX, rfl, hinstX, hdecX⟩ := convert_decodes hx
  obtain ⟨instY, rfl, hinstY, hdecY⟩ := convert_decodes hy
  constructor
  · rintro halike (h | h)
    · obtain ⟨inst, hix, hiy⟩ := h.convertsTo
      obtain rfl := hinstX.unique hix
      obtain rfl := hinstY.unique hiy
      exact h.not_alike (halike rfl)
    · obtain ⟨inst, hiy, hix⟩ := h.convertsTo
      obtain rfl := hinstX.unique hix
      obtain rfl := hinstY.unique hiy
      exact h.not_alike (halike rfl).symm
  · intro hno hdata
    rw [hdata, hdecY] at hdecX
    obtain rfl := Option.some.inj hdecX
    exact hinstX.alike hinstY (fun h => hno (.inl h)) (fun h => hno (.inr h))

end Separation

/-- The environment call and the environment break are told apart. -/
theorem convert_separates_iff_ecall :
    letI := ElfCrate.parsesNothing
    convert 0x00000073 = .ok ⟨0x0000001F, .word⟩ ∧ convert 0x00100073 = .ok ⟨0x0010001F, .word⟩ ∧
      ¬(Impersonates 0x00000073 0x00100073 ∨ Impersonates 0x00100073 0x00000073) := by
  let _ := ElfCrate.parsesNothing
  have hecall : convert 0x00000073 = .ok ⟨0x0000001F, .word⟩ := rfl
  have hebreak : convert 0x00100073 = .ok ⟨0x0010001F, .word⟩ := rfl
  exact ⟨hecall, hebreak, (convert_separates_iff hecall hebreak).mp (fun h => absurd h (by decide))⟩

/-- A system word with the immediate four turns into the machine's trap return. -/
theorem convert_confuses_mret :
    letI := ElfCrate.parsesNothing
    ¬∀ x y rx ry, convert x = .ok rx → convert y = .ok ry → rx.data = ry.data → Alike x y := by
  let _ := ElfCrate.parsesNothing
  intro h
  have hmisc : IsMisc 0x00400073 SystemMiscMem.mretImm := ⟨by decide, rfl, rfl⟩
  have hmret : IsMisc 0x30200073 System.mretImm := ⟨by decide, rfl, rfl⟩
  have himpersonates : Impersonates 0x00400073 0x30200073 :=
    ⟨⟨rfl, rfl⟩, .inr (.inr ⟨hmisc, hmret⟩)⟩
  exact himpersonates.not_alike
    (h _ _ ⟨0x0040001F, .word⟩ ⟨0x0040001F, .word⟩ rfl rfl rfl)

end Embive.Transpiler
