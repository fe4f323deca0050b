import Embive.Transpiler.Convert

/-! # The instruction that a RISC-V word is converted to

A word that the converter accepts is read as one instruction of the table: the
relation names its opcode and function bits and the table entry of its function.
-/

namespace Embive.Transpiler

open Riscv

/-- The two low bits of a word. -/
def quadrant (w : U32) : U8 := (w &&& 0b11).setWidth 8

/-- The seven low bits of a word. -/
def majorOpcode (w : U32) : U8 := (w &&& 0b111_1111).setWidth 8

/-- A compressed instruction of a quadrant and a function. -/
def IsCompressed (w : U32) (opcode funct3 : U8) : Prop := quadrant w = opcode ∧ cFunct3 w = funct3

/-- A full-size instruction of an opcode. -/
def IsFullSize (w : U32) (opcode : U8) : Prop := quadrant w = 0b11 ∧ majorOpcode w = opcode

instance (w : U32) (opcode : U8) : Decidable (IsFullSize w opcode) :=
  inferInstanceAs (Decidable (_ ∧ _))

/-- One of the two-register operations of the second quadrant. -/
def IsRegisterPair (w : U32) (bits : U8) : Prop :=
  IsCompressed w C1.opcode C1.cSrliSraiAndiSubXorOrAndFunc ∧
    cBits11_10 w = C1.cSubXorOrAndBits11_10 ∧ cBit12 w = C1.cSubXorOrAndBit12 ∧
    cBits6_5 w = bits

def Riscv.Load.Reads (w : U32) (data : TypeI) : Prop :=
  IsFullSize w Load.opcode ∧ ∃ func, Load.embiveFunc (Format.fromRiscv w : TypeI).func = some func ∧
    data = { (Format.fromRiscv w : TypeI) with func }

def Riscv.Store.Reads (w : U32) (data : TypeI) : Prop :=
  let instS : TypeS := Format.fromRiscv w
  IsFullSize w Store.opcode ∧ ∃ func, Store.embiveFunc instS.func = some func ∧
    data = { imm := instS.imm, rs1 := instS.rs1, rdRs2 := instS.rs2, func }

def Riscv.Op.Reads (w : U32) (data : TypeR) : Prop :=
  IsFullSize w Op.opcode ∧ ∃ func, Op.embiveFunc (Format.fromRiscv w : TypeR).func = some func ∧
    data = { (Format.fromRiscv w : TypeR) with func }

def Riscv.Amo.Reads (w : U32) (data : TypeR) : Prop :=
  let inst : TypeR := Format.fromRiscv w
  IsFullSize w Amo.opcode ∧ (inst.func &&& 0b111).setWidth 8 = Amo.wordWidth ∧
    ∃ func, Amo.embiveFunc ((inst.func >>> 5).setWidth 8) = some func ∧ data = { inst with func }

def Riscv.MiscMem.Reads (w : U32) (data : TypeI) : Prop :=
  IsFullSize w MiscMem.opcode ∧ data = { (Format.fromRiscv w : TypeI) with
    func := SystemMiscMem.miscFunc, imm := SystemMiscMem.fenceiImm }

def Riscv.System.ReadsMisc (w : U32) (data : TypeI) : Prop :=
  let inst : TypeI := Format.fromRiscv w
  IsFullSize w System.opcode ∧ inst.func = SystemMiscMem.miscFunc ∧
    data = { inst with imm := System.embiveImm inst.imm }

def Riscv.System.ReadsCsr (w : U32) (data : TypeI) : Prop :=
  let inst : TypeI := Format.fromRiscv w
  IsFullSize w System.opcode ∧ inst.func ≠ SystemMiscMem.miscFunc ∧
    ∃ func, System.embiveFunc inst.func = some func ∧ data = { inst with func }

/-- The word is a RISC-V instruction that is converted to this Embive instruction. -/
def ConvertsTo (w : U32) : Decoded → Prop
  | .cAddi4spn data => IsCompressed w C0.opcode C0.cAddi4spnFunc ∧ data = Format.fromRiscv w
  | .cLw data => IsCompressed w C0.opcode C0.cLwFunc ∧ data = Format.fromRiscv w
  | .cSw data => IsCompressed w C0.opcode C0.cSwFunc ∧ data = Format.fromRiscv w
  | .cAddi data => IsCompressed w C1.opcode C1.cAddiFunc ∧ data = Format.fromRiscv w
  | .cJal data => IsCompressed w C1.opcode C1.cJalFunc ∧ data = Format.fromRiscv w
  | .cLi data => IsCompressed w C1.opcode C1.cLiFunc ∧ data = Format.fromRiscv w
  | .cAddi16sp data => IsCompressed w C1.opcode C1.cAddi16spLuiFunc ∧
      (Format.fromRiscv w : TypeCI3).rdRs1 = 2 ∧ data = Format.fromRiscv w
  | .cLui data => IsCompressed w C1.opcode C1.cAddi16spLuiFunc ∧
      (Format.fromRiscv w : TypeCI3).rdRs1 ≠ 2 ∧ data = Format.fromRiscv w
  | .cSrli data => IsCompressed w C1.opcode C1.cSrliSraiAndiSubXorOrAndFunc ∧
      cBits11_10 w = C1.cSrliBits11_10 ∧ data = Format.fromRiscv w
  | .cSrai data => IsCompressed w C1.opcode C1.cSrliSraiAndiSubXorOrAndFunc ∧
      cBits11_10 w = C1.cSraiBits11_10 ∧ data = Format.fromRiscv w
  | .cAndi data => IsCompressed w C1.opcode C1.cSrliSraiAndiSubXorOrAndFunc ∧
      cBits11_10 w = C1.cAndiBits11_10 ∧ data = Format.fromRiscv w
  | .cSub data => IsRegisterPair w C1.cSubBits6_5 ∧ data = Format.fromRiscv w
  | .cXor data => IsRegisterPair w C1.cXorBits6_5 ∧ data = Format.fromRiscv w
  | .cOr data => IsRegisterPair w C1.cOrBits6_5 ∧ data = Format.fromRiscv w
  | .cAnd data => IsRegisterPair w C1.cAndBits6_5 ∧ data = Format.fromRiscv w
  | .cJ data => IsCompressed w C1.opcode C1.cJFunc ∧ data = Format.fromRiscv w
  | .cBeqz data => IsCompressed w C1.opcode C1.cBeqzFunc ∧ data = Format.fromRiscv w
  | .cBnez data => IsCompressed w C1.opcode C1.cBnezFunc ∧ data = Format.fromRiscv w
  | .cSlli data => IsCompressed w C2.opcode C2.cSlliFunc ∧ data = Format.fromRiscv w
  | .cLwsp data => IsCompressed w C2.opcode C2.cLwspFunc ∧ data = Format.fromRiscv w
  | .cJrMv data => IsCompressed w C2.opcode C2.cJrMvEbreakJalrAddFunc ∧
      cBit12 w = C2.cJrMvBit12 ∧ data = Format.fromRiscv w
  | .cEbreakJalrAdd data => IsCompressed w C2.opcode C2.cJrMvEbreakJalrAddFunc ∧
      cBit12 w ≠ C2.cJrMvBit12 ∧ data = Format.fromRiscv w
  | .cSwsp data => IsCompressed w C2.opcode C2.cSwspFunc ∧ data = Format.fromRiscv w
  | .auipc data => IsFullSize w Auipc.opcode ∧ data = Format.fromRiscv w
  | .branch data => IsFullSize w Branch.opcode ∧
      ∃ func, Branch.embiveFunc (Format.fromRiscv w : TypeB).func = some func ∧
        data = { (Format.fromRiscv w : TypeB) with func }
  | .jal data => IsFullSize w Jal.opcode ∧ data = Format.fromRiscv w
  | .jalr data => IsFullSize w Jalr.opcode ∧ data = Format.fromRiscv w
  | .loadStore data => Load.Reads w data ∨ Store.Reads w data
  | .lui data => IsFullSize w Lui.opcode ∧ data = Format.fromRiscv w
  | .opImm data => IsFullSize w OpImm.opcode ∧
      ∃ func, OpImm.embiveFunc (Format.fromRiscv w : TypeI).func = some func ∧
        data = { (Format.fromRiscv w : TypeI) with func }
  | .opAmo data => Op.Reads w data ∨ Amo.Reads w data
  | .systemMiscMem data => MiscMem.Reads w data ∨ System.ReadsMisc w data ∨ System.ReadsCsr w data

theorem quadrant_eq_three {w : U32} (h0 : quadrant w ≠ C0.opcode) (h1 : quadrant w ≠ C1.opcode)
    (h2 : quadrant w ≠ C2.opcode) : quadrant w = 0b11 := by
  have hlt : (quadrant w).toNat ≤ 3 := by
    have h : (w &&& 0b11).toNat ≤ 3 := by
      rw [BitVec.toNat_and]
      exact Nat.and_le_right
    rw [quadrant, BitVec.toNat_setWidth]
    omega
  have heq : quadrant w = BitVec.ofNat 8 (quadrant w).toNat := by simp
  generalize (quadrant w).toNat = n at hlt heq
  interval_cases n
  · exact absurd heq h0
  · exact absurd heq h1
  · exact absurd heq h2
  · exact heq

/-- What holds of an entry and of the rest of a table holds of the table. -/
theorem forall_entry {α : Type} {P : α → Prop} {c : Prop} [Decidable c] {x : α} {rest : Option α}
    (hx : c → P x) (hrest : ∀ y, rest = some y → P y) :
    ∀ y, (if c then some x else rest) = some y → P y := by
  intro y hy
  by_cases hc : c
  · rw [if_pos hc] at hy
    cases hy
    exact hx hc
  · rw [if_neg hc] at hy
    exact hrest y hy

section Converters

variable [ElfCrate] {w : U32} {r : RawInstruction}

/-- A conversion only returns words of instructions that the RISC-V word is read as. -/
def Yields (w : U32) (x : Except Error RawInstruction) : Prop :=
  ∀ r, x = .ok r → ∃ inst, r = embiveRaw inst ∧ ConvertsTo w inst

namespace Yields

theorem ok {inst : Decoded} (h : ConvertsTo w inst) : Yields w (.ok (embiveRaw inst)) := by
  intro r hr
  cases hr
  exact ⟨inst, rfl, h⟩

theorem error (e : Error) : Yields w (.error e) := by
  intro r hr
  cases hr

theorem ite {c : Prop} [Decidable c] {x y : Except Error RawInstruction}
    (hx : c → Yields w x) (hy : ¬c → Yields w y) : Yields w (if c then x else y) := by
  by_cases hc : c
  · rw [if_pos hc]
    exact hx hc
  · rw [if_neg hc]
    exact hy hc

end Yields

theorem C0.yields (hq : quadrant w = C0.opcode) : Yields w (C0.convert w) := by
  unfold C0.convert
  refine Yields.ite (fun haddi => .ok ⟨⟨hq, haddi⟩, rfl⟩) ?_
  intro _
  refine Yields.ite (fun hlw => .ok ⟨⟨hq, hlw⟩, rfl⟩) ?_
  intro _
  exact Yields.ite (fun hsw => .ok ⟨⟨hq, hsw⟩, rfl⟩) (fun _ => .error _)

theorem C1.yields (hq : quadrant w = C1.opcode) : Yields w (C1.convert w) := by
  unfold C1.convert
  refine Yields.ite (fun haddi => .ok ⟨⟨hq, haddi⟩, rfl⟩) ?_
  intro _
  refine Yields.ite (fun hjal => .ok ⟨⟨hq, hjal⟩, rfl⟩) ?_
  intro _
  refine Yields.ite (fun hli => .ok ⟨⟨hq, hli⟩, rfl⟩) ?_
  intro _
  apply Yields.ite
  · intro hlui
    exact Yields.ite (fun hsp => .ok ⟨⟨hq, hlui⟩, hsp, rfl⟩) (fun hrd => .ok ⟨⟨hq, hlui⟩, hrd, rfl⟩)
  intro _
  apply Yields.ite
  · intro halu
    refine Yields.ite (fun hsrli => .ok ⟨⟨hq, halu⟩, hsrli, rfl⟩) ?_
    intro _
    refine Yields.ite (fun hsrai => .ok ⟨⟨hq, halu⟩, hsrai, rfl⟩) ?_
    intro _
    refine Yields.ite (fun handi => .ok ⟨⟨hq, halu⟩, handi, rfl⟩) ?_
    intro _
    apply Yields.ite
    · intro hpair
      refine Yields.ite (fun hsub => .ok ⟨⟨⟨hq, halu⟩, hpair.1, hpair.2, hsub⟩, rfl⟩) ?_
      intro _
      refine Yields.ite (fun hxor => .ok ⟨⟨⟨hq, halu⟩, hpair.1, hpair.2, hxor⟩, rfl⟩) ?_
      intro _
      refine Yields.ite (fun hor => .ok ⟨⟨⟨hq, halu⟩, hpair.1, hpair.2, hor⟩, rfl⟩) ?_
      intro _
      exact Yields.ite (fun hand => .ok ⟨⟨⟨hq, halu⟩, hpair.1, hpair.2, hand⟩, rfl⟩)
        (fun _ => .error _)
    · exact fun _ => .error _
  intro _
  refine Yields.ite (fun hj => .ok ⟨⟨hq, hj⟩, rfl⟩) ?_
  intro _
  refine Yields.ite (fun hbeqz => .ok ⟨⟨hq, hbeqz⟩, rfl⟩) ?_
  intro _
  exact Yields.ite (fun hbnez => .ok ⟨⟨hq, hbnez⟩, rfl⟩) (fun _ => .error _)

theorem C2.yields (hq : quadrant w = C2.opcode) : Yields w (C2.convert w) := by
  unfold C2.convert
  refine Yields.ite (fun hslli => .ok ⟨⟨hq, hslli⟩, rfl⟩) ?_
  intro _
  refine Yields.ite (fun hlwsp => .ok ⟨⟨hq, hlwsp⟩, rfl⟩) ?_
  intro _
  apply Yields.ite
  · intro hcr
    exact Yields.ite (fun hbit => .ok ⟨⟨hq, hcr⟩, hbit, rfl⟩)
      (fun hbit => .ok ⟨⟨hq, hcr⟩, hbit, rfl⟩)
  intro _
  exact Yields.ite (fun hswsp => .ok ⟨⟨hq, hswsp⟩, rfl⟩) (fun _ => .error _)

theorem Load.yields (hw : IsFullSize w Load.opcode) : Yields w (Load.convert w) := by
  simp only [Load.convert]
  split
  next func hfunc => exact .ok (.inl ⟨hw, func, hfunc, rfl⟩)
  next => exact .error _

theorem Store.yields (hw : IsFullSize w Store.opcode) : Yields w (Store.convert w) := by
  simp only [Store.convert]
  split
  next func hfunc => exact .ok (.inr ⟨hw, func, hfunc, rfl⟩)
  next => exact .error _

theorem OpImm.yields (hw : IsFullSize w OpImm.opcode) : Yields w (OpImm.convert w) := by
  simp only [OpImm.convert]
  split
  next func hfunc => exact .ok ⟨hw, func, hfunc, rfl⟩
  next => exact .error _

theorem Branch.yields (hw : IsFullSize w Branch.opcode) : Yields w (Branch.convert w) := by
  simp only [Branch.convert]
  split
  next func hfunc => exact .ok ⟨hw, func, hfunc, rfl⟩
  next => exact .error _

theorem Op.yields (hw : IsFullSize w Op.opcode) : Yields w (Op.convert w) := by
  simp only [Op.convert]
  split
  next func hfunc => exact .ok (.inl ⟨hw, func, hfunc, rfl⟩)
  next => exact .error _

theorem Amo.yields (hw : IsFullSize w Amo.opcode) : Yields w (Amo.convert w) := by
  simp only [Amo.convert]
  refine Yields.ite (fun _ => .error _) ?_
  intro hwidth
  split
  next func hfunc => exact .ok (.inr ⟨hw, not_not.mp hwidth, func, hfunc, rfl⟩)
  next => exact .error _

theorem System.yields (hw : IsFullSize w System.opcode) : Yields w (System.convert w) := by
  simp only [System.convert]
  refine Yields.ite (fun hmisc => .ok (.inr (.inl ⟨hw, hmisc, rfl⟩))) ?_
  intro hmisc
  split
  next func hfunc => exact .ok (.inr (.inr ⟨hw, hmisc, func, hfunc, rfl⟩))
  next => exact .error _

theorem convert_yields : Yields w (convert w) := by
  unfold convert
  refine Yields.ite C0.yields ?_
  intro h0
  refine Yields.ite C1.yields ?_
  intro h1
  refine Yields.ite C2.yields ?_
  intro h2
  have hq : quadrant w = 0b11 := quadrant_eq_three h0 h1 h2
  refine Yields.ite (fun h => Load.yields ⟨hq, h⟩) ?_
  intro _
  refine Yields.ite (fun h => .ok (.inl ⟨⟨hq, h⟩, rfl⟩)) ?_
  intro _
  refine Yields.ite (fun h => OpImm.yields ⟨hq, h⟩) ?_
  intro _
  refine Yields.ite (fun h => .ok ⟨⟨hq, h⟩, rfl⟩) ?_
  intro _
  refine Yields.ite (fun h => Store.yields ⟨hq, h⟩) ?_
  intro _
  refine Yields.ite (fun h => Amo.yields ⟨hq, h⟩) ?_
  intro _
  refine Yields.ite (fun h => Op.yields ⟨hq, h⟩) ?_
  intro _
  refine Yields.ite (fun h => .ok ⟨⟨hq, h⟩, rfl⟩) ?_
  intro _
  refine Yields.ite (fun h => Branch.yields ⟨hq, h⟩) ?_
  intro _
  refine Yields.ite (fun h => .ok ⟨⟨hq, h⟩, rfl⟩) ?_
  intro _
  refine Yields.ite (fun h => .ok ⟨⟨hq, h⟩, rfl⟩) ?_
  intro _
  exact Yields.ite (fun h => System.yields ⟨hq, h⟩) (fun _ => .error _)

/-- A word is converted to the instruction that it is read as. -/
theorem convert_of_convertsTo {inst : Decoded} (h : ConvertsTo w inst) :
    convert w = .ok (embiveRaw inst) := by
  have hfull {opcode : U8} (hw : IsFullSize w opcode) : (w &&& 0b11).setWidth 8 = 0b11#8 ∧
      (w &&& 0b111_1111).setWidth 8 = opcode := hw
  have hcompressed {opcode funct3 : U8} (hw : IsCompressed w opcode funct3) :
      (w &&& 0b11).setWidth 8 = opcode ∧ cFunct3 w = funct3 := hw
  cases inst
  case loadStore data =>
    rcases h with ⟨hw, func, hfunc, rfl⟩ | ⟨hw, func, hfunc, rfl⟩
    · simp only [convert, hfull hw]
      simp only [Load.convert, hfunc]
      rfl
    · simp only [convert, hfull hw]
      simp only [Store.convert, hfunc]
      rfl
  case opImm data =>
    obtain ⟨hw, func, hfunc, rfl⟩ := h
    simp only [convert, hfull hw]
    simp only [OpImm.convert, hfunc]
    rfl
  case branch data =>
    obtain ⟨hw, func, hfunc, rfl⟩ := h
    simp only [convert, hfull hw]
    simp only [Branch.convert, hfunc]
    rfl
  case opAmo data =>
    rcases h with ⟨hw, func, hfunc, rfl⟩ | ⟨hw, hwidth, func, hfunc, rfl⟩
    · simp only [convert, hfull hw]
      simp only [Op.convert, hfunc]
      rfl
    · simp only [convert, hfull hw]
      simp only [Amo.convert, hwidth, hfunc]
      rfl
  case systemMiscMem data =>
    rcases h with ⟨hw, rfl⟩ | ⟨hw, hmisc, rfl⟩ | ⟨hw, hmisc, func, hfunc, rfl⟩
    · simp only [convert, hfull hw]
      rfl
    · simp only [convert, hfull hw]
      simp only [System.convert, if_pos hmisc]
      rfl
    · simp only [convert, hfull hw]
      simp only [System.convert, if_neg hmisc, hfunc]
      rfl
  case auipc | lui | jal | jalr =>
    obtain ⟨hw, rfl⟩ := h
    simp only [convert, hfull hw]
    rfl
  case cAddi4spn | cLw | cSw =>
    obtain ⟨hw, rfl⟩ := h
    simp only [convert, hcompressed hw]
    simp only [C0.convert, hcompressed hw]
    rfl
  case cAddi | cJal | cLi | cJ | cBeqz | cBnez =>
    obtain ⟨hw, rfl⟩ := h
    simp only [convert, hcompressed hw]
    simp only [C1.convert, hcompressed hw]
    rfl
  case cSrli | cSrai | cAndi | cAddi16sp | cLui =>
    obtain ⟨hw, hbits, rfl⟩ := h
    simp only [convert, hcompressed hw]
    simp only [C1.convert, hcompressed hw, hbits]
    rfl
  case cSub | cXor | cOr | cAnd =>
    obtain ⟨⟨hw, hbits11_10, hbit12, hbits6_5⟩, rfl⟩ := h
    simp only [convert, hcompressed hw]
    simp only [C1.convert, hcompressed hw, hbits11_10, hbit12, hbits6_5]
    rfl
  case cSlli | cLwsp | cSwsp =>
    obtain ⟨hw, rfl⟩ := h
    simp only [convert, hcompressed hw]
    simp only [C2.convert, hcompressed hw]
    rfl
  case cJrMv | cEbreakJalrAdd =>
    obtain ⟨hw, hbit, rfl⟩ := h
    simp only [convert, hcompressed hw]
    simp only [C2.convert, hcompressed hw, hbit]
    rfl

end Converters

end Embive.Transpiler
