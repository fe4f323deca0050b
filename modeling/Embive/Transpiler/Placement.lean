import Embive.Transpiler.Elf

/-! # When the placement of a section is exact

The sums, differences, the division and the product that place a section are carried out
on integers of the machine. They are those of the unbounded integers exactly when every
one of them fits.
-/

namespace Embive.Transpiler

section Headers

variable (entry : U32) (segment : ProgramHeader) (sec : SectionHeader)

/-- The virtual address of a section as it is read. -/
def virtualAddress : ℕ := (sec.shAddr.setWidth 32).toNat

/-- The virtual address after a section. -/
def virtualEnd : ℕ := virtualAddress sec + (sec.shSize.setWidth 32).toNat

/-- The virtual address of a segment. -/
def segmentStart : ℕ := (segment.pVaddr.setWidth 32).toNat

/-- The virtual address after a segment. -/
def segmentEnd : ℕ := segmentStart segment + (segment.pMemsz.setWidth 32).toNat

/-- The segment contains the section. -/
def InSegment : Prop :=
  segmentStart segment ≤ virtualAddress sec ∧ virtualEnd sec ≤ segmentEnd segment

instance : Decidable (InSegment segment sec) := inferInstanceAs (Decidable (_ ∧ _))

/-- The physical address of a section in a segment. -/
def physicalAddress : ℕ :=
  virtualAddress sec - segmentStart segment + (segment.pPaddr.setWidth 32).toNat

/-- The alignment of a section. -/
def alignment : ℕ := (sec.shAddralign.setWidth 32).toNat

/-- The aligned offset of a section from the entry point. -/
def alignedOffset : ℕ :=
  (physicalAddress segment sec - entry.toNat + alignment sec - 1) / alignment sec * alignment sec

variable [Target]

/-- Every number on the way from the section's address to its range is one of the
machine's. -/
@[mk_iff placeFits_iff]
structure PlaceFits : Prop where
  physicalAddress_lt : physicalAddress segment sec < 2 ^ 32
  entry_le : entry.toNat ≤ physicalAddress segment sec
  alignment_ne : alignment sec ≠ 0
  alignedOffset_lt : alignedOffset entry segment sec < 2 ^ 32
  end_lt : alignedOffset entry segment sec + asUsize sec.shSize < 2 ^ Target.usizeBits

/-- The numbers of a section are the machine's for every segment up to the first one that
contains it, and in that one. -/
def Fits : List ProgramHeader → Prop
  | [] => True
  | segment :: rest =>
    (segmentStart segment ≤ virtualAddress sec →
      virtualEnd sec < 2 ^ 32 ∧ segmentEnd segment < 2 ^ 32) ∧
    if InSegment segment sec then PlaceFits entry segment sec else Fits rest

/-- The placement that the unbounded integers give: the least aligned offset from the
entry point that is not below the physical address. -/
structure ExactPlacement (pl : Placement) : Prop where
  paddr : (pl.paddr.toNat : ℤ) =
    virtualAddress sec - segmentStart segment + (segment.pPaddr.setWidth 32).toNat
  aligned : alignment sec ∣ pl.offset
  le_offset : (pl.paddr.toNat : ℤ) - entry.toNat ≤ pl.offset
  offset_lt : (pl.offset : ℤ) < pl.paddr.toNat - entry.toNat + alignment sec
  endOffset : pl.endOffset = pl.offset + asUsize sec.shSize

variable [ElfCrate]

/-- The section is placed as the unbounded integers do it, by the first segment that
contains it. -/
def LocatesExactly (segments : List ProgramHeader) : Prop :=
  match segments.find? (fun segment => InSegment segment sec) with
  | none => locate entry sec segments = .ok none
  | some segment => ∃ pl, locate entry sec segments = .ok (some pl) ∧
      ExactPlacement entry segment sec pl

end Headers

section Arithmetic

variable {x y z : U32}

theorem toNat_add_of_fits (h : x.toNat + y.toNat < 2 ^ 32) : (x + y).toNat = x.toNat + y.toNat := by
  rw [BitVec.toNat_add, Nat.mod_eq_of_lt h]

theorem toNat_mul_of_fits (h : x.toNat * y.toNat < 2 ^ 32) : (x * y).toNat = x.toNat * y.toNat := by
  rw [BitVec.toNat_mul, Nat.mod_eq_of_lt h]

theorem ceilDiv_of_mod_eq_zero {a b : ℕ} (hb : 0 < b) (h : a % b = 0) :
    (a + b - 1) / b = a / b := by
  have hsplit := Nat.div_add_mod a b
  have heq : a + b - 1 = b * (a / b) + (b - 1) := by omega
  have hlast : (b - 1) / b = 0 := Nat.div_eq_of_lt (by omega)
  rw [heq, Nat.mul_add_div hb, hlast, Nat.add_zero]

theorem ceilDiv_of_mod_ne_zero {a b : ℕ} (hb : 0 < b) (h : a % b ≠ 0) :
    (a + b - 1) / b = a / b + 1 := by
  have hsplit := Nat.div_add_mod a b
  have hmod := Nat.mod_lt a hb
  have heq : a + b - 1 = b * (a / b + 1) + (a % b - 1) := by
    rw [Nat.mul_succ]
    omega
  have hlast : (a % b - 1) / b = 0 := Nat.div_eq_of_lt (by omega)
  rw [heq, Nat.mul_add_div hb, hlast, Nat.add_zero]

variable [ElfCrate] [Target] {α : Type} {fits : Prop} [Decidable fits]

theorem wrapOrPanic_of_fits (h : fits) (wrapped : α) : wrapOrPanic fits wrapped = .ok wrapped :=
  if_pos (.inl h)

/-- With overflow checks an operation that returns has fitted. -/
theorem wrapOrPanic_checked (hchecks : Target.overflowChecks = true) {wrapped a : α}
    (h : wrapOrPanic fits wrapped = .ok a) : fits ∧ a = wrapped := by
  unfold wrapOrPanic at h
  split_ifs at h with hfits
  · cases h
    refine ⟨?_, rfl⟩
    rcases hfits with hfits | hno
    · exact hfits
    · rw [hchecks] at hno
      cases hno

/-- The rounded quotient always fits. -/
theorem divCeil_eq (hy : y ≠ 0) :
    ∃ d, divCeil x y = .ok d ∧ d.toNat = (x.toNat + y.toNat - 1) / y.toNat := by
  have hpos : 0 < y.toNat := by
    rw [Nat.pos_iff_ne_zero]
    exact fun h => hy (BitVec.eq_of_toNat_eq h)
  have hx := x.isLt
  have hrem : x % y = 0 ↔ x.toNat % y.toNat = 0 := by
    rw [← BitVec.toNat_inj, BitVec.toNat_umod]
    rfl
  unfold divCeil
  rw [if_neg hy]
  by_cases hr : x % y = 0
  · rw [if_pos hr]
    refine ⟨x / y, rfl, ?_⟩
    rw [BitVec.toNat_udiv, ceilDiv_of_mod_eq_zero hpos (hrem.mp hr)]
  · have hmod := fun h => hr (hrem.mpr h)
    have hone : (1 : U32).toNat = 1 := rfl
    have hfits : (x / y).toNat + (1 : U32).toNat < 2 ^ 32 := by
      have htwo : 2 ≤ y.toNat := by
        by_contra hlt
        have hy1 : y.toNat = 1 := by omega
        rw [hy1] at hmod
        exact hmod (Nat.mod_one _)
      have hhalf : x.toNat / y.toNat ≤ x.toNat / 2 := Nat.div_le_div_left htwo (by decide)
      rw [BitVec.toNat_udiv, hone]
      omega
    rw [if_neg hr]
    refine ⟨x / y + 1, wrapOrPanic_of_fits hfits _, ?_⟩
    rw [toNat_add_of_fits hfits, BitVec.toNat_udiv, hone, ceilDiv_of_mod_ne_zero hpos hmod]

end Arithmetic

section Exactness

variable [ElfCrate] [Target] {entry : U32} {segment : ProgramHeader} {sec : SectionHeader}
  {segments : List ProgramHeader}

theorem contains_of_fits (h : segmentStart segment ≤ virtualAddress sec →
    virtualEnd sec < 2 ^ 32 ∧ segmentEnd segment < 2 ^ 32) :
    contains segment sec = .ok (decide (InSegment segment sec)) := by
  unfold contains
  by_cases hstart : segmentStart segment ≤ virtualAddress sec
  · obtain ⟨hsec, hsegment⟩ := h hstart
    have hsec' : addU32 (sec.shAddr.setWidth 32) (sec.shSize.setWidth 32) = .ok _ :=
      wrapOrPanic_of_fits hsec _
    have hsegment' : addU32 (segment.pVaddr.setWidth 32) (segment.pMemsz.setWidth 32) = .ok _ :=
      wrapOrPanic_of_fits hsegment _
    have hend : (sec.shAddr.setWidth 32 : U32) + sec.shSize.setWidth 32 ≤
        segment.pVaddr.setWidth 32 + segment.pMemsz.setWidth 32 ↔ InSegment segment sec := by
      rw [BitVec.le_def, toNat_add_of_fits hsec, toNat_add_of_fits hsegment]
      exact (and_iff_right hstart).symm
    have hle : (segment.pVaddr.setWidth 32 : U32) ≤ sec.shAddr.setWidth 32 := hstart
    dsimp only
    rw [if_pos hle, Except.bind_ok hsec', Except.bind_ok hsegment']
    exact congrArg Except.ok (decide_eq_decide.mpr hend)
  · have hin : ¬InSegment segment sec := fun h => hstart h.1
    have hle : ¬(segment.pVaddr.setWidth 32 : U32) ≤ sec.shAddr.setWidth 32 := hstart
    dsimp only
    rw [if_neg hle, decide_eq_false hin]
    rfl

/-- The placement of a section whose numbers fit. -/
theorem place_of_fits (hin : InSegment segment sec) (h : PlaceFits entry segment sec) :
    ∃ pl, place entry segment sec = .ok pl ∧
      pl.paddr.toNat = physicalAddress segment sec ∧
      pl.offset = alignedOffset entry segment sec ∧
      pl.endOffset = pl.offset + asUsize sec.shSize := by
  obtain ⟨hphysical, hentry, halignment, haligned, hend⟩ := h
  obtain ⟨inSegment, hinSegment, htoNat⟩ : ∃ inSegment,
      subU32 (sec.shAddr.setWidth 32) (segment.pVaddr.setWidth 32) = .ok inSegment ∧
        inSegment.toNat = virtualAddress sec - segmentStart segment :=
    ⟨_, wrapOrPanic_of_fits hin.1 _, BitVec.toNat_sub_of_le hin.1⟩
  rw [physicalAddress, ← htoNat] at hphysical
  obtain ⟨paddr, hpaddr, hpaddrNat⟩ : ∃ paddr,
      addU32 inSegment (segment.pPaddr.setWidth 32) = .ok paddr ∧
        paddr.toNat = physicalAddress segment sec := by
    refine ⟨_, wrapOrPanic_of_fits hphysical _, ?_⟩
    rw [toNat_add_of_fits hphysical, htoNat]
    rfl
  rw [← hpaddrNat] at hentry
  obtain ⟨fromEntry, hfromEntry, hfromNat⟩ : ∃ fromEntry,
      subU32 paddr entry = .ok fromEntry ∧ fromEntry.toNat = paddr.toNat - entry.toNat :=
    ⟨_, wrapOrPanic_of_fits hentry _, BitVec.toNat_sub_of_le hentry⟩
  have hne : (sec.shAddralign.setWidth 32 : U32) ≠ 0 := by
    intro h0
    apply halignment
    rw [alignment, h0]
    rfl
  obtain ⟨blocks, hblocks, hblocksNat⟩ := divCeil_eq (x := fromEntry) hne
  have hoffset : blocks.toNat * (sec.shAddralign.setWidth 32 : U32).toNat =
      alignedOffset entry segment sec := by
    rw [hblocksNat, hfromNat, hpaddrNat]
    rfl
  rw [← hoffset] at haligned hend
  obtain ⟨offset, hmul, hmulNat⟩ : ∃ offset,
      mulU32 blocks (sec.shAddralign.setWidth 32) = .ok offset ∧
        offset.toNat = blocks.toNat * (sec.shAddralign.setWidth 32 : U32).toNat :=
    ⟨_, wrapOrPanic_of_fits haligned _, toNat_mul_of_fits haligned⟩
  rw [← hmulNat] at hend
  have hendOffset : addUsize offset.toNat (asUsize sec.shSize) =
      .ok (offset.toNat + asUsize sec.shSize) := by
    rw [addUsize, wrapOrPanic_of_fits hend, Nat.mod_eq_of_lt hend]
  refine ⟨⟨paddr, offset.toNat, offset.toNat + asUsize sec.shSize⟩, ?_, hpaddrNat,
    hmulNat.trans hoffset, rfl⟩
  rw [place, Except.bind_ok hinSegment, Except.bind_ok hpaddr]
  dsimp only
  rw [Except.bind_ok hfromEntry, Except.bind_ok hblocks, Except.bind_ok hmul,
    Except.bind_ok hendOffset]
  rfl

/-- The aligned offset is the least multiple of the alignment that is far enough. -/
theorem exactPlacement_of_fits (hin : InSegment segment sec) (h : PlaceFits entry segment sec) :
    ∃ pl, place entry segment sec = .ok pl ∧ ExactPlacement entry segment sec pl := by
  obtain ⟨pl, hplace, hpaddr, hoffset, hend⟩ := place_of_fits hin h
  have hpos : 0 < alignment sec := Nat.pos_of_ne_zero h.alignment_ne
  have hentry := h.entry_le
  have hstart := hin.1
  have hlow := Nat.div_add_mod (physicalAddress segment sec - entry.toNat + alignment sec - 1)
    (alignment sec)
  have hmod := Nat.mod_lt (physicalAddress segment sec - entry.toNat + alignment sec - 1) hpos
  rw [Nat.mul_comm] at hlow
  refine ⟨pl, hplace, ⟨?_, ?_, ?_, ?_, hend⟩⟩
  · rw [hpaddr, physicalAddress]
    push_cast [Nat.cast_sub hstart]
    rfl
  · rw [hoffset]
    exact Dvd.intro_left _ rfl
  · rw [hpaddr, hoffset, alignedOffset]
    omega
  · rw [hpaddr, hoffset, alignedOffset]
    omega

/-- Where all numbers fit, every build places the section exactly. -/
theorem locatesExactly_of_fits (h : Fits entry sec segments) :
    LocatesExactly entry sec segments := by
  induction segments with
  | nil => rfl
  | cons segment rest ih =>
    obtain ⟨hcontains, hplace⟩ := h
    have hcontains' := contains_of_fits hcontains
    unfold LocatesExactly locate
    rw [Except.bind_ok hcontains', List.find?_cons]
    by_cases hin : InSegment segment sec
    · rw [if_pos hin] at hplace
      obtain ⟨pl, hpl, hexact⟩ := exactPlacement_of_fits hin hplace
      simp only [hin, decide_true]
      refine ⟨pl, ?_, hexact⟩
      rw [if_pos trivial, Except.bind_ok hpl]
      rfl
    · rw [if_neg hin] at hplace
      simp only [hin, decide_false]
      exact ih hplace

theorem contains_checked (hchecks : Target.overflowChecks = true) {b : Bool}
    (h : contains segment sec = .ok b) (hstart : segmentStart segment ≤ virtualAddress sec) :
    virtualEnd sec < 2 ^ 32 ∧ segmentEnd segment < 2 ^ 32 := by
  have hle : (segment.pVaddr.setWidth 32 : U32) ≤ sec.shAddr.setWidth 32 := hstart
  unfold contains at h
  dsimp only at h
  rw [if_pos hle] at h
  obtain ⟨sectionEnd, hsec, h⟩ := Except.bind_eq_ok h
  obtain ⟨segmentEnd, hsegment, -⟩ := Except.bind_eq_ok h
  exact ⟨(wrapOrPanic_checked hchecks hsec).1, (wrapOrPanic_checked hchecks hsegment).1⟩

theorem place_checked (hchecks : Target.overflowChecks = true) (hin : InSegment segment sec)
    {pl : Placement} (h : place entry segment sec = .ok pl) : PlaceFits entry segment sec := by
  unfold place at h
  obtain ⟨inSegment, hinSegment, h⟩ := Except.bind_eq_ok h
  obtain ⟨paddr, hpaddr, h⟩ := Except.bind_eq_ok h
  dsimp only at h
  obtain ⟨fromEntry, hfromEntry, h⟩ := Except.bind_eq_ok h
  obtain ⟨blocks, hblocks, h⟩ := Except.bind_eq_ok h
  obtain ⟨offset, hoffset, h⟩ := Except.bind_eq_ok h
  obtain ⟨endOffset, hend, -⟩ := Except.bind_eq_ok h
  obtain ⟨-, rfl⟩ := wrapOrPanic_checked hchecks hinSegment
  obtain ⟨hphysical, rfl⟩ := wrapOrPanic_checked hchecks hpaddr
  obtain ⟨hentry, rfl⟩ := wrapOrPanic_checked hchecks hfromEntry
  obtain ⟨hrounded, rfl⟩ := wrapOrPanic_checked hchecks hoffset
  obtain ⟨hfits, rfl⟩ := wrapOrPanic_checked hchecks hend
  have hsub : ((sec.shAddr.setWidth 32 : U32) - segment.pVaddr.setWidth 32).toNat =
      virtualAddress sec - segmentStart segment := BitVec.toNat_sub_of_le hin.1
  have hne : (sec.shAddralign.setWidth 32 : U32) ≠ 0 := by
    intro h0
    rw [divCeil, if_pos h0] at hblocks
    cases hblocks
  have hpaddrNat := toNat_add_of_fits hphysical
  rw [hsub] at hphysical hpaddrNat
  have hfromNat := BitVec.toNat_sub_of_le hentry
  obtain ⟨blocks', hblocks', hblocksNat⟩ := divCeil_eq (x := (sec.shAddr.setWidth 32 : U32) -
    segment.pVaddr.setWidth 32 + segment.pPaddr.setWidth 32 - entry) hne
  rw [hblocks] at hblocks'
  cases hblocks'
  have haligned : blocks.toNat * (sec.shAddralign.setWidth 32 : U32).toNat =
      alignedOffset entry segment sec := by
    rw [hblocksNat, hfromNat, hpaddrNat]
    rfl
  rw [toNat_mul_of_fits hrounded, haligned] at hfits
  rw [haligned] at hrounded
  rw [hpaddrNat] at hentry
  refine ⟨hphysical, hentry, ?_, hrounded, hfits⟩
  intro h0
  exact hne (BitVec.eq_of_toNat_eq h0)

/-- With overflow checks a section is only placed where all its numbers fit. -/
theorem fits_of_checked (hchecks : Target.overflowChecks = true) {r : Option Placement}
    (h : locate entry sec segments = .ok r) : Fits entry sec segments := by
  induction segments with
  | nil => trivial
  | cons segment rest ih =>
    obtain ⟨b, hcontains, h⟩ := Except.bind_eq_ok h
    have hends := contains_checked hchecks hcontains
    have hcontains' := contains_of_fits hends
    rw [hcontains] at hcontains'
    cases hcontains'
    refine ⟨hends, ?_⟩
    by_cases hin : InSegment segment sec
    · rw [if_pos hin]
      simp only [hin, decide_true, if_true] at h
      obtain ⟨pl, hplace, -⟩ := Except.bind_eq_ok h
      exact place_checked hchecks hin hplace
    · rw [if_neg hin]
      simp only [hin, decide_false] at h
      exact ih h

theorem LocatesExactly.returns (h : LocatesExactly entry sec segments) :
    ∃ r, locate entry sec segments = .ok r := by
  unfold LocatesExactly at h
  split at h
  · exact ⟨none, h⟩
  · obtain ⟨pl, hpl, -⟩ := h
    exact ⟨some pl, hpl⟩

end Exactness

/-- The same platform with overflow checks turned on or off. -/
@[reducible] def withChecks (target : Target) (checks : Bool) : Target :=
  { target with overflowChecks := checks }

theorem fits_withChecks (target : Target) (checks : Bool) (entry : U32) (sec : SectionHeader)
    (segments : List ProgramHeader) :
    @Fits entry sec (withChecks target checks) segments ↔ Fits entry sec segments := by
  have hplace (segment : ProgramHeader) :
      @PlaceFits entry segment sec (withChecks target checks) ↔ PlaceFits entry segment sec :=
    (@placeFits_iff _ _ _ (withChecks target checks)).trans (@placeFits_iff _ _ _ target).symm
  induction segments with
  | nil => exact Iff.rfl
  | cons segment rest ih => simp only [Fits, hplace, ih]

/-- A section is placed exactly, by builds with overflow checks and without, if and only
if every number on the way fits. -/
theorem locatesExactly_iff [ElfCrate] (target : Target) (entry : U32) (sec : SectionHeader)
    (segments : List ProgramHeader) :
    (∀ checks, letI := withChecks target checks; LocatesExactly entry sec segments) ↔
      Fits entry sec segments := by
  constructor
  · intro h
    obtain ⟨r, hr⟩ := @LocatesExactly.returns _ (withChecks target true) _ _ _ (h true)
    exact (fits_withChecks target true entry sec segments).mp
      (@fits_of_checked _ (withChecks target true) _ _ _ rfl _ hr)
  · intro h checks
    exact @locatesExactly_of_fits _ (withChecks target checks) _ _ _
      ((fits_withChecks target checks entry sec segments).mpr h)

/-- A section with the alignment zero, which stands for no constraint. -/
def unalignedSection : SectionHeader := ⟨1, 2, 0, 4, 0⟩

/-- A segment that contains it. -/
def unalignedSegment : ProgramHeader := ⟨0, 0, 4⟩

/-- A RISC-V file of these segments and sections, all of whose data are zero. -/
def zeroElf (entry : U64) (segments : List ProgramHeader) (sections : List SectionHeader) :
    ElfBytes Unit Unit where
  ehdr := ⟨.elf32, emRiscv, entry⟩
  segments := some segments
  sectionHeaders := some sections
  sectionData sec := .ok (List.replicate sec.shSize.toNat 0, none)

/-- A crate that parses every input as one file. -/
@[reducible] def parsesTo (elf : ElfBytes Unit Unit) : ElfCrate := ⟨Unit, Unit, fun _ => .ok elf⟩

/-- The rounding to the alignment zero divides by zero. -/
theorem transpileElf_unaligned_panics :
    letI := Target.release64
    letI := parsesTo (zeroElf 0 [unalignedSegment] [unalignedSection])
    ¬LocatesExactly 0 unalignedSection [unalignedSegment] ∧
      transpileElf [] [0, 0, 0, 0] = .error .panic [0, 0, 0, 0] := by
  let _ := Target.release64
  let _ := parsesTo (zeroElf 0 [unalignedSegment] [unalignedSection])
  have hpanic : locate 0 unalignedSection [unalignedSegment] = .error .panic := rfl
  refine ⟨?_, rfl⟩
  intro h
  obtain ⟨r, hr⟩ := h.returns
  rw [hpanic] at hr
  cases hr

end Embive.Transpiler
