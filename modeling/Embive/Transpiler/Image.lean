import Embive.Transpiler.InPlace
import Embive.Transpiler.Placement

/-! # The image of an ELF file

A placed section is a chunk of the output: its data at an offset, transpiled when they are
code. When the file is transpiled into a buffer, the buffer is patched with the images of
the chunks in their order, and the progress of the loop is a fold over them.
-/

namespace Embive.Transpiler

open EStateM

/-- The data of a section that is placed in the output. -/
structure Chunk where
  offset : ℕ
  data : List U8
  isCode : Bool
  deriving DecidableEq

namespace Chunk

/-- The offset after the chunk. -/
def endOffset (c : Chunk) : ℕ := c.offset + c.data.length

variable [ElfCrate]

/-- The bytes of the chunk in the output. -/
def image (c : Chunk) : List U8 := if c.isCode then (transpileRaw c.data).state else c.data

/-- The chunk is data, or code that is accepted. -/
def Accepted (c : Chunk) : Prop := c.isCode → ∃ p code, transpileRaw c.data = .ok p code

/-- The chunk is code whose last instruction starts less than four bytes before its end. -/
def endsShort (c : Chunk) : Bool :=
  c.isCode && match transpileRaw c.data with
    | .ok p _ => p
    | .error _ _ => false

/-- The progress after the chunk. -/
def advance (progress : Progress) (c : Chunk) : Progress where
  binarySize := max progress.binarySize c.endOffset
  needsPadding := if c.isCode then c.endsShort else if 2 ≤ c.data.length then false
    else progress.needsPadding

theorem image_length {c : Chunk} (h : c.Accepted) : c.image.length = c.data.length := by
  unfold image
  split_ifs with hcode
  · obtain ⟨p, code, hraw⟩ := h hcode
    rw [hraw]
    exact (transpileFrom_ok hraw rfl).1
  · rfl

/-- The patch of the output that writes the chunk. -/
def patch (c : Chunk) : ℕ × List U8 := (c.offset, c.image)

end Chunk

variable [ElfCrate]

/-- The crate gives as many bytes for a section of program data as its header says, and the
sizes in the headers of a 32-bit file have 32 bits. -/
structure Faithful (elf : Elf) (sections : List SectionHeader) : Prop where
  length_data : ∀ sec ∈ sections, sec.shType = shtProgbits →
    ∀ data, elf.sectionData sec = .ok (data, none) → data.length = sec.shSize.toNat
  size_lt : ∀ sec ∈ sections, sec.shSize.toNat < 2 ^ 32

section Results

variable {elf : Elf} {sec : SectionHeader} {output output' : List U8}

theorem attempt_ok {α : Type} {x : Except Fault α} {a : α} (h : attempt x output = .ok a output') :
    x = .ok a ∧ output' = output := by
  rw [attempt, reads_apply] at h
  cases x with
  | error e => cases h
  | ok b =>
    cases h
    exact ⟨rfl, rfl⟩

theorem attempt_of_ok {α : Type} {x : Except Fault α} {a : α} (h : x = .ok a) :
    attempt x output = .ok a output := by
  rw [attempt, reads_apply, h]

theorem attempt_of_error {α : Type} {x : Except Fault α} {e : Fault} (h : x = .error e) :
    attempt x output = .error e output := by
  rw [attempt, reads_apply, h]

theorem sectionData_ok {r : List U8 × Option ElfCrate.CompressionHeader}
    (h : sectionData elf sec = .ok r) : elf.sectionData sec = .ok r := by
  unfold sectionData at h
  cases hdata : elf.sectionData sec with
  | error e =>
    rw [hdata] at h
    cases h
  | ok r' =>
    rw [hdata] at h
    cases h
    rfl

theorem transpileRange_ok {offset endOffset : ℕ} {p : Bool}
    (h : transpileRange offset endOffset output = .ok p output') :
    offset ≤ endOffset ∧ endOffset ≤ output.length ∧
      ∃ code, transpileRaw (Lib.slice output offset (endOffset - offset)) = .ok p code ∧
        output' = Lib.splice output offset code := by
  rw [transpileRange, bind_ok (get_apply output)] at h
  split_ifs at h with hrange
  · refine ⟨hrange.1, hrange.2, ?_⟩
    rw [onPart_apply] at h
    cases hraw : transpileRaw (Lib.slice output offset (endOffset - offset)) with
    | error e code =>
      rw [hraw] at h
      cases h
    | ok p' code =>
      rw [hraw] at h
      cases h
      exact ⟨code, rfl, rfl⟩
  · cases h

end Results

/-- The sections of a 32-bit file have their data as long as the headers say. -/
def FaithfulFile (bytes : List U8) : Prop :=
  ∀ elf sections, ElfCrate.minimalParse bytes = .ok elf → elf.ehdr.elfClass = .elf32 →
    elf.sectionHeaders = some sections → Faithful elf sections

theorem Faithful.tail {elf : Elf} {sec : SectionHeader} {rest : List SectionHeader}
    (h : Faithful elf (sec :: rest)) : Faithful elf rest where
  length_data sec' hsec := h.length_data sec' (List.mem_cons_of_mem sec hsec)
  size_lt sec' hsec := h.size_lt sec' (List.mem_cons_of_mem sec hsec)

variable [Target]

/-- The loop goes past the section without placing it. -/
def Ignored (entry : U32) (segments : List ProgramHeader) (sec : SectionHeader) : Prop :=
  ¬IsLoaded sec ∨ ∃ pl, locate entry sec segments = .ok (some pl) ∧
    pl.endOffset = pl.paddr.toNat

section Chunks

variable (elf : Elf) (entry : U32) (segments : List ProgramHeader)

/-- The chunk of a section, when it is placed. -/
def chunk? (sec : SectionHeader) : Option Chunk :=
  if IsLoaded sec then
    match locate entry sec segments, elf.sectionData sec with
    | .ok (some pl), .ok (data, none) =>
      if pl.endOffset = pl.paddr.toNat then none else some ⟨pl.offset, data, IsCode sec⟩
    | _, _ => none
  else
    none

/-- The chunks of a file, in the order of its sections. -/
def chunks (sections : List SectionHeader) : List Chunk :=
  sections.filterMap (chunk? elf entry segments)

end Chunks

variable {elf : Elf} {entry : U32} {segments : List ProgramHeader} {sec : SectionHeader}
  {sections : List SectionHeader} {pl : Placement} {progress progress' : Progress}
  {output output' : List U8}

section Steps

omit [ElfCrate] in
theorem lt_usize {n : ℕ} (h : n < 2 ^ 32) : n < 2 ^ Target.usizeBits :=
  h.trans_le (Nat.pow_le_pow_right (by decide) Target.usizeBits_ge)

omit [ElfCrate] in
theorem asUsize_of_lt {x : U64} (h : x.toNat < 2 ^ 32) : asUsize x = x.toNat :=
  Nat.mod_eq_of_lt (lt_usize h)

theorem addUsize_value {x y z : ℕ} (h : addUsize x y = .ok z) :
    z = (x + y) % 2 ^ Target.usizeBits := by
  unfold addUsize wrapOrPanic at h
  split_ifs at h
  cases h
  rfl

theorem addUsize_lt {x y z : ℕ} (h : addUsize x y = .ok z) : z < 2 ^ Target.usizeBits := by
  rw [addUsize_value h]
  exact Nat.mod_lt _ (by positivity)

theorem addUsize_unique {x y z : ℕ} (h : addUsize x y = .ok z) (hle : x ≤ z)
    (hy : y < 2 ^ Target.usizeBits) : z = x + y := by
  have hx := hle.trans_lt (addUsize_lt h)
  have hz := addUsize_value h
  by_cases hlt : x + y < 2 ^ Target.usizeBits
  · rw [hz, Nat.mod_eq_of_lt hlt]
  · rw [Nat.mod_eq_sub_mod (by omega), Nat.mod_eq_of_lt (by omega)] at hz
    omega

/-- The range of a placed section. -/
theorem locate_range (h : locate entry sec segments = .ok (some pl)) :
    addUsize pl.offset (asUsize sec.shSize) = .ok pl.endOffset := by
  induction segments with
  | nil => cases h
  | cons segment rest ih =>
    obtain ⟨b, hcontains, h⟩ := Except.bind_eq_ok h
    cases b with
    | false => exact ih h
    | true =>
      obtain ⟨pl', hplace, h⟩ := Except.bind_eq_ok h
      cases h
      unfold place at hplace
      obtain ⟨inSegment, -, hplace⟩ := Except.bind_eq_ok hplace
      obtain ⟨paddr, -, hplace⟩ := Except.bind_eq_ok hplace
      obtain ⟨fromEntry, -, hplace⟩ := Except.bind_eq_ok hplace
      obtain ⟨blocks, -, hplace⟩ := Except.bind_eq_ok hplace
      obtain ⟨offset, -, hplace⟩ := Except.bind_eq_ok hplace
      obtain ⟨endOffset, hend, hplace⟩ := Except.bind_eq_ok hplace
      cases hplace
      exact hend

/-- What copying to the buffer does. -/
theorem copyAt_apply (offset : ℕ) (data output : List U8) :
    copyAt offset data output = match addUsize offset data.length with
      | .ok stop => if offset ≤ stop ∧ stop ≤ output.length then
          .ok ⟨⟩ (Lib.splice output offset data) else .error (.error .bufferTooSmall) output
      | .error e => .error e output := by
  rw [copyAt, bind_apply, attempt, reads_apply]
  cases addUsize offset data.length with
  | error e => rfl
  | ok stop =>
    dsimp only
    rw [bind_apply, get_apply]
    dsimp only
    split_ifs <;> rfl

theorem copyAt_ok {offset : ℕ} {data : List U8} (hdata : data.length < 2 ^ Target.usizeBits)
    (h : copyAt offset data output = .ok ⟨⟩ output') :
    addUsize offset data.length = .ok (offset + data.length) ∧
      offset + data.length ≤ output.length ∧ output' = Lib.splice output offset data := by
  rw [copyAt_apply] at h
  cases hstop : addUsize offset data.length with
  | error e =>
    rw [hstop] at h
    cases h
  | ok stop =>
    rw [hstop] at h
    dsimp only at h
    split_ifs at h with hrange
    cases h
    obtain rfl := addUsize_unique hstop hrange.1 hdata
    exact ⟨rfl, hrange.2, rfl⟩

omit [Target] in
theorem transpileSection_skipped (appendFn : AppendFn) (h : pl.endOffset = pl.paddr.toNat) :
    transpileSection appendFn elf sec pl progress output = .ok progress output := by
  rw [transpileSection, if_pos h]
  rfl

omit [Target] in
/-- A section with data appends them, and transpiles them where they are code. -/
theorem transpileSection_data (appendFn : AppendFn) {data : List U8}
    (hne : pl.endOffset ≠ pl.paddr.toNat) (hdata : sectionData elf sec = .ok (data, none)) :
    transpileSection appendFn elf sec pl progress = (do
      appendFn pl.offset data
      let needsPadding ← if IsCode sec then transpileRange pl.offset pl.endOffset
        else pure (if 2 ≤ data.length then false else progress.needsPadding)
      return (⟨if progress.binarySize < pl.endOffset then pl.endOffset
        else progress.binarySize, needsPadding⟩ : Progress)) := by
  funext output
  rw [transpileSection, if_neg hne]
  dsimp only
  rw [bind_ok (attempt_of_ok hdata)]
  by_cases hcode : IsCode sec
  · simp only [if_pos hcode]
  · simp only [if_neg hcode, pure_bind]

omit [Target] in
/-- The range of a section that was copied is its data. -/
theorem transpileRange_copied {endOffset : ℕ} {data : List U8}
    (hend : endOffset = pl.offset + data.length)
    (hroom : pl.offset + data.length ≤ output.length) :
    transpileRange pl.offset endOffset (Lib.splice output pl.offset data) =
      (transpileRaw data).mapState (Lib.splice (Lib.splice output pl.offset data) pl.offset) := by
  rw [transpileRange, bind_ok (get_apply _), hend, Lib.splice_length hroom,
    if_pos ⟨Nat.le_add_right _ _, hroom⟩, onPart_apply, Nat.add_sub_cancel_left,
    Lib.slice_splice hroom]

/-- Data that are copied to the range of their section fill it. -/
theorem copyAt_section_ok {data : List U8} (hf : Faithful elf (sec :: sections))
    (hloaded : IsLoaded sec) (hpl : locate entry sec segments = .ok (some pl))
    (hdata : elf.sectionData sec = .ok (data, none))
    (h : copyAt pl.offset data output = .ok ⟨⟩ output') :
    pl.endOffset = pl.offset + data.length ∧ pl.offset + data.length ≤ output.length ∧
      output' = Lib.splice output pl.offset data := by
  have hend := locate_range hpl
  have hsize := hf.size_lt sec List.mem_cons_self
  have hlength := hf.length_data sec List.mem_cons_self hloaded.1 data hdata
  obtain ⟨hstop, hroom, rfl⟩ := copyAt_ok (hlength ▸ lt_usize hsize) h
  rw [asUsize_of_lt hsize, ← hlength, hstop] at hend
  exact ⟨(Except.ok.inj hend).symm, hroom, rfl⟩

theorem chunk?_placed {data : List U8} (hloaded : IsLoaded sec)
    (hpl : locate entry sec segments = .ok (some pl)) (hne : pl.endOffset ≠ pl.paddr.toNat)
    (hdata : elf.sectionData sec = .ok (data, none)) :
    chunk? elf entry segments sec = some ⟨pl.offset, data, IsCode sec⟩ := by
  simp only [chunk?, if_pos hloaded, hpl, hdata, if_neg hne]

/-- A section that is not skipped patches the buffer with its chunk. -/
theorem transpileSection_copyAt_ok (hf : Faithful elf (sec :: sections)) (hloaded : IsLoaded sec)
    (hpl : locate entry sec segments = .ok (some pl)) (hne : pl.endOffset ≠ pl.paddr.toNat)
    (h : transpileSection copyAt elf sec pl progress output = .ok progress' output') :
    ∃ c, chunk? elf entry segments sec = some c ∧ c.Accepted ∧ c.offset = pl.offset ∧
      c.endOffset = pl.endOffset ∧ c.endOffset ≤ output.length ∧
      output' = Lib.splice output c.offset c.image ∧ progress' = c.advance progress := by
  rw [transpileSection, if_neg hne] at h
  dsimp only at h
  obtain ⟨⟨data, compression⟩, u, hattempt, h⟩ := bind_eq_ok h
  obtain ⟨hdata, rfl⟩ := attempt_ok hattempt
  have hdata' := sectionData_ok hdata
  cases compression with
  | some value => cases h
  | none =>
    dsimp only at h
    obtain ⟨_, middle, hcopy, h⟩ := bind_eq_ok h
    obtain ⟨hendOffset, hroom, rfl⟩ := copyAt_section_ok hf hloaded hpl hdata' hcopy
    have hchunk := chunk?_placed hloaded hpl hne hdata'
    have hmax (n m : ℕ) : (if n < m then m else n) = max n m := by
      rw [max_def_lt]
    by_cases hcode : IsCode sec
    · rw [if_pos hcode] at h
      obtain ⟨p, v, hrange, h⟩ := bind_eq_ok h
      cases h
      obtain ⟨-, -, code, hraw, rfl⟩ := transpileRange_ok hrange
      rw [hendOffset, Nat.add_sub_cancel_left, Lib.slice_splice hroom] at hraw
      have hcodeLength : code.length = data.length := (transpileFrom_ok hraw rfl).1
      refine ⟨_, hchunk, fun _ => ⟨p, code, hraw⟩, rfl, hendOffset.symm, hroom, ?_, ?_⟩
      · rw [Lib.splice_splice hroom hcodeLength]
        simp [Chunk.image, hcode, hraw]
      · simp [Chunk.advance, Chunk.endsShort, Chunk.endOffset, hcode, hraw, hendOffset, hmax]
    · rw [if_neg hcode] at h
      cases h
      refine ⟨_, hchunk, fun h => ?_, rfl, hendOffset.symm, hroom, ?_, ?_⟩
      · simp [hcode] at h
      · simp [Chunk.image, hcode]
      · simp [Chunk.advance, Chunk.endOffset, hcode, hendOffset, hmax]

/-- The step of the loop at a section that is not loaded, or skipped. -/
theorem transpileSections_ignored (appendFn : AppendFn) (index : ℕ)
    (h : Ignored entry segments sec) :
    transpileSections appendFn elf entry segments index (sec :: sections) progress output =
      transpileSections appendFn elf entry segments (index + 1) sections progress output := by
  rw [transpileSections]
  by_cases hloaded : IsLoaded sec
  · obtain ⟨pl, hpl, hskip⟩ := h.resolve_left (not_not.mpr hloaded)
    rw [if_pos hloaded, bind_ok (attempt_of_ok hpl)]
    dsimp only
    rw [bind_ok (transpileSection_skipped appendFn hskip)]
  · rw [if_neg hloaded]

/-- The step of the loop at a section that is placed. -/
theorem transpileSections_placed (appendFn : AppendFn) (index : ℕ) (hloaded : IsLoaded sec)
    (hpl : locate entry sec segments = .ok (some pl)) :
    transpileSections appendFn elf entry segments index (sec :: sections) progress =
      (do
        let progress ← transpileSection appendFn elf sec pl progress
        transpileSections appendFn elf entry segments (index + 1) sections progress) := by
  funext output
  rw [transpileSections, if_pos hloaded, bind_ok (attempt_of_ok hpl)]

/-- A loop that gets past a loaded section has placed it. -/
theorem transpileSections_located {appendFn : AppendFn} {index : ℕ} (hloaded : IsLoaded sec)
    (h : transpileSections appendFn elf entry segments index (sec :: sections) progress output =
      .ok progress' output') : ∃ pl, locate entry sec segments = .ok (some pl) := by
  rw [transpileSections, if_pos hloaded] at h
  obtain ⟨pl, u, hattempt, h⟩ := bind_eq_ok h
  obtain ⟨hpl, -⟩ := attempt_ok hattempt
  cases pl with
  | none => cases h
  | some pl => exact ⟨pl, hpl⟩

end Steps

section Runs

theorem chunk?_ignored (h : Ignored entry segments sec) : chunk? elf entry segments sec = none := by
  unfold chunk?
  by_cases hloaded : IsLoaded sec
  · obtain ⟨pl, hpl, hskip⟩ := h.resolve_left (not_not.mpr hloaded)
    rw [if_pos hloaded, hpl]
    split
    · rename_i heq _
      cases heq
      exact if_pos hskip
    · rfl
  · exact if_neg hloaded

/-- Every loaded section is placed, and is a chunk unless it is skipped. -/
def AllPlaced (elf : Elf) (entry : U32) (segments : List ProgramHeader)
    (sections : List SectionHeader) : Prop :=
  ∀ sec ∈ sections, IsLoaded sec → ∃ pl, locate entry sec segments = .ok (some pl) ∧
    (pl.endOffset ≠ pl.paddr.toNat → ∃ c, chunk? elf entry segments sec = some c ∧
      c.offset = pl.offset ∧ c.endOffset = pl.endOffset)

/-- The loop patches the buffer with the chunks, which all lie in it, and its progress is
the fold over them. -/
theorem transpileSections_copyAt_ok {index : ℕ} (hf : Faithful elf sections)
    (h : transpileSections copyAt elf entry segments index sections progress output =
      .ok progress' output') :
    output' = Lib.patch ((chunks elf entry segments sections).map Chunk.patch) output ∧
      progress' = (chunks elf entry segments sections).foldl Chunk.advance progress ∧
      (∀ c ∈ chunks elf entry segments sections, c.Accepted ∧ c.endOffset ≤ output.length) ∧
      AllPlaced elf entry segments sections := by
  induction sections generalizing index progress output with
  | nil =>
    cases h
    refine ⟨rfl, rfl, ?_, ?_⟩ <;> intro _ hmem <;> cases hmem
  | cons sec rest ih =>
    by_cases hignored : Ignored entry segments sec
    · rw [transpileSections_ignored copyAt index hignored] at h
      obtain ⟨houtput, hprogress, hchunks, hplaced⟩ := ih hf.tail h
      have hnone : chunk? elf entry segments sec = none := chunk?_ignored hignored
      rw [chunks, List.filterMap_cons_none hnone]
      refine ⟨houtput, hprogress, hchunks, ?_⟩
      intro sec' hmem hloaded
      rcases List.mem_cons.mp hmem with rfl | hrest
      · obtain ⟨pl, hpl, hskip⟩ := hignored.resolve_left (not_not.mpr hloaded)
        exact ⟨pl, hpl, fun hne => absurd hskip hne⟩
      · exact hplaced sec' hrest hloaded
    · have hloaded : IsLoaded sec := by
        by_contra hno
        exact hignored (.inl hno)
      obtain ⟨pl, hpl⟩ := transpileSections_located hloaded h
      have hne : pl.endOffset ≠ pl.paddr.toNat := fun hskip => hignored (.inr ⟨pl, hpl, hskip⟩)
      rw [transpileSections_placed copyAt index hloaded hpl] at h
      obtain ⟨progress₁, output₁, hsection, hrest⟩ := bind_eq_ok h
      obtain ⟨c, hc, haccepted, hoffset, hend, hroom, rfl, rfl⟩ :=
        transpileSection_copyAt_ok hf hloaded hpl hne hsection
      have hroom' : c.offset + c.image.length ≤ output.length := by
        rw [Chunk.image_length haccepted]
        exact hroom
      obtain ⟨houtput, hprogress, hchunks, hplaced⟩ := ih hf.tail hrest
      rw [Lib.splice_length hroom'] at hchunks
      rw [chunks, List.filterMap_cons_some hc]
      refine ⟨houtput, hprogress, ?_, ?_⟩
      · intro c' hmem
        rcases List.mem_cons.mp hmem with rfl | htail
        · exact ⟨haccepted, hroom⟩
        · exact hchunks c' htail
      · intro sec' hmem hloaded'
        rcases List.mem_cons.mp hmem with rfl | htail
        · exact ⟨pl, hpl, fun _ => ⟨c, hc, hoffset, hend⟩⟩
        · exact hplaced sec' htail hloaded'

omit [Target] in
theorem binarySize_foldl (cs : List Chunk) (progress : Progress) :
    (cs.foldl Chunk.advance progress).binarySize =
      (cs.map Chunk.endOffset).foldl max progress.binarySize := by
  induction cs generalizing progress with
  | nil => rfl
  | cons c cs ih =>
    rw [List.foldl_cons, ih, List.map_cons, List.foldl_cons]
    rfl

/-- The entry point of a file. -/
def entryPoint (elf : Elf) : U32 := elf.ehdr.eEntry.setWidth 32

/-- The sections of a file for the platform are transpiled. -/
theorem elfTranspilerImpl_of_parsed {bytes : List U8}
    (hparse : ElfCrate.minimalParse bytes = .ok elf) (hsegments : elf.segments = some segments)
    (hsections : elf.sectionHeaders = some sections) (hmachine : elf.ehdr.eMachine = emRiscv)
    (hclass : elf.ehdr.elfClass = .elf32) (appendFn : AppendFn) :
    elfTranspilerImpl appendFn bytes = (do
      let progress ← transpileSections appendFn elf (entryPoint elf) segments 0 sections ⟨0, false⟩
      addPadding appendFn progress) := by
  have hplatform : ¬(elf.ehdr.eMachine ≠ emRiscv ∨ elf.ehdr.elfClass ≠ .elf32) := by
    rw [hmachine, hclass]
    simp
  unfold elfTranspilerImpl
  rw [hparse]
  dsimp only
  rw [hsegments, hsections]
  dsimp only
  rw [if_neg hplatform]
  rfl

/-- A file is refused whatever the output is, or is one for the platform whose sections are
transpiled. -/
theorem elfTranspilerImpl_cases (bytes : List U8) :
    (∃ e, ∀ appendFn, elfTranspilerImpl appendFn bytes = throw (.error e)) ∨
      ∃ elf segments sections, ElfCrate.minimalParse bytes = .ok elf ∧
        elf.segments = some segments ∧ elf.sectionHeaders = some sections ∧
        elf.ehdr.eMachine = emRiscv ∧ elf.ehdr.elfClass = .elf32 ∧
        ∀ appendFn, elfTranspilerImpl appendFn bytes = (do
          let progress ← transpileSections appendFn elf (entryPoint elf) segments 0 sections
            ⟨0, false⟩
          addPadding appendFn progress) := by
  cases hparse : ElfCrate.minimalParse bytes with
  | error e =>
    refine .inl ⟨.errorParsingELF e, fun appendFn => ?_⟩
    rw [elfTranspilerImpl, hparse]
  | ok elf =>
    cases hsegments : elf.segments with
    | none =>
      refine .inl ⟨.noProgramHeader, fun appendFn => ?_⟩
      rw [elfTranspilerImpl, hparse]
      dsimp only
      rw [hsegments]
    | some segments =>
      cases hsections : elf.sectionHeaders with
      | none =>
        refine .inl ⟨.noSectionHeader, fun appendFn => ?_⟩
        rw [elfTranspilerImpl, hparse]
        dsimp only
        rw [hsegments, hsections]
      | some sections =>
        by_cases hplatform : elf.ehdr.eMachine ≠ emRiscv ∨ elf.ehdr.elfClass ≠ .elf32
        · refine .inl ⟨.invalidPlatform, fun appendFn => ?_⟩
          rw [elfTranspilerImpl, hparse]
          dsimp only
          rw [hsegments, hsections]
          exact if_pos hplatform
        · obtain ⟨hmachine, hclass⟩ := not_or.mp hplatform
          have hmachine := not_not.mp hmachine
          have hclass := not_not.mp hclass
          exact .inr ⟨elf, segments, sections, rfl, hsegments, hsections, hmachine, hclass,
            elfTranspilerImpl_of_parsed hparse hsegments hsections hmachine hclass⟩

/-- The end of the last chunk, in the order of the output. -/
def imageEnd (cs : List Chunk) : ℕ := (cs.map Chunk.endOffset).foldl max 0

/-- The binary needs padding after its chunks. -/
def needsPadding (cs : List Chunk) : Bool := (cs.foldl Chunk.advance ⟨0, false⟩).needsPadding

/-- What a successful transpilation of a file has done. -/
structure Transpiled (cs : List Chunk) (n : ℕ) (output output' : List U8) : Prop where
  size : n = imageEnd cs + if needsPadding cs then 2 else 0
  fits : n ≤ output.length
  content : output' = (if needsPadding cs then
    Lib.splice (Lib.patch (cs.map Chunk.patch) output) (imageEnd cs) [0, 0]
    else Lib.patch (cs.map Chunk.patch) output)
  chunks : ∀ c ∈ cs, c.Accepted ∧ c.endOffset ≤ output.length

section ImageEnd

omit [ElfCrate] [Target]

theorem foldl_max_le {xs : List ℕ} {n bound : ℕ} (hn : n ≤ bound) (h : ∀ x ∈ xs, x ≤ bound) :
    xs.foldl max n ≤ bound := by
  induction xs generalizing n with
  | nil => exact hn
  | cons x xs ih =>
    apply ih (max_le hn (h x List.mem_cons_self))
    intro y hy
    exact h y (List.mem_cons_of_mem x hy)

theorem le_foldl_max {xs : List ℕ} {n x : ℕ} (h : x ≤ n ∨ x ∈ xs) : x ≤ xs.foldl max n := by
  induction xs generalizing n with
  | nil => exact h.resolve_right List.not_mem_nil
  | cons y xs ih =>
    apply ih
    rcases h with h | h
    · exact .inl (h.trans (le_max_left n y))
    · rcases List.mem_cons.mp h with rfl | h
      · exact .inl (le_max_right n x)
      · exact .inr h

variable {cs : List Chunk}

theorem imageEnd_le {bound : ℕ} (h : ∀ c ∈ cs, c.endOffset ≤ bound) : imageEnd cs ≤ bound := by
  apply foldl_max_le (Nat.zero_le bound)
  intro x hx
  obtain ⟨c, hc, rfl⟩ := List.mem_map.mp hx
  exact h c hc

theorem endOffset_le_imageEnd {c : Chunk} (h : c ∈ cs) : c.endOffset ≤ imageEnd cs :=
  le_foldl_max (.inr (List.mem_map_of_mem h))

end ImageEnd

/-- What adding padding to a buffer does. -/
theorem addPadding_copyAt_ok {n : ℕ} (hroom : progress.binarySize ≤ output.length)
    (h : addPadding copyAt progress output = .ok n output') :
    n = progress.binarySize + (if progress.needsPadding then 2 else 0) ∧ n ≤ output.length ∧
      output' = if progress.needsPadding then Lib.splice output progress.binarySize [0, 0]
        else output := by
  unfold addPadding at h
  by_cases hp : progress.needsPadding = true
  · rw [if_pos hp] at h
    obtain ⟨_, padded, hcopy, hadd⟩ := bind_eq_ok h
    have htwo : [(0 : U8), 0].length < 2 ^ Target.usizeBits := lt_usize (by decide)
    obtain ⟨hstop, hend, rfl⟩ := copyAt_ok htwo hcopy
    obtain ⟨hn, rfl⟩ := attempt_ok hadd
    have hn' : n = progress.binarySize + 2 := Except.ok.inj (hn.symm.trans hstop)
    rw [if_pos hp, if_pos hp]
    exact ⟨hn', hn' ▸ hend, rfl⟩
  · rw [if_neg hp] at h
    cases h
    rw [if_neg hp, if_neg hp]
    exact ⟨rfl, hroom, rfl⟩

omit [Target] in
theorem Chunk.patch_fits {cs : List Chunk}
    (h : ∀ c ∈ cs, c.Accepted ∧ c.endOffset ≤ output.length) :
    ∀ p ∈ cs.map Chunk.patch, p.1 + p.2.length ≤ output.length := by
  intro p hp
  obtain ⟨c, hc, rfl⟩ := List.mem_map.mp hp
  obtain ⟨haccepted, hend⟩ := h c hc
  rw [Chunk.patch, Chunk.image_length haccepted]
  exact hend

namespace Transpiled

variable {n : ℕ}

omit [Target]

theorem imageEnd_le_size {cs : List Chunk} (h : Transpiled cs n output output') :
    imageEnd cs ≤ n := by
  rw [h.size]
  exact Nat.le_add_right _ _

theorem end_le {cs : List Chunk} {c : Chunk} (h : Transpiled cs n output output') (hc : c ∈ cs) :
    c.endOffset ≤ n :=
  (endOffset_le_imageEnd hc).trans h.imageEnd_le_size

/-- The padding does not reach what is before the end of the chunks. -/
theorem padding_fits {cs : List Chunk} (h : Transpiled cs n output output')
    (hp : needsPadding cs = true) :
    imageEnd cs + [(0 : U8), 0].length ≤ (Lib.patch (cs.map Chunk.patch) output).length := by
  have hfits := h.fits
  rw [h.size, if_pos hp] at hfits
  rw [Lib.patch_length (Chunk.patch_fits h.chunks)]
  exact hfits

/-- A chunk is found in the output unless a later one overlaps it. -/
theorem slice_eq {before after : List Chunk} {c : Chunk}
    (h : Transpiled (before ++ c :: after) n output output')
    (hdisjoint : ∀ d ∈ after, ∀ j, c.offset ≤ j → j < c.endOffset →
      j < d.offset ∨ d.endOffset ≤ j) :
    Lib.slice output' c.offset c.data.length = c.image := by
  have hmem : c ∈ before ++ c :: after := List.mem_append_right before List.mem_cons_self
  have himage := Chunk.image_length (h.chunks c hmem).1
  have hfit := Chunk.patch_fits h.chunks
  have hpatched : Lib.slice (Lib.patch ((before ++ c :: after).map Chunk.patch) output) c.offset
      c.data.length = c.image := by
    rw [List.map_append, List.map_cons] at hfit ⊢
    rw [← himage]
    refine Lib.slice_patch_self (p := c.patch) hfit ?_
    intro q hq k hstart hend
    obtain ⟨d, hd, rfl⟩ := List.mem_map.mp hq
    have hd' : d ∈ before ++ c :: after := List.mem_append_right _ (List.mem_cons_of_mem c hd)
    rw [Chunk.patch, Chunk.image_length (h.chunks d hd').1]
    rw [Chunk.patch, himage] at hend
    exact hdisjoint d hd k hstart hend
  rw [h.content]
  by_cases hp : needsPadding (before ++ c :: after) = true
  · rw [if_pos hp, Lib.slice_splice_of_disjoint (h.padding_fits hp)]
    · exact hpatched
    · exact .inl (endOffset_le_imageEnd hmem)
  · rw [if_neg hp]
    exact hpatched

/-- A byte outside the chunks and the padding is not changed. -/
theorem get_eq {cs : List Chunk} {j : ℕ} (h : Transpiled cs n output output')
    (hj : ∀ c ∈ cs, j < c.offset ∨ c.endOffset ≤ j) (hpadding : j < imageEnd cs ∨ n ≤ j) :
    output'[j]? = output[j]? := by
  have hpatched : (Lib.patch (cs.map Chunk.patch) output)[j]? = output[j]? := by
    apply Lib.patch_get (Chunk.patch_fits h.chunks)
    intro p hp
    obtain ⟨c, hc, rfl⟩ := List.mem_map.mp hp
    rw [Chunk.patch, Chunk.image_length (h.chunks c hc).1]
    exact hj c hc
  rw [h.content]
  by_cases hp : needsPadding cs = true
  · have hsize := h.size
    have htwo : [(0 : U8), 0].length = 2 := rfl
    rw [if_pos hp] at hsize
    rw [if_pos hp, Lib.splice_get (h.padding_fits hp), if_neg (by omega)]
    exact hpatched
  · rw [if_neg hp]
    exact hpatched

end Transpiled

/-- A transpilation that succeeds has patched the buffer with the chunks of the file. -/
theorem transpileElf_ok {bytes : List U8} {n : ℕ}
    (hparse : ElfCrate.minimalParse bytes = .ok elf) (hsegments : elf.segments = some segments)
    (hsections : elf.sectionHeaders = some sections) (hf : Faithful elf sections)
    (h : transpileElf bytes output = .ok n output') :
    Transpiled (chunks elf (entryPoint elf) segments sections) n output output' ∧
      AllPlaced elf (entryPoint elf) segments sections := by
  rcases elfTranspilerImpl_cases bytes with
    ⟨e, hfail⟩ | ⟨_, _, _, hparse', hsegments', hsections', -, -, hrun⟩
  · rw [transpileElf, hfail] at h
    cases h
  · cases hparse.symm.trans hparse'
    cases hsegments.symm.trans hsegments'
    cases hsections.symm.trans hsections'
    rw [transpileElf, hrun] at h
    obtain ⟨progress, middle, hloop, hpad⟩ := bind_eq_ok h
    obtain ⟨hmiddle, hprogress, hchunks, hplaced⟩ := transpileSections_copyAt_ok hf hloop
    refine ⟨?_, hplaced⟩
    generalize chunks elf (entryPoint elf) segments sections = cs at *
    have hsize : progress.binarySize = imageEnd cs := by
      rw [hprogress, binarySize_foldl]
      rfl
    have hneeds : progress.needsPadding = needsPadding cs := by rw [hprogress, needsPadding]
    have hlength : middle.length = output.length := by
      rw [hmiddle, Lib.patch_length (Chunk.patch_fits hchunks)]
    have hroom := imageEnd_le (fun c hc => (hchunks c hc).2)
    obtain ⟨hn, hfits, hcontent⟩ :=
      addPadding_copyAt_ok (hsize ▸ hlength ▸ hroom) hpad
    rw [hsize, hneeds] at hn hcontent
    rw [hmiddle] at hcontent
    exact ⟨hn, hlength ▸ hfits, hcontent, hchunks⟩

end Runs

section Linked

omit [ElfCrate] [Target]

/-- A segment that is loaded where it is linked. -/
def linkedSegment : ProgramHeader := ⟨0x10000, 0x10000, 14⟩

/-- Code, attributes that are not loaded, an empty section, data, and code of two bytes. -/
def linkedSections : List SectionHeader :=
  [⟨1, 6, 0x10000, 8, 4⟩, ⟨0x70000003, 0, 0, 3, 1⟩, ⟨1, 2, 0x1000C, 0, 4⟩, ⟨1, 3, 0x10008, 4, 4⟩,
    ⟨1, 6, 0x1000C, 2, 2⟩]

/-- A linked file: `addi a0, x0, 5` and `ecall`, four bytes of data, and `c.nop`. -/
def linkedElf : ElfBytes Unit Unit where
  ehdr := ⟨.elf32, emRiscv, 0x10000⟩
  segments := some [linkedSegment]
  sectionHeaders := some linkedSections
  sectionData sec := .ok (if sec.shAddr = 0x10000 then [0x13, 0x05, 0x50, 0x00, 0x73, 0, 0, 0]
    else if sec.shAddr = 0x10008 then [1, 2, 3, 4]
    else if sec.shSize = 2 then [0x01, 0x00] else [], none)

theorem faithfulFile_linked : letI := parsesTo linkedElf
    FaithfulFile [] := by
  let _ := parsesTo linkedElf
  rintro elf sections hparse - hsections
  cases hparse
  cases hsections
  constructor
  · rintro sec hsec htype data hdata
    cases hdata
    revert sec
    decide
  · decide

theorem chunks_linked : letI := Target.release64
    letI := parsesTo linkedElf
    chunks linkedElf 0x10000 [linkedSegment] linkedSections =
      [⟨0, [0x13, 0x05, 0x50, 0x00, 0x73, 0, 0, 0], true⟩, ⟨12, [], false⟩,
        ⟨8, [1, 2, 3, 4], false⟩, ⟨12, [0x01, 0x00], true⟩] := by
  with_unfolding_all rfl

theorem transpileElf_linked : letI := Target.release64
    letI := parsesTo linkedElf
    transpileElf [] (List.replicate 20 9) =
      .ok 16 [29, 40, 80, 0, 31, 0, 0, 0, 1, 2, 3, 4, 3, 0, 0, 0, 9, 9, 9, 9] := by
  with_unfolding_all rfl

end Linked

end Embive.Transpiler
