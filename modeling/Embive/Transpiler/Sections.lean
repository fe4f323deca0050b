import Embive.Transpiler.Image

/-! # Which sections are lost

A loaded section is skipped when its end, counted from the entry point, happens to be its
physical address. Every other section is found in the output at its offset.
-/

namespace Embive.Transpiler

open EStateM

variable [ElfCrate] [Target] {elf : Elf} {entry : U32} {segments : List ProgramHeader}
  {sections : List SectionHeader} {output output' : List U8}

/-- A section with data that belongs in the output, and its place there. -/
structure Belongs (entry : U32) (segments : List ProgramHeader) (sec : SectionHeader)
    (pl : Placement) : Prop where
  loaded : IsLoaded sec
  nonempty : sec.shSize.toNat ≠ 0
  located : locate entry sec segments = .ok (some pl)

/-- The offset is in the range of the section. -/
def InRange (sec : SectionHeader) (pl : Placement) (j : ℕ) : Prop :=
  pl.offset ≤ j ∧ j < pl.offset + sec.shSize.toNat

/-- The bytes of a section as they are in the output. -/
def IsImage (sec : SectionHeader) (data image : List U8) : Prop :=
  if IsCode sec then ∃ p, transpileRaw data = .ok p image else image = data

/-- The bytes of a binary of size `n` in the output are those of the sections. -/
structure NoSectionLost (elf : Elf) (entry : U32) (segments : List ProgramHeader)
    (sections : List SectionHeader) (n : ℕ) (output output' : List U8) : Prop where
  fits : n ≤ output.length
  written : ∀ before sec after pl, sections = before ++ sec :: after →
    Belongs entry segments sec pl →
    (∀ other ∈ before ++ after, ∀ pl', Belongs entry segments other pl' →
      ∀ j, InRange sec pl j → ¬InRange other pl' j) →
    pl.offset + sec.shSize.toNat ≤ n ∧
      ∃ data, elf.sectionData sec = .ok (data, none) ∧
        IsImage sec data (Lib.slice output' pl.offset sec.shSize.toNat)
  skipped : ∀ sec ∈ sections, ∀ pl, IsLoaded sec → locate entry sec segments = .ok (some pl) →
    pl.endOffset = pl.paddr.toNat → sec.shSize.toNat = 0
  untouched : ∃ stop, (n = stop ∨ n = stop + 2) ∧
    ∀ j, (∀ sec ∈ sections, ∀ pl, Belongs entry segments sec pl → ¬InRange sec pl j) →
      (j < stop ∨ n ≤ j) → output'[j]? = output[j]?

/-- The end of no section with data, counted from the entry point, is its physical address. -/
def NoneSkipped (entry : U32) (segments : List ProgramHeader) (sections : List SectionHeader) :
    Prop :=
  ∀ sec ∈ sections, ∀ pl, Belongs entry segments sec pl → pl.endOffset ≠ pl.paddr.toNat

theorem chunk?_eq_some {sec : SectionHeader} {c : Chunk}
    (h : chunk? elf entry segments sec = some c) :
    IsLoaded sec ∧ ∃ pl data, locate entry sec segments = .ok (some pl) ∧
      elf.sectionData sec = .ok (data, none) ∧ c = ⟨pl.offset, data, IsCode sec⟩ := by
  unfold chunk? at h
  split_ifs at h with hloaded
  split at h
  · next pl data hpl hdata =>
    split_ifs at h
    cases h
    exact ⟨hloaded, pl, data, hpl, hdata, rfl⟩
  · cases h

/-- A byte of a chunk lies in the range of a section with data. -/
theorem chunk_inRange (hf : Faithful elf sections) {c : Chunk} {j : ℕ}
    (hc : c ∈ chunks elf entry segments sections) (hstart : c.offset ≤ j)
    (hend : j < c.endOffset) :
    ∃ sec ∈ sections, ∃ pl, Belongs entry segments sec pl ∧ InRange sec pl j := by
  obtain ⟨sec, hmem, hchunk⟩ := List.mem_filterMap.mp hc
  obtain ⟨hloaded, pl, data, hpl, hdata, rfl⟩ := chunk?_eq_some hchunk
  have hlength := hf.length_data sec hmem hloaded.1 data hdata
  simp only [Chunk.endOffset] at hstart hend
  refine ⟨sec, hmem, pl, ⟨hloaded, by omega, hpl⟩, hstart, by omega⟩

omit [Target] in
theorem Faithful.append {before after : List SectionHeader}
    (h : Faithful elf (before ++ after)) : Faithful elf after where
  length_data sec hsec := h.length_data sec (List.mem_append_right before hsec)
  size_lt sec hsec := h.size_lt sec (List.mem_append_right before hsec)

omit [Target] in
theorem isImage_of_accepted {sec : SectionHeader} {offset : ℕ} {data : List U8}
    (h : Chunk.Accepted ⟨offset, data, IsCode sec⟩) :
    IsImage sec data (Chunk.image ⟨offset, data, IsCode sec⟩) := by
  unfold IsImage
  by_cases hcode : IsCode sec
  · obtain ⟨p, code, hraw⟩ := h (decide_eq_true hcode)
    rw [if_pos hcode]
    refine ⟨p, ?_⟩
    have himage : Chunk.image ⟨offset, data, IsCode sec⟩ = code := by
      simp only [Chunk.image, hcode, decide_true, if_true]
      rw [hraw]
      rfl
    rw [himage]
    exact hraw
  · rw [if_neg hcode]
    simp [Chunk.image, hcode]

/-- The bytes of a section that is not skipped are found in the output. -/
theorem written_of_placed {n : ℕ} {before after : List SectionHeader} {sec : SectionHeader}
    {pl : Placement} (hf : Faithful elf (before ++ sec :: after))
    (h : Transpiled (chunks elf entry segments (before ++ sec :: after)) n output output')
    (hplaced : AllPlaced elf entry segments (before ++ sec :: after))
    (hbelongs : Belongs entry segments sec pl) (hne : pl.endOffset ≠ pl.paddr.toNat)
    (hdisjoint : ∀ other ∈ after, ∀ pl', Belongs entry segments other pl' →
      ∀ j, InRange sec pl j → ¬InRange other pl' j) :
    pl.offset + sec.shSize.toNat ≤ n ∧ ∃ data, elf.sectionData sec = .ok (data, none) ∧
      IsImage sec data (Lib.slice output' pl.offset sec.shSize.toNat) := by
  have hmem : sec ∈ before ++ sec :: after := List.mem_append_right before List.mem_cons_self
  obtain ⟨pl', hpl', hchunk⟩ := hplaced sec hmem hbelongs.loaded
  rw [hbelongs.located] at hpl'
  cases hpl'
  obtain ⟨c, hc, -, -⟩ := hchunk hne
  obtain ⟨-, pl', data, hpl', hdata, rfl⟩ := chunk?_eq_some hc
  rw [hbelongs.located] at hpl'
  cases hpl'
  have hlength := hf.length_data sec hmem hbelongs.loaded.1 data hdata
  rw [chunks, List.filterMap_append, List.filterMap_cons_some hc] at h
  rw [← hlength]
  refine ⟨?_, data, hdata, ?_⟩
  · exact h.end_le (c := ⟨pl.offset, data, IsCode sec⟩)
      (List.mem_append_right _ List.mem_cons_self)
  · have haccepted := (h.chunks _ (List.mem_append_right _ List.mem_cons_self)).1
    have hslice := h.slice_eq (by
      intro d hd j hstart hend
      by_contra hin
      obtain ⟨other, hother, pl', hbelongs', hrange⟩ :=
        chunk_inRange (j := j) hf.append.tail hd (by omega) (by omega)
      rw [Chunk.endOffset, hlength] at hend
      exact hdisjoint other hother pl' hbelongs' j ⟨hstart, hend⟩ hrange)
    dsimp only at hslice
    rw [hslice]
    exact isImage_of_accepted haccepted

/-- When the file is transpiled, no section is lost if and only if the end of none that
has data, counted from the entry point, is its physical address. -/
theorem noSectionLost_iff {bytes : List U8} {n : ℕ}
    (hparse : ElfCrate.minimalParse bytes = .ok elf) (hsegments : elf.segments = some segments)
    (hsections : elf.sectionHeaders = some sections) (hf : Faithful elf sections)
    (h : transpileElf bytes output = .ok n output') :
    NoSectionLost elf (entryPoint elf) segments sections n output output' ↔
      NoneSkipped (entryPoint elf) segments sections := by
  obtain ⟨htranspiled, hplaced⟩ := transpileElf_ok hparse hsegments hsections hf h
  constructor
  · intro hlost sec hmem pl hbelongs hskip
    exact hbelongs.nonempty (hlost.skipped sec hmem pl hbelongs.loaded hbelongs.located hskip)
  · intro hnone
    refine ⟨htranspiled.fits, ?_, ?_, ?_⟩
    · rintro before sec after pl rfl hbelongs hdisjoint
      have hmem : sec ∈ before ++ sec :: after := List.mem_append_right before List.mem_cons_self
      apply written_of_placed hf htranspiled hplaced hbelongs (hnone sec hmem pl hbelongs)
      intro other hother
      exact hdisjoint other (List.mem_append_right before hother)
    · intro sec hmem pl hloaded hpl hskip
      by_contra hne
      exact hnone sec hmem pl ⟨hloaded, hne, hpl⟩ hskip
    · refine ⟨imageEnd (chunks elf (entryPoint elf) segments sections), ?_, ?_⟩
      · rw [htranspiled.size]
        by_cases hp : needsPadding (chunks elf (entryPoint elf) segments sections) = true
        · exact .inr (by rw [if_pos hp])
        · exact .inl (by rw [if_neg hp, Nat.add_zero])
      · intro j hj hstop
        apply htranspiled.get_eq _ hstop
        intro c hc
        by_contra hin
        obtain ⟨sec, hmem, pl, hbelongs, hrange⟩ :=
          chunk_inRange (j := j) hf hc (by omega) (by omega)
        exact hj sec hmem pl hbelongs hrange

/-- A section of four bytes whose end, counted from the entry point four, is its address. -/
def skippedSection : SectionHeader := ⟨1, 2, 4, 4, 4⟩

/-- A segment that contains it. -/
def skippedSegment : ProgramHeader := ⟨4, 4, 4⟩

omit [ElfCrate] [Target] in
theorem skippedSection_lost :
    letI := Target.release64
    letI := parsesTo (zeroElf 4 [skippedSegment] [skippedSection])
    transpileElf [] [0xFF, 0xFF, 0xFF, 0xFF] = .ok 0 [0xFF, 0xFF, 0xFF, 0xFF] ∧
      ¬NoSectionLost (zeroElf 4 [skippedSegment] [skippedSection]) 4 [skippedSegment]
        [skippedSection] 0 [0xFF, 0xFF, 0xFF, 0xFF] [0xFF, 0xFF, 0xFF, 0xFF] := by
  let _ := Target.release64
  let _ := parsesTo (zeroElf 4 [skippedSegment] [skippedSection])
  refine ⟨rfl, ?_⟩
  intro h
  have hbelongs : Belongs 4 [skippedSegment] skippedSection ⟨4, 0, 4⟩ :=
    ⟨by decide, by decide, rfl⟩
  obtain ⟨hle, -⟩ := h.written [] skippedSection [] ⟨4, 0, 4⟩ rfl hbelongs (by simp)
  exact absurd hle (by decide)

theorem noneSkipped_nil (entry : U32) (segments : List ProgramHeader) :
    NoneSkipped entry segments [] := by
  intro sec hsec
  cases hsec

theorem noneSkipped_cons {sec : SectionHeader} {rest : List SectionHeader}
    (h : ∀ pl, Belongs entry segments sec pl → pl.endOffset ≠ pl.paddr.toNat)
    (hrest : NoneSkipped entry segments rest) : NoneSkipped entry segments (sec :: rest) := by
  intro other hother pl hbelongs
  rcases List.mem_cons.mp hother with rfl | hmem
  · exact h pl hbelongs
  · exact hrest other hmem pl hbelongs

omit [ElfCrate] [Target] in
theorem noneSkipped_linked : letI := Target.release64
    letI := parsesTo linkedElf
    NoneSkipped 0x10000 [linkedSegment] linkedSections := by
  let _ := Target.release64
  let _ := parsesTo linkedElf
  have hcode : locate 0x10000 ⟨1, 6, 0x10000, 8, 4⟩ [linkedSegment] =
      .ok (some ⟨0x10000, 0, 8⟩) := by
    with_unfolding_all rfl
  have hdata : locate 0x10000 ⟨1, 3, 0x10008, 4, 4⟩ [linkedSegment] =
      .ok (some ⟨0x10008, 8, 12⟩) := by
    with_unfolding_all rfl
  have hlast : locate 0x10000 ⟨1, 6, 0x1000C, 2, 2⟩ [linkedSegment] =
      .ok (some ⟨0x1000C, 12, 14⟩) := by
    with_unfolding_all rfl
  apply noneSkipped_cons
  · intro pl h
    cases hcode.symm.trans h.located
    decide
  apply noneSkipped_cons
  · intro pl h
    exact absurd h.loaded (by decide)
  apply noneSkipped_cons
  · intro pl h
    exact absurd rfl h.nonempty
  apply noneSkipped_cons
  · intro pl h
    cases hdata.symm.trans h.located
    decide
  apply noneSkipped_cons
  · intro pl h
    cases hlast.symm.trans h.located
    decide
  exact noneSkipped_nil _ _

omit [ElfCrate] [Target] in
theorem noSectionLost_iff_linked :
    letI := Target.release64
    letI := parsesTo linkedElf
    NoSectionLost linkedElf 0x10000 [linkedSegment] linkedSections 16 (List.replicate 20 9)
      [29, 40, 80, 0, 31, 0, 0, 0, 1, 2, 3, 4, 3, 0, 0, 0, 9, 9, 9, 9] := by
  let _ := Target.release64
  let _ := parsesTo linkedElf
  have hf : Faithful linkedElf linkedSections := faithfulFile_linked linkedElf _ rfl rfl rfl
  exact (noSectionLost_iff rfl rfl rfl hf transpileElf_linked).mpr noneSkipped_linked

end Embive.Transpiler
