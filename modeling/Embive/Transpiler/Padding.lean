import Embive.Transpiler.Image

/-! # When the padding is missing

One flag says whether the binary needs padding, and every section with two bytes of data
or with code decides it anew, wherever it lies. The padding is added when the last such
section is code that ends short.
-/

namespace Embive.Transpiler

open EStateM

section Raw

variable [ElfCrate] {original code code' : List U8} {i n : ℕ}

theorem transpileFrom_padding {q : Bool}
    (hstarts : i + 2 ≤ original.length → Starts original i code)
    (h : transpileFrom original.length i q code = .ok true code') :
    q = true ∨ ∃ j, StartsAt original j ∧ original.length < j + 4 := by
  induction i, q using transpileFrom.induct original.length generalizing code with
  | case1 i q hi ih =>
    rw [transpileFrom, if_pos hi] at h
    obtain ⟨size, middle, hround, hrest⟩ := bind_eq_ok h
    have hcode := hstarts hi
    rcases ih size (fun hmore => hcode.next hround hmore) hrest with hq | hlater
    · rcases Bool.or_eq_true_iff.mp hq with hq | hlt
      · exact .inl hq
      · exact .inr ⟨i, ⟨code, hcode⟩, of_decide_eq_true hlt⟩
    · exact .inr hlater
  | case2 i q hi =>
    rw [transpileFrom_done q hi] at h
    cases h
    exact .inl rfl

/-- Padding is asked for when the last instruction starts less than four bytes before the
end. -/
theorem transpileRaw_padding_iff {p : Bool} (h : transpileRaw original = .ok p code') :
    p = true ↔ ∃ i, StartsAt original i ∧ original.length < i + 4 := by
  constructor
  · rintro rfl
    have hlater := transpileFrom_padding (fun hmore => .first (by omega)) h
    exact hlater.resolve_left Bool.false_ne_true
  · rintro ⟨i, ⟨code, hcode⟩, hlt⟩
    obtain ⟨r, -, -, -, hpadding⟩ := hcode.finished h
    exact hpadding hlt

end Raw

section Chunks

variable [ElfCrate] {cs : List Chunk}

namespace Chunk

/-- The chunk is code whose last instruction starts less than four bytes before its end. -/
def EndsShort (c : Chunk) : Prop :=
  c.isCode = true ∧ ∃ i, StartsAt c.data i ∧ c.data.length < i + 4

/-- The chunk leaves the flag alone. -/
def IsNeutral (c : Chunk) : Prop := c.isCode = false ∧ c.data.length < 2

theorem endsShort_iff {c : Chunk} (h : c.Accepted) : c.endsShort = true ↔ c.EndsShort := by
  unfold endsShort EndsShort
  rw [Bool.and_eq_true]
  apply and_congr_right
  intro hcode
  obtain ⟨p, code, hraw⟩ := h hcode
  rw [hraw]
  exact transpileRaw_padding_iff hraw

end Chunk

/-- The last chunk that is not neutral is code that ends short. -/
def PaddedLast (cs : List Chunk) : Prop :=
  ∃ before c after, cs = before ++ c :: after ∧ c.EndsShort ∧ ∀ d ∈ after, d.IsNeutral

theorem paddedLast_concat (c : Chunk) :
    PaddedLast (cs ++ [c]) ↔ c.EndsShort ∨ c.IsNeutral ∧ PaddedLast cs := by
  constructor
  · rintro ⟨before, d, after, heq, hshort, hneutral⟩
    rcases List.eq_nil_or_concat after with rfl | ⟨after, e, rfl⟩
    · obtain ⟨-, hlast⟩ := List.append_inj' heq rfl
      cases hlast
      exact .inl hshort
    · rw [List.concat_eq_append, ← List.cons_append, ← List.append_assoc] at heq
      obtain ⟨hcs, hlast⟩ := List.append_inj' heq rfl
      cases hlast
      rw [List.concat_eq_append] at hneutral
      refine .inr ⟨hneutral c (by simp), before, d, after, hcs, hshort, ?_⟩
      intro e he
      exact hneutral e (List.mem_append_left _ he)
  · rintro (hshort | ⟨hneutral, before, d, after, rfl, hshort, hrest⟩)
    · exact ⟨cs, c, [], rfl, hshort, by simp⟩
    · refine ⟨before, d, after ++ [c], by simp, hshort, ?_⟩
      intro e he
      rcases List.mem_append.mp he with he | he
      · exact hrest e he
      · rw [List.mem_singleton.mp he]
        exact hneutral

theorem needsPadding_iff (h : ∀ c ∈ cs, c.Accepted) : needsPadding cs = true ↔ PaddedLast cs := by
  induction cs using List.reverseRecOn with
  | nil =>
    refine iff_of_false Bool.false_ne_true ?_
    rintro ⟨before, c, after, heq, -⟩
    simp at heq
  | append_singleton cs c ih =>
    have haccepted := h c (by simp)
    have ih := ih (fun d hd => h d (List.mem_append_left _ hd))
    have hflag : needsPadding (cs ++ [c]) =
        if c.isCode then c.endsShort else if 2 ≤ c.data.length then false else needsPadding cs := by
      rw [needsPadding, List.foldl_append]
      rfl
    rw [hflag, paddedLast_concat]
    by_cases hcode : c.isCode = true
    · rw [if_pos hcode, Chunk.endsShort_iff haccepted]
      refine ⟨.inl, fun hor => hor.resolve_right ?_⟩
      rintro ⟨⟨hno, -⟩, -⟩
      rw [hcode] at hno
      cases hno
    · have hno : ¬c.EndsShort := fun hshort => hcode hshort.1
      rw [if_neg hcode, or_iff_right hno]
      by_cases hlength : 2 ≤ c.data.length
      · rw [if_pos hlength]
        refine iff_of_false Bool.false_ne_true ?_
        rintro ⟨⟨-, hlt⟩, -⟩
        omega
      · rw [if_neg hlength, ih]
        exact (and_iff_right ⟨Bool.not_eq_true _ ▸ hcode, by omega⟩).symm

end Chunks

section File

variable [ElfCrate] [Target] {elf : Elf} {segments : List ProgramHeader}
  {sections : List SectionHeader} {output output' : List U8}

/-- Every instruction that was converted starts at least four bytes before the end. -/
def Fetchable (cs : List Chunk) (stop : ℕ) : Prop :=
  ∀ c ∈ cs, c.isCode = true → ∀ i, StartsAt c.data i → c.offset + i + 4 ≤ stop

/-- Every converted instruction can be fetched if and only if the last section that is not
neutral is code that ends short, or none starts less than four bytes before the end of
all sections. -/
theorem fetchable_iff {bytes : List U8} {n : ℕ} (hparse : ElfCrate.minimalParse bytes = .ok elf)
    (hsegments : elf.segments = some segments) (hsections : elf.sectionHeaders = some sections)
    (hf : Faithful elf sections) (h : transpileElf bytes output = .ok n output') :
    Fetchable (chunks elf (entryPoint elf) segments sections) n ↔
      PaddedLast (chunks elf (entryPoint elf) segments sections) ∨
        Fetchable (chunks elf (entryPoint elf) segments sections)
          (imageEnd (chunks elf (entryPoint elf) segments sections)) := by
  obtain ⟨htranspiled, -⟩ := transpileElf_ok hparse hsegments hsections hf h
  generalize chunks elf (entryPoint elf) segments sections = cs at *
  have hsize := htranspiled.size
  rw [← needsPadding_iff (fun c hc => (htranspiled.chunks c hc).1)]
  by_cases hp : needsPadding cs = true
  · refine iff_of_true ?_ (.inl hp)
    rintro c hc - i ⟨code, hcode⟩
    have hi := hcode.intact.2.2
    have hend := endOffset_le_imageEnd hc
    rw [Chunk.endOffset] at hend
    rw [hsize, if_pos hp]
    omega
  · rw [or_iff_right hp, hsize, if_neg hp, Nat.add_zero]

end File

/-- A section with one `c.nop` at the end of the binary. -/
def nopSection : SectionHeader := ⟨1, 6, 4, 2, 2⟩

/-- A section with the four bytes before it. -/
def dataSection : SectionHeader := ⟨1, 2, 0, 4, 4⟩

/-- A segment that contains both. -/
def nopSegment : ProgramHeader := ⟨0, 0, 6⟩

/-- A file whose section table lists the code first. -/
def nopElf : ElfBytes Unit Unit where
  ehdr := ⟨.elf32, emRiscv, 0⟩
  segments := some [nopSegment]
  sectionHeaders := some [nopSection, dataSection]
  sectionData sec := .ok (if IsCode sec then [0x01, 0x00] else [0, 0, 0, 0], none)

theorem transpileElf_nop : letI := Target.release64
    letI := parsesTo nopElf
    transpileElf [] [0, 0, 0, 0, 0, 0, 0, 0] = .ok 6 [0, 0, 0, 0, 3, 0, 0, 0] := by
  with_unfolding_all rfl

theorem chunks_nop : letI := Target.release64
    letI := parsesTo nopElf
    chunks nopElf 0 [nopSegment] [nopSection, dataSection] =
      [⟨4, [0x01, 0x00], true⟩, ⟨0, [0, 0, 0, 0], false⟩] := by
  with_unfolding_all rfl

/-- The data after the code in the table take the padding away. -/
theorem nop_not_fetchable : letI := Target.release64
    letI := parsesTo nopElf
    transpileElf [] [0, 0, 0, 0, 0, 0, 0, 0] = .ok 6 [0, 0, 0, 0, 3, 0, 0, 0] ∧
      ¬Fetchable (chunks nopElf 0 [nopSegment] [nopSection, dataSection]) 6 := by
  let _ := Target.release64
  let _ := parsesTo nopElf
  refine ⟨transpileElf_nop, ?_⟩
  intro h
  rw [chunks_nop] at h
  have hstarts : StartsAt [0x01, 0x00] 0 := startsAt_nops 0 0
  exact absurd (h ⟨4, [0x01, 0x00], true⟩ List.mem_cons_self rfl 0 hstarts) (by decide)

theorem fetchable_iff_nop : letI := Target.release64
    letI := parsesTo nopElf
    Fetchable (chunks nopElf 0 [nopSegment] [nopSection, dataSection]) 6 ↔
      PaddedLast (chunks nopElf 0 [nopSegment] [nopSection, dataSection]) ∨
        Fetchable (chunks nopElf 0 [nopSegment] [nopSection, dataSection])
          (imageEnd (chunks nopElf 0 [nopSegment] [nopSection, dataSection])) := by
  let _ := Target.release64
  let _ := parsesTo nopElf
  have hf : Faithful nopElf [nopSection, dataSection] := by
    refine ⟨?_, by decide⟩
    rintro sec hsec - data hdata
    cases hdata
    rcases List.mem_pair.mp hsec with rfl | rfl <;> rfl
  exact fetchable_iff rfl rfl rfl hf transpileElf_nop

end Embive.Transpiler
