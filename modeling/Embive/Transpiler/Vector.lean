import Embive.Transpiler.Sections

/-! # The buffer and the vector

The buffer takes every section at its offset and the vector takes it at its end, where the
loop then transpiles by offset in both. They agree where every section follows on what has
been written before it, or the file is refused after nothing but data were misplaced.
-/

namespace Embive.Transpiler

open EStateM

variable [ElfCrate]

/-- The data of the chunk go to the end of a vector of this length, and code is inside it. -/
def Chunk.Follows (c : Chunk) (length : ℕ) : Prop :=
  c.offset = length ∨ c.data = [] ∧ (c.isCode = true → c.offset ≤ length)

/-- The vector has the bytes of the buffer up to its length. -/
structure Mirrors (output vector : List U8) : Prop where
  content : vector = output.take vector.length
  fits : vector.length ≤ output.length

section Agreement

variable {α β : Type} {R : α → List U8 → List U8 → Prop} {S : β → List U8 → List U8 → Prop}
  {output vector : List U8}

/-- A result with the vector is that with the buffer, and the outputs are related, unless the
buffer failed for the lack of room or panicked. -/
def Agrees (R : α → List U8 → List U8 → Prop) (x y : Result Fault (List U8) α) : Prop :=
  match x with
  | .ok a output => ∃ vector, y = .ok a vector ∧ R a output vector
  | .error (.error e) _ => e ≠ .bufferTooSmall → ∃ vector, y = .error (.error e) vector
  | .error .panic _ => True

theorem agrees_ok {a : α} (h : R a output vector) : Agrees R (.ok a output) (.ok a vector) :=
  ⟨vector, rfl, h⟩

theorem agrees_error {e : Fault} : Agrees R (.error e output) (.error e vector) := by
  cases e with
  | error e => exact fun _ => ⟨vector, rfl⟩
  | panic => trivial

theorem Agrees.bind {x y : EStateM Fault (List U8) α} {f g : α → EStateM Fault (List U8) β}
    (h : Agrees R (x output) (y vector))
    (hf : ∀ a output' vector', x output = .ok a output' → R a output' vector' →
      Agrees S (f a output') (g a vector')) :
    Agrees S ((x >>= f) output) ((y >>= g) vector) := by
  cases hx : x output with
  | ok a output' =>
    rw [hx] at h
    obtain ⟨vector', hy, hr⟩ := h
    rw [bind_ok hx, bind_ok hy]
    exact hf a output' vector' hx hr
  | error e output' =>
    rw [hx] at h
    rw [bind_error hx]
    cases e with
    | panic => trivial
    | error e =>
      intro hroom
      obtain ⟨vector', hy⟩ := h hroom
      exact ⟨vector', bind_error hy _⟩

theorem Agrees.imp {T : α → List U8 → List U8 → Prop} {x y : Result Fault (List U8) α}
    (h : Agrees R x y) (hT : ∀ a output' vector', R a output' vector' → T a output' vector') :
    Agrees T x y := by
  cases x with
  | ok a output' =>
    obtain ⟨vector', hy, hr⟩ := h
    exact ⟨vector', hy, hT a output' vector' hr⟩
  | error e output' =>
    cases e with
    | panic => trivial
    | error e => exact h

/-- What does not depend on the output gives the same with both. -/
theorem attempt_agrees (x : Except Fault α) :
    Agrees (fun a output' vector' => x = .ok a ∧ output = output' ∧ vector = vector')
      (attempt x output) (attempt x vector) := by
  cases x with
  | ok a => exact agrees_ok ⟨rfl, rfl, rfl⟩
  | error e => exact agrees_error

end Agreement

variable [Target]

section Appending

variable {output vector data : List U8} {offset endOffset : ℕ}

/-- Copying to the buffer fails for the lack of room, or panics. -/
theorem copyAt_error {output' : List U8} {e : Fault}
    (h : copyAt offset data output = .error e output') :
    e = .panic ∨ e = .error .bufferTooSmall := by
  rw [copyAt_apply] at h
  unfold addUsize wrapOrPanic at h
  by_cases hstop : offset + data.length < 2 ^ Target.usizeBits ∨ Target.overflowChecks = false
  · rw [if_pos hstop] at h
    dsimp only at h
    split_ifs at h
    cases h
    exact .inr rfl
  · rw [if_neg hstop] at h
    cases h
    exact .inl rfl

/-- The vector always has room for what the buffer takes. -/
theorem copyAt_agrees : Agrees (fun _ output' vector' =>
      copyAt offset data output = .ok ⟨⟩ output' ∧ vector' = vector ++ data)
    (copyAt offset data output) (extend offset data vector) := by
  cases hcopy : copyAt offset data output with
  | ok a output' => exact ⟨vector ++ data, rfl, rfl, rfl⟩
  | error e output' =>
    rcases copyAt_error hcopy with rfl | rfl
    · trivial
    · exact fun hroom => absurd rfl hroom

omit [ElfCrate] [Target] in
/-- What is copied to the end of the vector, or is empty, is appended. -/
theorem Mirrors.append (h : Mirrors output vector) (hroom : offset + data.length ≤ output.length)
    (hfollows : offset = vector.length ∨ data = []) :
    Mirrors (Lib.splice output offset data) (vector ++ data) := by
  have hlength := Lib.splice_length hroom
  rcases hfollows with rfl | rfl
  · constructor
    · rw [List.length_append, Lib.splice_take hroom, ← h.content]
    · rw [List.length_append, hlength]
      exact hroom
  · rw [Lib.splice_nil, List.append_nil]
    exact h

omit [Target] in
/-- Transpiling a range inside the vector is transpiling it in the buffer. -/
theorem Mirrors.transpileRange (h : Mirrors output vector) (hle : offset ≤ endOffset)
    (hend : endOffset ≤ vector.length) :
    Agrees (fun _ output' vector' => Mirrors output' vector' ∧ vector'.length = vector.length)
      (transpileRange offset endOffset output) (transpileRange offset endOffset vector) := by
  obtain ⟨hcontent, hfits⟩ := h
  have hslice : Lib.slice vector offset (endOffset - offset) =
      Lib.slice output offset (endOffset - offset) := by
    rw [hcontent, Lib.slice_take]
    omega
  rw [Transpiler.transpileRange, bind_ok (get_apply output), bind_ok (get_apply vector),
    if_pos ⟨hle, hend.trans hfits⟩, if_pos ⟨hle, hend⟩, onPart_apply, onPart_apply, hslice]
  cases hraw : transpileRaw (Lib.slice output offset (endOffset - offset)) with
  | error e code => exact agrees_error
  | ok p code =>
    have hlength : code.length = endOffset - offset := by
      rw [(transpileFrom_ok hraw rfl).1, Lib.slice_length (by omega)]
    have hvector : (Lib.splice vector offset code).length = vector.length :=
      Lib.splice_length (by omega)
    apply agrees_ok
    refine ⟨⟨?_, ?_⟩, hvector⟩
    · rw [hvector, ← Lib.splice_of_take (by omega) (by omega), ← hcontent]
    · rw [hvector, Lib.splice_length (by omega)]
      exact hfits

end Appending

section Contiguity

variable (elf : Elf) (entry : U32) (segments : List ProgramHeader)

/-- Some section makes the loop fail, and no code is placed before it. -/
def FailsOverData : List SectionHeader → Prop
  | [] => False
  | sec :: rest =>
    (Ignored entry segments sec → FailsOverData rest) ∧
    ∀ c, chunk? elf entry segments sec = some c → c.isCode = false ∧ FailsOverData rest

/-- Every section that the loop places, the vector being this long and the binary of this size
so far, follows on those before it, and the vector ends up as long as the binary. A section of
data may be out of its place when the loop fails before any code. -/
def Contiguous : ℕ → ℕ → List SectionHeader → Prop
  | length, size, [] => size = length
  | length, size, sec :: rest =>
    (Ignored entry segments sec → Contiguous length size rest) ∧
    ∀ c, chunk? elf entry segments sec = some c →
      c.Follows length ∧
        (c.Accepted → Contiguous (length + c.data.length) (max size c.endOffset) rest) ∨
      c.isCode = false ∧ FailsOverData elf entry segments rest

end Contiguity

variable {elf : Elf} {entry : U32} {segments : List ProgramHeader} {sec : SectionHeader}
  {sections : List SectionHeader} {pl : Placement} {progress : Progress}
  {output vector : List U8}

section Sections

variable (hloaded : IsLoaded sec) (hpl : locate entry sec segments = .ok (some pl))
  (hne : pl.endOffset ≠ pl.paddr.toNat)

include hloaded hpl hne

/-- The vector takes a section of data as the buffer does. -/
theorem transpileSection_data_agrees
    (hdata : ∀ c, chunk? elf entry segments sec = some c → c.isCode = false) :
    Agrees (fun _ _ _ => ∃ c, chunk? elf entry segments sec = some c)
      (transpileSection copyAt elf sec pl progress output)
      (transpileSection extend elf sec pl progress vector) := by
  rw [transpileSection, transpileSection, if_neg hne, if_neg hne]
  apply (attempt_agrees _).bind
  rintro ⟨data, compression⟩ output' vector' - ⟨hsection, rfl, rfl⟩
  cases compression with
  | some value => exact agrees_error
  | none =>
    have hchunk := chunk?_placed hloaded hpl hne (sectionData_ok hsection)
    have hcode : ¬IsCode sec := of_decide_eq_false (hdata _ hchunk)
    apply copyAt_agrees.bind
    rintro _ output' vector' - -
    rw [if_neg hcode]
    exact agrees_ok ⟨_, hchunk⟩

/-- The vector mirrors the buffer over a section that follows on what is there. -/
theorem transpileSection_mirrors (progress : Progress) (hf : Faithful elf (sec :: sections))
    (h : Mirrors output vector)
    (hfollows : ∀ c, chunk? elf entry segments sec = some c → c.Follows vector.length) :
    Agrees (fun _ output' vector' => Mirrors output' vector' ∧
        ∀ c, chunk? elf entry segments sec = some c →
          vector'.length = vector.length + c.data.length)
      (transpileSection copyAt elf sec pl progress output)
      (transpileSection extend elf sec pl progress vector) := by
  rw [transpileSection, transpileSection, if_neg hne, if_neg hne]
  apply (attempt_agrees _).bind
  rintro ⟨data, compression⟩ output' vector' - ⟨hsection, rfl, rfl⟩
  cases compression with
  | some value => exact agrees_error
  | none =>
    have hdata := sectionData_ok hsection
    have hchunk := chunk?_placed hloaded hpl hne hdata
    have hfollows := hfollows _ hchunk
    have hlast : ∀ c, chunk? elf entry segments sec = some c →
        (vector ++ data).length = vector.length + c.data.length := by
      intro c hc
      cases hchunk.symm.trans hc
      exact List.length_append
    apply copyAt_agrees.bind
    rintro _ _ _ - ⟨hcopy, rfl⟩
    obtain ⟨hend, hroom, rfl⟩ := copyAt_section_ok hf hloaded hpl hdata hcopy
    have hmirror := h.append hroom (hfollows.imp_right And.left)
    by_cases hcode : IsCode sec
    · rw [if_pos hcode]
      have hinside : pl.endOffset ≤ (vector ++ data).length := by
        rw [hend, List.length_append]
        rcases hfollows with hoffset | ⟨-, hoffset⟩
        · exact Nat.add_le_add_right hoffset.le _
        · exact Nat.add_le_add_right (hoffset (decide_eq_true hcode)) _
      apply (hmirror.transpileRange (hend ▸ Nat.le_add_right _ _) hinside).bind
      rintro p output' vector' - ⟨hmirror', hlength⟩
      apply agrees_ok
      refine ⟨hmirror', ?_⟩
      intro c hc
      rw [hlength, hlast c hc]
    · rw [if_neg hcode]
      exact agrees_ok ⟨hmirror, hlast⟩

end Sections

/-- A section that is not ignored makes the loop fail, or is placed. -/
theorem transpileSections_agrees {index : ℕ} {R : Progress → List U8 → List U8 → Prop}
    (hignored : ¬Ignored entry segments sec)
    (hplaced : ∀ pl, IsLoaded sec → locate entry sec segments = .ok (some pl) →
      pl.endOffset ≠ pl.paddr.toNat →
      Agrees R
        ((transpileSection copyAt elf sec pl progress >>= transpileSections copyAt elf entry
          segments (index + 1) sections) output)
        ((transpileSection extend elf sec pl progress >>= transpileSections extend elf entry
          segments (index + 1) sections) vector)) :
    Agrees R (transpileSections copyAt elf entry segments index (sec :: sections) progress output)
      (transpileSections extend elf entry segments index (sec :: sections) progress vector) := by
  have hloaded : IsLoaded sec := by
    by_contra hno
    exact hignored (.inl hno)
  rw [transpileSections, transpileSections, if_pos hloaded, if_pos hloaded]
  apply (attempt_agrees _).bind
  rintro pl _ _ - ⟨hpl, rfl, rfl⟩
  cases pl with
  | none => exact agrees_error
  | some pl =>
    apply hplaced pl hloaded hpl
    intro hskip
    exact hignored (.inr ⟨pl, hpl, hskip⟩)

/-- Both fail alike when only data are placed before the loop fails. -/
theorem transpileSections_fails {index : ℕ} (h : FailsOverData elf entry segments sections) :
    Agrees (fun _ _ _ => False)
      (transpileSections copyAt elf entry segments index sections progress output)
      (transpileSections extend elf entry segments index sections progress vector) := by
  induction sections generalizing index progress output vector with
  | nil => exact h.elim
  | cons sec rest ih =>
    obtain ⟨hrest, hplaced⟩ := h
    by_cases hignored : Ignored entry segments sec
    · rw [transpileSections_ignored copyAt index hignored,
        transpileSections_ignored extend index hignored]
      exact ih (hrest hignored)
    · apply transpileSections_agrees hignored
      intro pl hloaded hpl hne
      apply (transpileSection_data_agrees hloaded hpl hne (fun c hc => (hplaced c hc).1)).bind
      rintro progress' output' vector' - ⟨c, hc⟩
      exact ih (hplaced c hc).2

/-- The vector mirrors the buffer over sections that follow on each other. -/
theorem transpileSections_mirrors {index : ℕ} (hf : Faithful elf sections)
    (h : Mirrors output vector)
    (hcontiguous : Contiguous elf entry segments vector.length progress.binarySize sections) :
    Agrees (fun progress' output' vector' =>
        Mirrors output' vector' ∧ progress'.binarySize = vector'.length)
      (transpileSections copyAt elf entry segments index sections progress output)
      (transpileSections extend elf entry segments index sections progress vector) := by
  induction sections generalizing index progress output vector with
  | nil => exact agrees_ok ⟨h, hcontiguous⟩
  | cons sec rest ih =>
    obtain ⟨hrest, hplaced⟩ := hcontiguous
    by_cases hignored : Ignored entry segments sec
    · rw [transpileSections_ignored copyAt index hignored,
        transpileSections_ignored extend index hignored]
      exact ih hf.tail h (hrest hignored)
    · by_cases hfails : ∃ c, chunk? elf entry segments sec = some c ∧ c.isCode = false ∧
          FailsOverData elf entry segments rest
      · obtain ⟨c, hc, hcode, hfails⟩ := hfails
        have hover : FailsOverData elf entry segments (sec :: rest) := by
          refine ⟨fun hno => absurd hno hignored, ?_⟩
          intro d hd
          cases hc.symm.trans hd
          exact ⟨hcode, hfails⟩
        apply (transpileSections_fails hover).imp
        intro _ _ _ h
        exact h.elim
      · have hfollows : ∀ c, chunk? elf entry segments sec = some c → c.Follows vector.length ∧
            (c.Accepted → Contiguous elf entry segments (vector.length + c.data.length)
              (max progress.binarySize c.endOffset) rest) :=
          fun c hc => (hplaced c hc).resolve_right (fun hno => hfails ⟨c, hc, hno⟩)
        apply transpileSections_agrees hignored
        intro pl hloaded hpl hne
        apply (transpileSection_mirrors hloaded hpl hne _ hf h (fun c hc => (hfollows c hc).1)).bind
        rintro progress' output' vector' hsection ⟨hmirrors, hlength⟩
        obtain ⟨c, hc, haccepted, -, -, -, -, rfl⟩ :=
          transpileSection_copyAt_ok hf hloaded hpl hne hsection
        apply ih hf.tail hmirrors
        rw [hlength c hc]
        exact (hfollows c hc).2 haccepted

/-- The padding goes to the end of the vector. -/
theorem addPadding_mirrors (h : Mirrors output vector)
    (hsize : progress.binarySize = vector.length) :
    Agrees (fun n output' vector' => vector' = output'.take n)
      (addPadding copyAt progress output) (addPadding extend progress vector) := by
  unfold addPadding
  by_cases hp : progress.needsPadding = true
  · rw [if_pos hp, if_pos hp]
    have htwo : [(0 : U8), 0].length < 2 ^ Target.usizeBits := lt_usize (by decide)
    apply copyAt_agrees.bind
    rintro _ _ _ - ⟨hcopy, rfl⟩
    obtain ⟨hstop, hroom, rfl⟩ := copyAt_ok htwo hcopy
    have hadd : addUsize progress.binarySize 2 = .ok (progress.binarySize + 2) := hstop
    have hlength : (vector ++ [(0 : U8), 0]).length = progress.binarySize + 2 := by
      rw [List.length_append, hsize]
      rfl
    rw [attempt_of_ok hadd, attempt_of_ok hadd, ← hlength]
    exact agrees_ok (h.append hroom (.inl hsize)).content
  · rw [if_neg hp, if_neg hp]
    exact agrees_ok (hsize ▸ h.content)

/-- A file for the platform, with its parts. -/
structure ForPlatform (bytes : List U8) (elf : Elf) (segments : List ProgramHeader)
    (sections : List SectionHeader) : Prop where
  parses : ElfCrate.minimalParse bytes = .ok elf
  machine : elf.ehdr.eMachine = emRiscv
  elfClass : elf.ehdr.elfClass = .elf32
  hasSegments : elf.segments = some segments
  hasSections : elf.sectionHeaders = some sections

/-- The sections of the file are contiguous if it is one for the platform. -/
def PlacesContiguously (bytes : List U8) : Prop :=
  ∀ elf segments sections, ForPlatform bytes elf segments sections →
    Contiguous elf (entryPoint elf) segments 0 0 sections

theorem elfTranspilerImpl_agrees {bytes : List U8} (hf : FaithfulFile bytes)
    (h : PlacesContiguously bytes) :
    Agrees (fun n output' vector' => vector' = output'.take n)
      (elfTranspilerImpl copyAt bytes output) (elfTranspilerImpl extend bytes []) := by
  rcases elfTranspilerImpl_cases bytes with
    ⟨e, hfail⟩ | ⟨elf, segments, sections, hparse, hsegments, hsections, hmachine, hclass, hrun⟩
  · rw [hfail, hfail]
    exact agrees_error
  · have hf := hf elf sections hparse hclass hsections
    have hcontiguous := h elf segments sections ⟨hparse, hmachine, hclass, hsegments, hsections⟩
    have hempty : Mirrors output [] := ⟨rfl, Nat.zero_le _⟩
    rw [hrun, hrun]
    apply (transpileSections_mirrors hf hempty hcontiguous).bind
    rintro progress output' vector' - ⟨hmirrors, hsize⟩
    exact addPadding_mirrors hmirrors hsize

section Converse

/-- Every section with data that the loop places goes to the end of the vector, which is this
long so far. -/
def DataInPlace (elf : Elf) (entry : U32) (segments : List ProgramHeader) :
    ℕ → List SectionHeader → Prop
  | _, [] => True
  | length, sec :: rest =>
    (Ignored entry segments sec → DataInPlace elf entry segments length rest) ∧
    ∀ c, chunk? elf entry segments sec = some c →
      (c.data ≠ [] → c.offset = length) ∧
        (c.Accepted → DataInPlace elf entry segments (length + c.data.length) rest)

/-- The buffer does not fail for the lack of room or panic, and the vector gives the same. -/
def Matches (x y : Result Fault (List U8) ℕ) : Prop :=
  match x with
  | .ok n output => ∃ m, y = .ok m (output.take n)
  | .error (.error e) _ => e ≠ .bufferTooSmall ∧ ∃ vector, y = .error (.error e) vector
  | .error .panic _ => False

omit [Target] in
theorem not_matches_panic {x : Result Fault (List U8) ℕ} : ¬Matches x (.error .panic vector) := by
  intro h
  cases x with
  | ok n output =>
    obtain ⟨m, hm⟩ := h
    cases hm
  | error e output =>
    cases e with
    | error e =>
      obtain ⟨-, vector', hvector⟩ := h
      cases hvector
    | panic => exact h

theorem addPadding_matches (hsize : progress.binarySize ≤ output.length)
    (h : Matches (addPadding copyAt progress output) (addPadding extend progress vector)) :
    progress.binarySize = vector.length := by
  unfold addPadding at h
  by_cases hp : progress.needsPadding = true
  · rw [if_pos hp, if_pos hp] at h
    have htwo : [(0 : U8), 0].length < 2 ^ Target.usizeBits := lt_usize (by decide)
    have hextend : extend progress.binarySize [0, 0] vector = .ok ⟨⟩ (vector ++ [0, 0]) := rfl
    cases hcopy : copyAt progress.binarySize [0, 0] output with
    | ok _ output' =>
      obtain ⟨hstop, hroom, rfl⟩ := copyAt_ok htwo hcopy
      have hadd : addUsize progress.binarySize 2 = .ok (progress.binarySize + 2) := hstop
      rw [bind_ok hcopy, bind_ok hextend, attempt_of_ok hadd, attempt_of_ok hadd] at h
      obtain ⟨m, hm⟩ := h
      have hvector := congrArg (fun r => r.state.length) hm
      simp only [Result.state_ok, List.length_append, List.length_take,
        Lib.splice_length hroom, List.length_cons, List.length_nil] at hvector hroom
      omega
    | error e output' =>
      rw [bind_error hcopy] at h
      rcases copyAt_error hcopy with rfl | rfl
      · exact h.elim
      · exact absurd rfl h.1
  · rw [if_neg hp, if_neg hp] at h
    obtain ⟨m, hm⟩ := h
    have hvector := congrArg (fun r => r.state.length) hm
    simp only [pure_apply, Result.state_ok, List.length_take] at hvector
    omega

variable {c : Chunk}

/-- A chunk that can be transpiled is refused by the buffer for the lack of room only. -/
theorem transpileSection_copyAt_error {e : Fault} {output' : List U8}
    (hf : Faithful elf (sec :: sections)) (hloaded : IsLoaded sec)
    (hpl : locate entry sec segments = .ok (some pl)) (hne : pl.endOffset ≠ pl.paddr.toNat)
    (hc : chunk? elf entry segments sec = some c) (haccepted : c.Accepted)
    (h : transpileSection copyAt elf sec pl progress output = .error e output') :
    e = .panic ∨ e = .error .bufferTooSmall := by
  obtain ⟨-, pl', data, hpl', hdata, rfl⟩ := chunk?_eq_some hc
  cases hpl.symm.trans hpl'
  have hsection : sectionData elf sec = .ok (data, none) := congrArg (Except.mapError _) hdata
  rw [transpileSection_data copyAt hne hsection] at h
  rcases bind_eq_error h with hcopy | ⟨_, copied, hcopy, hrest⟩
  · exact copyAt_error hcopy
  · obtain ⟨hend, hroom, rfl⟩ := copyAt_section_ok hf hloaded hpl hdata hcopy
    by_cases hcode : IsCode sec
    · obtain ⟨p, code, hraw⟩ := haccepted (decide_eq_true hcode)
      have hrange := transpileRange_copied hend hroom
      rw [hraw] at hrange
      simp only [if_pos hcode] at hrest
      rw [bind_ok hrange] at hrest
      cases hrest
    · simp only [if_neg hcode] at hrest
      cases hrest

/-- Code that begins beyond the end of the vector is out of its range. -/
theorem transpileSection_beyond (hpl : locate entry sec segments = .ok (some pl))
    (hne : pl.endOffset ≠ pl.paddr.toNat) (hc : chunk? elf entry segments sec = some c)
    (hcode : c.isCode = true) (hempty : c.data = []) (hbeyond : vector.length < c.offset) :
    transpileSection extend elf sec pl progress vector = .error .panic vector := by
  obtain ⟨-, pl', data, hpl', hdata, rfl⟩ := chunk?_eq_some hc
  cases hpl.symm.trans hpl'
  obtain rfl : data = [] := hempty
  have hsection : sectionData elf sec = .ok ([], none) := congrArg (Except.mapError _) hdata
  have hextend : extend pl.offset [] vector = .ok ⟨⟩ vector :=
    congrArg (Result.ok PUnit.unit) (List.append_nil vector)
  have hrange : transpileRange pl.offset pl.endOffset vector = .error .panic vector := by
    rw [transpileRange, bind_ok (get_apply vector), if_neg]
    · rfl
    · rintro ⟨hle, hend⟩
      exact absurd (hle.trans hend) (not_le.mpr hbeyond)
  rw [transpileSection_data extend hne hsection, bind_ok hextend]
  simp only [if_pos (of_decide_eq_true hcode)]
  rw [bind_error hrange]

/-- A section that the vector takes as the buffer does follows on what is there. -/
theorem follows_of_matches {f : Progress → EStateM Fault (List U8) ℕ}
    {x : Result Fault (List U8) ℕ} (hpl : locate entry sec segments = .ok (some pl))
    (hne : pl.endOffset ≠ pl.paddr.toNat) (hc : chunk? elf entry segments sec = some c)
    (hplace : c.data ≠ [] → c.offset = vector.length)
    (hmatch : Matches x ((transpileSection extend elf sec pl progress >>= f) vector)) :
    c.Follows vector.length := by
  by_cases hempty : c.data = []
  · refine .inr ⟨hempty, ?_⟩
    intro hcode
    by_contra hbeyond
    rw [bind_error (transpileSection_beyond hpl hne hc hcode hempty
      (not_le.mp hbeyond))] at hmatch
    exact not_matches_panic hmatch
  · exact .inl (hplace hempty)

/-- Sections whose data are in their places are contiguous when the vector gives the same. -/
theorem contiguous_of_matches {index : ℕ} (hf : Faithful elf sections) (h : Mirrors output vector)
    (hsize : progress.binarySize ≤ output.length)
    (hplace : DataInPlace elf entry segments vector.length sections)
    (hmatch : Matches
      ((transpileSections copyAt elf entry segments index sections progress >>=
        addPadding copyAt) output)
      ((transpileSections extend elf entry segments index sections progress >>=
        addPadding extend) vector)) :
    Contiguous elf entry segments vector.length progress.binarySize sections := by
  induction sections generalizing index progress output vector with
  | nil =>
    apply addPadding_matches hsize
    exact hmatch
  | cons sec rest ih =>
    obtain ⟨hrest, hplaced⟩ := hplace
    constructor
    · intro hignored
      apply ih hf.tail h hsize (hrest hignored)
      rw [bind_apply, bind_apply, transpileSections_ignored copyAt index hignored,
        transpileSections_ignored extend index hignored] at hmatch
      exact hmatch
    · intro c hc
      left
      have hignored : ¬Ignored entry segments sec := by
        intro hno
        rw [chunk?_ignored hno] at hc
        cases hc
      obtain ⟨hloaded, pl, -, hpl, -, -⟩ := chunk?_eq_some hc
      have hne : pl.endOffset ≠ pl.paddr.toNat := fun hskip => hignored (.inr ⟨pl, hpl, hskip⟩)
      rw [transpileSections_placed copyAt index hloaded hpl,
        transpileSections_placed extend index hloaded hpl, bind_assoc, bind_assoc] at hmatch
      have hfollows : c.Follows vector.length :=
        follows_of_matches hpl hne hc (hplaced c hc).1 hmatch
      refine ⟨hfollows, ?_⟩
      intro haccepted
      cases hsection : transpileSection copyAt elf sec pl progress output with
      | error e output' =>
        rw [bind_error hsection] at hmatch
        rcases transpileSection_copyAt_error hf hloaded hpl hne hc haccepted hsection
          with rfl | rfl
        · exact hmatch.elim
        · exact absurd rfl hmatch.1
      | ok progress' output' =>
        have hchunk : ∀ d, chunk? elf entry segments sec = some d → d.Follows vector.length := by
          intro d hd
          cases hc.symm.trans hd
          exact hfollows
        have hagrees := transpileSection_mirrors hloaded hpl hne progress hf h hchunk
        rw [hsection] at hagrees
        obtain ⟨vector', hvector, hmirrors, hlength⟩ := hagrees
        obtain ⟨d, hd, -, -, -, hroom, rfl, rfl⟩ :=
          transpileSection_copyAt_ok hf hloaded hpl hne hsection
        cases hc.symm.trans hd
        rw [bind_ok hsection, bind_ok hvector] at hmatch
        rw [← hlength c hc]
        apply ih hf.tail hmirrors _ _ hmatch
        · rw [Lib.splice_length (by rwa [Chunk.image_length haccepted])]
          exact max_le hsize hroom
        · rw [hlength c hc]
          exact (hplaced c hc).2 haccepted

end Converse

/-- Every section with data is placed at the end of the vector if the file is one for the
platform. -/
def PlacesDataContiguously (bytes : List U8) : Prop :=
  ∀ elf segments sections, ForPlatform bytes elf segments sections →
    DataInPlace elf (entryPoint elf) segments 0 sections

/-- The vector is what the buffer holds of the binary, or is refused as the buffer is for another
reason than the lack of room. -/
def VectorAgrees (bytes output : List U8) : Prop :=
  (∀ n output', transpileElf bytes output = .ok n output' →
    transpileElfVec bytes = .ok (output'.take n)) ∧
  ∀ e output', transpileElf bytes output = .error (.error e) output' → e ≠ .bufferTooSmall →
    transpileElfVec bytes = .error (.error e)

/-- The call with the buffer ends with a binary, or with an error that is no lack of room. -/
def BufferReturns (bytes output : List U8) : Prop :=
  match transpileElf bytes output with
  | .ok _ _ => True
  | .error (.error e) _ => e ≠ .bufferTooSmall
  | .error .panic _ => False

theorem vectorAgrees_of_contiguous {bytes : List U8} (hf : FaithfulFile bytes)
    (h : PlacesContiguously bytes) : VectorAgrees bytes output := by
  have hagrees := @elfTranspilerImpl_agrees _ _ output bytes hf h
  constructor
  · intro n output' hrun
    rw [transpileElf] at hrun
    rw [hrun] at hagrees
    obtain ⟨vector, hvector, rfl⟩ := hagrees
    rw [transpileElfVec, hvector]
  · intro e output' hrun hroom
    rw [transpileElf] at hrun
    rw [hrun] at hagrees
    obtain ⟨vector, hvector⟩ := hagrees hroom
    rw [transpileElfVec, hvector]

theorem matches_of_vectorAgrees {bytes : List U8} (hreturns : BufferReturns bytes output)
    (h : VectorAgrees bytes output) :
    Matches (elfTranspilerImpl copyAt bytes output) (elfTranspilerImpl extend bytes []) := by
  obtain ⟨hok, herror⟩ := h
  unfold transpileElfVec at hok herror
  rw [transpileElf] at hok herror
  rw [BufferReturns, transpileElf] at hreturns
  cases hrun : elfTranspilerImpl copyAt bytes output with
  | ok n output' =>
    have hvector := hok n output' hrun
    cases hvec : elfTranspilerImpl extend bytes [] with
    | ok m vector =>
      rw [hvec] at hvector
      exact ⟨m, congrArg (Result.ok m) (Except.ok.inj hvector)⟩
    | error e vector =>
      rw [hvec] at hvector
      cases hvector
  | error e output' =>
    rw [hrun] at hreturns
    cases e with
    | panic => exact hreturns
    | error e =>
      have hvector := herror e output' hrun hreturns
      cases hvec : elfTranspilerImpl extend bytes [] with
      | ok m vector =>
        rw [hvec] at hvector
        cases hvector
      | error e' vector =>
        rw [hvec] at hvector
        exact ⟨hreturns, vector, congrArg (Result.error · vector) (Except.error.inj hvector)⟩

/-- When the sections of a file follow on each other, the vector has the bytes of the binary in
the buffer, and fails as the buffer fails for another reason than the lack of room. Only where
a section that has data is out of its place can they agree otherwise. -/
theorem transpileElfVec_agrees {bytes : List U8} (hf : FaithfulFile bytes) :
    (PlacesContiguously bytes → ∀ output, VectorAgrees bytes output) ∧
    (PlacesDataContiguously bytes → ∀ output, BufferReturns bytes output →
      VectorAgrees bytes output → PlacesContiguously bytes) := by
  constructor
  · intro h output
    exact vectorAgrees_of_contiguous hf h
  · rintro hplace output hreturns hagrees elf segments sections
      ⟨hparse, hmachine, hclass, hsegments, hsections⟩
    have hmatch := matches_of_vectorAgrees hreturns hagrees
    have hempty : Mirrors output [] := ⟨rfl, Nat.zero_le _⟩
    have hzero : (⟨0, false⟩ : Progress).binarySize ≤ output.length := Nat.zero_le _
    rw [elfTranspilerImpl_of_parsed hparse hsegments hsections hmachine hclass,
      elfTranspilerImpl_of_parsed hparse hsegments hsections hmachine hclass] at hmatch
    exact contiguous_of_matches (hf elf sections hparse hclass hsections) hempty hzero
      (hplace elf segments sections ⟨hparse, hmachine, hclass, hsegments, hsections⟩) hmatch

/-- A section with one `c.nop`. -/
def textSection : SectionHeader := ⟨1, 6, 0, 2, 2⟩

/-- A section of four bytes at the next multiple of four. -/
def wordSection : SectionHeader := ⟨1, 2, 4, 4, 4⟩

/-- A segment that contains both. -/
def gapSegment : ProgramHeader := ⟨0, 0, 8⟩

/-- A file with these sections. -/
def gapElf (sections : List SectionHeader) : ElfBytes Unit Unit where
  ehdr := ⟨.elf32, emRiscv, 0⟩
  segments := some [gapSegment]
  sectionHeaders := some sections
  sectionData sec := .ok (if IsCode sec then [0x01, 0x00] else [1, 2, 3, 4], none)

omit [ElfCrate] [Target] in
/-- The vector has no room between the sections. -/
theorem wordSection_misplaced : letI := Target.release64
    letI := parsesTo (gapElf [textSection, wordSection])
    transpileElf [] [0, 0, 0, 0, 0, 0, 0, 0] = .ok 8 [3, 0, 0, 0, 1, 2, 3, 4] ∧
      transpileElfVec [] = .ok [3, 0, 1, 2, 3, 4] ∧
      [3, 0, 1, 2, 3, 4] ≠ ([3, 0, 0, 0, 1, 2, 3, 4] : List U8).take 8 := by
  with_unfolding_all exact ⟨rfl, rfl, by decide⟩

theorem contiguous_ignored {length size : ℕ} (hignored : Ignored entry segments sec)
    (h : Contiguous elf entry segments length size sections) :
    Contiguous elf entry segments length size (sec :: sections) := by
  refine ⟨fun _ => h, ?_⟩
  intro c hc
  rw [chunk?_ignored hignored] at hc
  cases hc

theorem contiguous_placed {length size : ℕ} {c : Chunk}
    (hc : chunk? elf entry segments sec = some c) (hfollows : c.Follows length)
    (h : Contiguous elf entry segments (length + c.data.length) (max size c.endOffset) sections) :
    Contiguous elf entry segments length size (sec :: sections) := by
  constructor
  · intro hignored
    rw [chunk?_ignored hignored] at hc
    cases hc
  · intro d hd
    cases hc.symm.trans hd
    exact .inl ⟨hfollows, fun _ => h⟩

omit [ElfCrate] [Target] in
theorem contiguous_linked : letI := Target.release64
    letI := parsesTo linkedElf
    Contiguous linkedElf 0x10000 [linkedSegment] 0 0 linkedSections := by
  let _ := Target.release64
  let _ := parsesTo linkedElf
  have hcode : chunk? linkedElf 0x10000 [linkedSegment] ⟨1, 6, 0x10000, 8, 4⟩ =
      some ⟨0, [0x13, 0x05, 0x50, 0x00, 0x73, 0, 0, 0], true⟩ := by
    with_unfolding_all rfl
  have hempty : chunk? linkedElf 0x10000 [linkedSegment] ⟨1, 2, 0x1000C, 0, 4⟩ =
      some ⟨12, [], false⟩ := by
    with_unfolding_all rfl
  have hdata : chunk? linkedElf 0x10000 [linkedSegment] ⟨1, 3, 0x10008, 4, 4⟩ =
      some ⟨8, [1, 2, 3, 4], false⟩ := by
    with_unfolding_all rfl
  have hlast : chunk? linkedElf 0x10000 [linkedSegment] ⟨1, 6, 0x1000C, 2, 2⟩ =
      some ⟨12, [0x01, 0x00], true⟩ := by
    with_unfolding_all rfl
  apply contiguous_placed hcode (.inl rfl)
  apply contiguous_ignored (.inl (by decide))
  apply contiguous_placed hempty (.inr ⟨rfl, fun h => absurd h (by decide)⟩)
  apply contiguous_placed hdata (.inl rfl)
  apply contiguous_placed hlast (.inl rfl)
  rfl

omit [ElfCrate] [Target] in
theorem transpileElfVec_agrees_linked : letI := Target.release64
    letI := parsesTo linkedElf
    transpileElfVec [] = .ok [29, 40, 80, 0, 31, 0, 0, 0, 1, 2, 3, 4, 3, 0, 0, 0] := by
  let _ := Target.release64
  let _ := parsesTo linkedElf
  have h : PlacesContiguously [] := by
    rintro elf segments sections ⟨hparse, -, -, hsegments, hsections⟩
    cases hparse
    cases hsegments
    cases hsections
    exact contiguous_linked
  exact ((transpileElfVec_agrees faithfulFile_linked).1 h _).1 16 _ transpileElf_linked

end Embive.Transpiler
