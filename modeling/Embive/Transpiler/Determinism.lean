import Embive.Lib.TwoRuns
import Embive.Transpiler.Sections
import Embive.Transpiler.Vector

/-! # The binary as a function of the file

Two buffers of one length get the same result. The bytes of the binary are the same as well
where the chunks leave no gap: a byte between them is not written and keeps what the buffer
held before.
-/

namespace Embive.Transpiler

open EStateM

variable [ElfCrate] [Target] {elf : Elf} {entry : U32} {segments : List ProgramHeader}
  {sec : SectionHeader} {sections : List SectionHeader} {pl : Placement} {progress : Progress}
  {output output' : List U8}

section Lockstep

/-- Two buffers of one length. -/
def SameLength (output output' : List U8) : Prop := output.length = output'.length

/-- Both buffers hold the data at an offset that no sum wraps. -/
structure Filled (offset : ℕ) (data output output' : List U8) : Prop where
  stop : addUsize offset data.length = .ok (offset + data.length)
  room : offset + data.length ≤ output.length
  sameLength : SameLength output output'
  first : Lib.slice output offset data.length = data
  second : Lib.slice output' offset data.length = data

theorem copyAt_relates {offset : ℕ} {data : List U8}
    (hdata : data.length < 2 ^ Target.usizeBits) :
    Relates SameLength (fun _ => Filled offset data) (copyAt offset data)
      (copyAt offset data) := by
  intro output output' h
  have hlength : output.length = output'.length := h
  cases hcopy : copyAt offset data output with
  | ok _ written =>
    obtain ⟨hstop, hroom, rfl⟩ := copyAt_ok hdata hcopy
    have hroom' := hlength ▸ hroom
    rw [copyAt_apply, hstop]
    dsimp only
    rw [if_pos ⟨Nat.le_add_right _ _, hroom'⟩]
    refine ⟨rfl, hstop, ?_, ?_, Lib.slice_splice hroom, Lib.slice_splice hroom'⟩
    · rw [Lib.splice_length hroom]
      exact hroom
    · exact (Lib.splice_length hroom).trans (hlength.trans (Lib.splice_length hroom').symm)
  | error e written =>
    rw [copyAt_apply] at hcopy ⊢
    cases hstop : addUsize offset data.length with
    | ok stop =>
      rw [hstop] at hcopy
      dsimp only at hcopy ⊢
      rw [hlength] at hcopy
      split_ifs at hcopy ⊢
      cases hcopy
      rfl
    | error e' =>
      rw [hstop] at hcopy
      cases hcopy
      rfl

/-- Transpiling what both buffers hold gives the same. -/
theorem transpileRange_relates {offset : ℕ} {data : List U8} :
    Relates (Filled offset data) (fun _ => SameLength)
      (transpileRange offset (offset + data.length))
      (transpileRange offset (offset + data.length)) := by
  rintro output output' ⟨-, hroom, hlength, hfirst, hsecond⟩
  have hlength' : output.length = output'.length := hlength
  have hroom' := hlength' ▸ hroom
  rw [transpileRange, bind_ok (get_apply output), bind_ok (get_apply output'),
    if_pos ⟨Nat.le_add_right _ _, hroom⟩, if_pos ⟨Nat.le_add_right _ _, hroom'⟩, onPart_apply,
    onPart_apply, Nat.add_sub_cancel_left, hfirst, hsecond]
  cases hraw : transpileRaw data with
  | error e code => rfl
  | ok p code =>
    have hcode : code.length = data.length := (transpileFrom_ok hraw rfl).1
    refine ⟨rfl, (Lib.splice_length (hcode ▸ hroom)).trans ?_⟩
    exact hlength'.trans (Lib.splice_length (hcode ▸ hroom')).symm

omit [Target] in
theorem attempt_ok_bind {α β : Type} {x : Except Fault α} {a : α} (h : x = .ok a)
    (f : α → EStateM Fault (List U8) β) : (attempt x >>= f) = f a := by
  funext output
  exact bind_ok (attempt_of_ok h) f

omit [Target] in
theorem attempt_error_bind {α β : Type} {x : Except Fault α} {e : Fault} (h : x = .error e)
    (f : α → EStateM Fault (List U8) β) : (attempt x >>= f) = throw e := by
  funext output
  exact bind_error (attempt_of_error h) f

theorem transpileSection_relates (hf : Faithful elf (sec :: sections)) (hloaded : IsLoaded sec)
    (hpl : locate entry sec segments = .ok (some pl)) :
    Relates SameLength (fun _ => SameLength) (transpileSection copyAt elf sec pl progress)
      (transpileSection copyAt elf sec pl progress) := by
  unfold transpileSection
  by_cases hskip : pl.endOffset = pl.paddr.toNat
  · rw [if_pos hskip]
    exact relates_pure (fun _ _ h => h)
  · rw [if_neg hskip]
    dsimp only
    cases hdata : sectionData elf sec with
    | error e =>
      rw [attempt_error_bind rfl]
      exact relates_throw e
    | ok r =>
      obtain ⟨data, compression⟩ := r
      rw [attempt_ok_bind rfl]
      cases compression with
      | some value => exact relates_throw _
      | none =>
        have hsize := hf.size_lt sec List.mem_cons_self
        have hlength := hf.length_data sec List.mem_cons_self hloaded.1 data (sectionData_ok hdata)
        dsimp only
        apply (copyAt_relates (hlength ▸ lt_usize hsize)).bind
        intro _ output output' hfilled
        have hend : pl.endOffset = pl.offset + data.length := by
          have hrange := locate_range hpl
          rw [asUsize_of_lt hsize, ← hlength, hfilled.stop] at hrange
          exact (Except.ok.inj hrange).symm
        rw [hend]
        by_cases hcode : IsCode sec
        · rw [if_pos hcode]
          apply (transpileRange_relates.bind _) output output' hfilled
          intro p
          exact relates_pure (fun _ _ h => h)
        · rw [if_neg hcode]
          exact ⟨rfl, hfilled.sameLength⟩

/-- The loop over the sections gives the same progress, or fails the same. -/
theorem transpileSections_relates {index : ℕ} (hf : Faithful elf sections) :
    Relates SameLength (fun _ => SameLength)
      (transpileSections copyAt elf entry segments index sections progress)
      (transpileSections copyAt elf entry segments index sections progress) := by
  induction sections generalizing index progress with
  | nil => exact relates_pure (fun _ _ h => h)
  | cons sec rest ih =>
    by_cases hloaded : IsLoaded sec
    · cases hpl : locate entry sec segments with
      | error e =>
        rw [transpileSections, if_pos hloaded, attempt_error_bind hpl]
        exact relates_throw e
      | ok r =>
        cases r with
        | none =>
          rw [transpileSections, if_pos hloaded, attempt_ok_bind hpl]
          exact relates_throw _
        | some pl =>
          rw [transpileSections_placed copyAt index hloaded hpl]
          apply (transpileSection_relates hf hloaded hpl).bind
          intro progress
          exact ih hf.tail
    · rw [transpileSections, if_neg hloaded]
      exact ih hf.tail

theorem addPadding_relates :
    Relates SameLength (fun _ => SameLength) (addPadding copyAt progress)
      (addPadding copyAt progress) := by
  unfold addPadding
  by_cases hp : progress.needsPadding = true
  · have htwo : [(0 : U8), 0].length < 2 ^ Target.usizeBits := lt_usize (by decide)
    rw [if_pos hp]
    apply (copyAt_relates htwo).bind
    intro _
    cases hsize : addUsize progress.binarySize 2 with
    | ok n => exact relates_pure (fun _ _ h => h.sameLength)
    | error e => exact relates_throw e
  · rw [if_neg hp]
    exact relates_pure (fun _ _ h => h)

end Lockstep

/-- Two buffers of one length get the same size, or the same error. -/
theorem transpileElf_relates {bytes : List U8} (hf : FaithfulFile bytes) :
    Relates SameLength (fun _ => SameLength) (transpileElf bytes) (transpileElf bytes) := by
  rcases elfTranspilerImpl_cases bytes with
    ⟨e, hfail⟩ | ⟨elf, segments, sections, hparse, -, hsections, -, hclass, hrun⟩
  · rw [transpileElf, hfail]
    exact relates_throw _
  · rw [transpileElf, hrun]
    apply (transpileSections_relates (hf elf sections hparse hclass hsections)).bind
    intro progress
    exact addPadding_relates

section Loading

/-- Every section is ignored, or has data that are accepted. -/
def Loads (elf : Elf) (entry : U32) (segments : List ProgramHeader)
    (sections : List SectionHeader) : Prop :=
  ∀ sec ∈ sections, Ignored entry segments sec ∨
    ∃ c, chunk? elf entry segments sec = some c ∧ c.Accepted

/-- The file is one that can be transpiled into a buffer with room for it. -/
structure Loadable (bytes : List U8) (elf : Elf) (segments : List ProgramHeader)
    (sections : List SectionHeader) : Prop where
  parses : ElfCrate.minimalParse bytes = .ok elf
  hasSegments : elf.segments = some segments
  hasSections : elf.sectionHeaders = some sections
  machine : elf.ehdr.eMachine = emRiscv
  elfClass : elf.ehdr.elfClass = .elf32
  loads : Loads elf (entryPoint elf) segments sections

omit [Target] in
/-- The size of the binary. -/
def binarySize (cs : List Chunk) : ℕ := imageEnd cs + if needsPadding cs then 2 else 0

omit [Target] in
theorem imageEnd_le_binarySize (cs : List Chunk) : imageEnd cs ≤ binarySize cs :=
  Nat.le_add_right _ _

theorem addUsize_of_lt {x y : ℕ} (h : x + y < 2 ^ Target.usizeBits) :
    addUsize x y = .ok (x + y) := by
  rw [addUsize, wrapOrPanic_of_fits h, Nat.mod_eq_of_lt h]

theorem copyAt_of_room {offset : ℕ} {data : List U8} (hroom : offset + data.length ≤ output.length)
    (hlength : output.length < 2 ^ Target.usizeBits) :
    copyAt offset data output = .ok ⟨⟩ (Lib.splice output offset data) := by
  rw [copyAt_apply, addUsize_of_lt (hroom.trans_lt hlength)]
  exact if_pos ⟨Nat.le_add_right _ _, hroom⟩

omit [Target] in
theorem sectionData_of_ok {r : List U8 × Option ElfCrate.CompressionHeader}
    (h : elf.sectionData sec = .ok r) : sectionData elf sec = .ok r := by
  rw [sectionData, h]
  rfl

/-- A section with accepted data is placed in a buffer with room for it. -/
theorem transpileSection_returns {c : Chunk} (hf : Faithful elf (sec :: sections))
    (hpl : locate entry sec segments = .ok (some pl)) (hne : pl.endOffset ≠ pl.paddr.toNat)
    (hc : chunk? elf entry segments sec = some c) (haccepted : c.Accepted)
    (hroom : c.endOffset ≤ output.length) (hlength : output.length < 2 ^ Target.usizeBits) :
    ∃ progress' output', transpileSection copyAt elf sec pl progress output =
      .ok progress' output' := by
  obtain ⟨hloaded, pl', data, hpl', hdata, rfl⟩ := chunk?_eq_some hc
  rw [hpl] at hpl'
  cases hpl'
  have hend : pl.endOffset = pl.offset + data.length := by
    have hrange := locate_range hpl
    have hsize := hf.size_lt sec List.mem_cons_self
    have hdataLength := hf.length_data sec List.mem_cons_self hloaded.1 data hdata
    rw [asUsize_of_lt hsize, ← hdataLength, addUsize_of_lt (hroom.trans_lt hlength)] at hrange
    exact (Except.ok.inj hrange).symm
  rw [transpileSection, if_neg hne]
  dsimp only
  rw [bind_ok (attempt_of_ok (sectionData_of_ok hdata))]
  dsimp only
  rw [bind_ok (copyAt_of_room hroom hlength)]
  by_cases hcode : IsCode sec
  · obtain ⟨p, code, hraw⟩ := haccepted (decide_eq_true hcode)
    have hread := Lib.slice_splice hroom
    have hwritten := Lib.splice_length hroom
    have hrange : transpileRange pl.offset pl.endOffset (Lib.splice output pl.offset data) =
        .ok p (Lib.splice (Lib.splice output pl.offset data) pl.offset code) := by
      rw [transpileRange, bind_ok (get_apply _), hend, hwritten,
        if_pos ⟨Nat.le_add_right _ _, hroom⟩, onPart_apply, Nat.add_sub_cancel_left, hread, hraw]
      rfl
    rw [if_pos hcode, bind_ok hrange]
    exact ⟨_, _, rfl⟩
  · rw [if_neg hcode]
    exact ⟨_, _, rfl⟩

/-- The loop gets through the sections of a buffer with room for their chunks. -/
theorem transpileSections_returns {index : ℕ} (hf : Faithful elf sections)
    (hloads : Loads elf entry segments sections)
    (hroom : ∀ c ∈ chunks elf entry segments sections, c.endOffset ≤ output.length)
    (hlength : output.length < 2 ^ Target.usizeBits) :
    ∃ progress' output', transpileSections copyAt elf entry segments index sections progress
      output = .ok progress' output' := by
  induction sections generalizing index progress output with
  | nil => exact ⟨progress, output, rfl⟩
  | cons sec rest ih =>
    have hrest : Loads elf entry segments rest :=
      fun sec' hmem => hloads sec' (List.mem_cons_of_mem sec hmem)
    by_cases hignored : Ignored entry segments sec
    · rw [chunks, List.filterMap_cons_none (chunk?_ignored hignored)] at hroom
      rw [transpileSections_ignored copyAt index hignored]
      exact ih hf.tail hrest hroom hlength
    · obtain ⟨c, hc, haccepted⟩ := (hloads sec List.mem_cons_self).resolve_left hignored
      obtain ⟨hloaded, pl, data, hpl, -, -⟩ := chunk?_eq_some hc
      have hne : pl.endOffset ≠ pl.paddr.toNat := fun hskip => hignored (.inr ⟨pl, hpl, hskip⟩)
      rw [chunks, List.filterMap_cons_some hc] at hroom
      have hend := hroom c List.mem_cons_self
      obtain ⟨progress₁, output₁, hsection⟩ : ∃ progress₁ output₁,
          transpileSection copyAt elf sec pl progress output = .ok progress₁ output₁ :=
        transpileSection_returns hf hpl hne hc haccepted hend hlength
      have hsame : output.length = output₁.length := by
        obtain ⟨d, -, hd, -, -, hdend, rfl, -⟩ :=
          transpileSection_copyAt_ok hf hloaded hpl hne hsection
        rw [Lib.splice_length]
        rw [Chunk.image_length hd]
        exact hdend
      rw [transpileSections_placed copyAt index hloaded hpl, bind_ok hsection]
      apply ih hf.tail hrest
      · intro c' hmem
        exact hsame ▸ hroom c' (List.mem_cons_of_mem c hmem)
      · exact hsame ▸ hlength

theorem addPadding_returns {n : ℕ}
    (hn : n = progress.binarySize + if progress.needsPadding then 2 else 0)
    (hroom : n ≤ output.length) (hlength : output.length < 2 ^ Target.usizeBits) :
    ∃ output', addPadding copyAt progress output = .ok n output' := by
  unfold addPadding
  by_cases hp : progress.needsPadding = true
  · rw [if_pos hp] at hn ⊢
    have hsize := addUsize_of_lt (hn ▸ hroom.trans_lt hlength)
    have hcopy : copyAt progress.binarySize [0, 0] output = .ok ⟨⟩ _ :=
      copyAt_of_room (hn ▸ hroom) hlength
    rw [bind_ok hcopy, attempt_of_ok (hn ▸ hsize)]
    exact ⟨_, rfl⟩
  · rw [if_neg hp] at hn ⊢
    rw [hn]
    exact ⟨output, rfl⟩

theorem Loadable.faithful {bytes : List U8} (h : Loadable bytes elf segments sections)
    (hf : FaithfulFile bytes) : Faithful elf sections :=
  hf elf sections h.parses h.elfClass h.hasSections

/-- What transpiling a loadable file has done. -/
theorem Loadable.transpiled {bytes : List U8} {n : ℕ} (h : Loadable bytes elf segments sections)
    (hf : FaithfulFile bytes) (hrun : transpileElf bytes output = .ok n output') :
    Transpiled (chunks elf (entryPoint elf) segments sections) n output output' :=
  (transpileElf_ok h.parses h.hasSegments h.hasSections (h.faithful hf) hrun).1

/-- A loadable file is transpiled into every buffer with room for its binary. -/
theorem Loadable.transpiles {bytes : List U8} (h : Loadable bytes elf segments sections)
    (hf : FaithfulFile bytes)
    (hroom : binarySize (chunks elf (entryPoint elf) segments sections) ≤ output.length)
    (hlength : output.length < 2 ^ Target.usizeBits) :
    ∃ output', transpileElf bytes output =
      .ok (binarySize (chunks elf (entryPoint elf) segments sections)) output' := by
  have hends := (imageEnd_le_binarySize _).trans hroom
  obtain ⟨progress, middle, hloop⟩ : ∃ progress middle, transpileSections copyAt elf
      (entryPoint elf) segments 0 sections ⟨0, false⟩ output = .ok progress middle :=
    transpileSections_returns (h.faithful hf) h.loads
      (fun c hc => (endOffset_le_imageEnd hc).trans hends) hlength
  obtain ⟨hmiddle, hprogress, hchunks, -⟩ := transpileSections_copyAt_ok (h.faithful hf) hloop
  have hmiddleLength : middle.length = output.length := by
    rw [hmiddle, Lib.patch_length (Chunk.patch_fits hchunks)]
  have hn : binarySize (chunks elf (entryPoint elf) segments sections) =
      progress.binarySize + if progress.needsPadding then 2 else 0 := by
    rw [hprogress, binarySize_foldl]
    rfl
  obtain ⟨output', hpad⟩ := addPadding_returns hn (hmiddleLength ▸ hroom) (hmiddleLength ▸ hlength)
  refine ⟨output', ?_⟩
  rw [transpileElf, elfTranspilerImpl_of_parsed h.parses h.hasSegments h.hasSections h.machine
    h.elfClass, bind_ok hloop]
  exact hpad

/-- A file that is transpiled is loadable. -/
theorem loadable_of_ok {bytes : List U8} {n : ℕ} (hf : FaithfulFile bytes)
    (h : transpileElf bytes output = .ok n output') :
    ∃ elf segments sections, Loadable bytes elf segments sections := by
  rcases elfTranspilerImpl_cases bytes with
    ⟨e, hfail⟩ | ⟨elf, segments, sections, hparse, hsegments, hsections, hmachine, hclass, -⟩
  · rw [transpileElf, hfail] at h
    cases h
  obtain ⟨htranspiled, hplaced⟩ := transpileElf_ok hparse hsegments hsections
    (hf elf sections hparse hclass hsections) h
  refine ⟨elf, segments, sections, hparse, hsegments, hsections, hmachine, hclass, ?_⟩
  intro sec hmem
  by_cases hloaded : IsLoaded sec
  · obtain ⟨pl, hpl, hchunk⟩ := hplaced sec hmem hloaded
    by_cases hskip : pl.endOffset = pl.paddr.toNat
    · exact .inl (.inr ⟨pl, hpl, hskip⟩)
    · obtain ⟨c, hc, -⟩ := hchunk hskip
      have hmem' : c ∈ chunks elf (entryPoint elf) segments sections :=
        List.mem_filterMap.mpr ⟨sec, hmem, hc⟩
      exact .inr ⟨c, hc, (htranspiled.chunks c hmem').1⟩
  · exact .inl (.inl hloaded)

end Loading

section Gaps

omit [Target]

/-- Every byte before the end of the last chunk lies in one. -/
def NoGap (cs : List Chunk) : Prop :=
  ∀ j < imageEnd cs, ∃ c ∈ cs, c.offset ≤ j ∧ j < c.endOffset

/-- The padding as a patch of the output. -/
def padding (cs : List Chunk) : List (ℕ × List U8) :=
  if needsPadding cs then [(imageEnd cs, [0, 0])] else []

variable {cs : List Chunk} {n : ℕ} {output₁ output₁' : List U8}

theorem Transpiled.eq_patch (h : Transpiled cs n output output') :
    output' = Lib.patch (cs.map Chunk.patch ++ padding cs) output := by
  rw [h.content, padding, Lib.patch, Lib.patch, List.foldl_append]
  split_ifs <;> rfl

/-- Where the chunks leave no gap, the binary does not depend on the buffer. -/
theorem Transpiled.take_eq (h : Transpiled cs n output output₁)
    (h' : Transpiled cs n output' output₁') (hlength : output.length = output'.length)
    (hgap : NoGap cs) : output₁.take n = output₁'.take n := by
  apply List.ext_getElem?
  intro j
  rw [List.getElem?_take, List.getElem?_take]
  by_cases hj : j < n
  · rw [if_pos hj, if_pos hj, h.eq_patch, h'.eq_patch]
    apply Lib.patch_get_congr hlength
    · intro p hp
      rcases List.mem_append.mp hp with hp | hp
      · exact Chunk.patch_fits h.chunks p hp
      · unfold padding at hp
        split_ifs at hp with hneeds
        · obtain rfl := List.mem_singleton.mp hp
          have hfits := h.fits
          rw [h.size, if_pos hneeds] at hfits
          exact hfits
        · cases hp
    · right
      by_cases hend : j < imageEnd cs
      · obtain ⟨c, hc, hstart, hstop⟩ := hgap j hend
        refine ⟨c.patch, List.mem_append_left _ (List.mem_map_of_mem hc), hstart, ?_⟩
        rw [Chunk.patch, Chunk.image_length (h.chunks c hc).1]
        exact hstop
      · have hsize := h.size
        by_cases hneeds : needsPadding cs = true
        · rw [if_pos hneeds] at hsize
          refine ⟨(imageEnd cs, [0, 0]), List.mem_append_right _ ?_, by omega, ?_⟩
          · rw [padding, if_pos hneeds]
            exact List.mem_singleton_self _
          · rw [hsize] at hj
            exact hj
        · rw [if_neg hneeds] at hsize
          omega
  · rw [if_neg hj, if_neg hj]

/-- A byte of the binary that is in no chunk shows what the buffer held. -/
theorem Transpiled.noGap (h : Transpiled cs n output output₁)
    (h' : Transpiled cs n output' output₁')
    (hdiffer : ∀ j < output.length, output[j]? ≠ output'[j]?)
    (htake : output₁.take n = output₁'.take n) : NoGap cs := by
  intro j hj
  by_contra hno
  push Not at hno
  have houtside : ∀ c ∈ cs, j < c.offset ∨ c.endOffset ≤ j := by
    intro c hc
    have hc' := hno c hc
    omega
  have hjn : j < n := hj.trans_le h.imageEnd_le_size
  have hbyte := congrArg (·[j]?) htake
  simp only [List.getElem?_take, if_pos hjn] at hbyte
  rw [h.get_eq houtside (.inl hj), h'.get_eq houtside (.inl hj)] at hbyte
  exact hdiffer j (hjn.trans_le h.fits) hbyte

end Gaps

/-- Buffers of this length get the same result, and the same bytes of the binary. -/
def Deterministic (bytes : List U8) (length : ℕ) : Prop :=
  Relates (fun output output' => output.length = length ∧ output'.length = length)
    (fun n output output' => output.take n = output'.take n) (transpileElf bytes)
    (transpileElf bytes)

/-- The binary is a function of the file if and only if the chunks of the file leave no gap,
or there is no binary: the file cannot be loaded, or the buffers have no room for it. -/
theorem deterministic_iff {bytes : List U8} (hf : FaithfulFile bytes) {length : ℕ}
    (hlength : length < 2 ^ Target.usizeBits) :
    Deterministic bytes length ↔ ∀ elf segments sections, Loadable bytes elf segments sections →
      binarySize (chunks elf (entryPoint elf) segments sections) ≤ length →
        NoGap (chunks elf (entryPoint elf) segments sections) := by
  constructor
  · intro h elf segments sections hloadable hroom
    have hzeros : (List.replicate length (0 : U8)).length = length := List.length_replicate
    have hones : (List.replicate length (1 : U8)).length = length := List.length_replicate
    obtain ⟨output, hrun⟩ :=
      hloadable.transpiles hf (hzeros.symm ▸ hroom) (hzeros.symm ▸ hlength)
    obtain ⟨output', hrun', htake⟩ := h.ok ⟨hzeros, hones⟩ hrun
    apply (hloadable.transpiled hf hrun).noGap (hloadable.transpiled hf hrun') _ htake
    intro j hj
    rw [hzeros] at hj
    simp [hj]
  · intro hgaps
    apply (transpileElf_relates hf).strengthen
    · rintro output output' ⟨hfirst, hsecond⟩
      exact hfirst.trans hsecond.symm
    · rintro output output' n output₁ output₁' ⟨hfirst, hsecond⟩ hrun hrun'
      obtain ⟨elf, segments, sections, hloadable⟩ := loadable_of_ok hf hrun
      have htranspiled := hloadable.transpiled hf hrun
      apply htranspiled.take_eq (hloadable.transpiled hf hrun') (hfirst.trans hsecond.symm)
      apply hgaps elf segments sections hloadable
      rw [binarySize, ← htranspiled.size, ← hfirst]
      exact htranspiled.fits

omit [ElfCrate] [Target] in
theorem faithfulFile_gap {sections : List SectionHeader}
    (h : ∀ sec ∈ sections, sec = textSection ∨ sec = wordSection) :
    letI := parsesTo (gapElf sections)
    FaithfulFile [] := by
  let _ := parsesTo (gapElf sections)
  rintro elf sections' hparse - hsections
  cases hparse
  cases hsections
  constructor
  · rintro sec hsec - data hdata
    cases hdata
    rcases h sec hsec with rfl | rfl <;> rfl
  · intro sec hsec
    rcases h sec hsec with rfl | rfl <;> decide

omit [ElfCrate] [Target] in
theorem transpileElf_gap : letI := Target.release64
    letI := parsesTo (gapElf [textSection, wordSection])
    transpileElf [] [0, 0, 0, 0, 0, 0, 0, 0] = .ok 8 [3, 0, 0, 0, 1, 2, 3, 4] ∧
      transpileElf [] [9, 9, 9, 9, 9, 9, 9, 9] = .ok 8 [3, 0, 9, 9, 1, 2, 3, 4] := by
  with_unfolding_all exact ⟨rfl, rfl⟩

omit [ElfCrate] [Target] in
/-- The two bytes between the sections are those of the buffer. -/
theorem gap_not_deterministic : letI := Target.release64
    letI := parsesTo (gapElf [textSection, wordSection])
    FaithfulFile [] ∧ ¬Deterministic [] 8 := by
  let _ := Target.release64
  let _ := parsesTo (gapElf [textSection, wordSection])
  refine ⟨faithfulFile_gap (by simp), ?_⟩
  intro h
  obtain ⟨hzeros, hnines⟩ := transpileElf_gap
  have hlengths : ([0, 0, 0, 0, 0, 0, 0, 0] : List U8).length = 8 ∧
      ([9, 9, 9, 9, 9, 9, 9, 9] : List U8).length = 8 := ⟨rfl, rfl⟩
  obtain ⟨output', hrun, htake⟩ := h.ok hlengths hzeros
  have houtput : output' = [3, 0, 9, 9, 1, 2, 3, 4] := by
    cases hnines.symm.trans hrun
    rfl
  rw [houtput] at htake
  revert htake
  decide

omit [ElfCrate] [Target] in
theorem deterministic_linked : letI := Target.release64
    letI := parsesTo linkedElf
    Deterministic [] 20 := by
  let _ := Target.release64
  let _ := parsesTo linkedElf
  apply (deterministic_iff faithfulFile_linked (by decide)).mpr
  rintro elf segments sections ⟨hparse, hsegments, hsections, -, -, -⟩ -
  cases hparse
  cases hsegments
  cases hsections
  change NoGap (chunks linkedElf 0x10000 [linkedSegment] linkedSections)
  rw [chunks_linked]
  unfold NoGap
  decide

end Embive.Transpiler
