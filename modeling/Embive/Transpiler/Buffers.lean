import Embive.Lib.Plan
import Embive.Transpiler.Determinism
import Embive.Transpiler.RawSafety

/-! # One file and buffers of every length

The transpiler makes one plan of a file, whatever buffer it is given: a buffer that is too
short for the plan is refused as such, and in every other the file is refused for one reason
or the same bytes are written to the same places.
-/

namespace Embive.Transpiler

open EStateM

variable [ElfCrate] [Target] {elf : Elf} {entry : U32} {segments : List ProgramHeader}
  {sec : SectionHeader} {sections : List SectionHeader} {pl : Placement} {progress : Progress}

section Panics

variable {α β : Type}

/-- The operation does not fail but by a panic. -/
def OnlyPanics (x : Except Fault α) : Prop := ∀ e, x = .error e → e = .panic

omit [Target] in
theorem onlyPanics_ok (a : α) : OnlyPanics (.ok a : Except Fault α) := by
  intro e h
  cases h

theorem onlyPanics_wrapOrPanic (fits : Prop) [Decidable fits] (wrapped : α) :
    OnlyPanics (wrapOrPanic fits wrapped) := by
  intro e h
  unfold wrapOrPanic at h
  split_ifs at h
  cases h
  rfl

omit [Target] in
theorem OnlyPanics.bind {x : Except Fault α} {f : α → Except Fault β} (hx : OnlyPanics x)
    (hf : ∀ a, OnlyPanics (f a)) : OnlyPanics (x >>= f) := by
  intro e h
  cases x with
  | error e' =>
    cases h
    exact hx e rfl
  | ok a => exact hf a e h

theorem divCeil_onlyPanics (x y : U32) : OnlyPanics (divCeil x y) := by
  intro e h
  unfold divCeil at h
  split_ifs at h
  · cases h
    rfl
  · exact onlyPanics_wrapOrPanic _ _ e h

theorem place_onlyPanics (segment : ProgramHeader) : OnlyPanics (place entry segment sec) := by
  apply (onlyPanics_wrapOrPanic _ _).bind
  intro inSegment
  apply (onlyPanics_wrapOrPanic _ _).bind
  intro paddr
  apply (onlyPanics_wrapOrPanic _ _).bind
  intro fromEntry
  apply (divCeil_onlyPanics _ _).bind
  intro blocks
  apply (onlyPanics_wrapOrPanic _ _).bind
  intro offset
  apply (onlyPanics_wrapOrPanic _ _).bind
  intro endOffset
  exact onlyPanics_ok _

theorem contains_onlyPanics (segment : ProgramHeader) : OnlyPanics (contains segment sec) := by
  unfold contains
  dsimp only
  split_ifs
  · apply (onlyPanics_wrapOrPanic _ _).bind
    intro sectionEnd
    apply (onlyPanics_wrapOrPanic _ _).bind
    intro segmentEnd
    exact onlyPanics_ok _
  · exact onlyPanics_ok _

theorem locate_onlyPanics : OnlyPanics (locate entry sec segments) := by
  induction segments with
  | nil => exact onlyPanics_ok _
  | cons segment rest ih =>
    apply (contains_onlyPanics segment).bind
    intro b
    cases b with
    | false => exact ih
    | true =>
      apply (place_onlyPanics segment).bind
      intro pl
      exact onlyPanics_ok _

end Panics

/-- The computation has a plan for the buffers that the target can have. -/
abbrev Planned {β : Type} (x : EStateM Fault (List U8) β) : Prop :=
  Lib.Planned (2 ^ Target.usizeBits) (.error .bufferTooSmall) x

theorem planned_error {β : Type} {x : EStateM Fault (List U8) β} {e : Fault}
    (he : e ≠ .error .bufferTooSmall) (h : ∀ output, ∃ output', x output = .error e output') :
    Planned x :=
  ⟨_, Lib.Plan.describes_error he h⟩

section Copy

variable {offset : ℕ} {data : List U8}

/-- Copying panics in every buffer, or has room in none, or in those that reach to the end of
the data. -/
theorem copyAt_cases (offset : ℕ) (hdata : data.length < 2 ^ Target.usizeBits) :
    (∀ output, copyAt offset data output = .error .panic output) ∨
    (∀ output, copyAt offset data output = .error (.error .bufferTooSmall) output) ∨
    offset + data.length < 2 ^ Target.usizeBits ∧ ∀ output, copyAt offset data output =
      if offset + data.length ≤ output.length then .ok ⟨⟩ (Lib.splice output offset data)
        else .error (.error .bufferTooSmall) output := by
  by_cases hlt : offset + data.length < 2 ^ Target.usizeBits
  · right
    right
    refine ⟨hlt, ?_⟩
    intro output
    rw [copyAt_apply, addUsize_of_lt hlt]
    dsimp only
    simp only [Nat.le_add_right, true_and]
  · cases hstop : addUsize offset data.length with
    | error e =>
      left
      intro output
      obtain rfl := onlyPanics_wrapOrPanic _ _ e hstop
      rw [copyAt_apply, hstop]
    | ok stop =>
      right
      left
      intro output
      rw [copyAt_apply, hstop]
      apply if_neg
      rintro ⟨hstart, -⟩
      have hend := addUsize_lt hstop
      have hsum := addUsize_unique hstop hstart hdata
      omega

/-- What follows on a copy and finds the data in their place has a plan when it does the same
in every buffer. -/
theorem planned_copyAt {β : Type} {f : EStateM Fault (List U8) β}
    (hdata : data.length < 2 ^ Target.usizeBits)
    (hf : (∃ b image, image.length = data.length ∧ ∀ output,
        offset + data.length ≤ output.length → output.length < 2 ^ Target.usizeBits →
        f (Lib.splice output offset data) = .ok b (Lib.splice output offset image)) ∨
      ∃ e, e ≠ .error .bufferTooSmall ∧ ∀ output,
        offset + data.length ≤ output.length → output.length < 2 ^ Target.usizeBits →
        ∃ output', f (Lib.splice output offset data) = .error e output') :
    Planned (do copyAt offset data; f) := by
  rcases copyAt_cases offset hdata with hpanic | hfull | ⟨hlt, hcopy⟩
  · apply planned_error (e := .panic)
    · intro h
      cases h
    · intro output
      exact ⟨output, bind_error (hpanic output) _⟩
  · refine ⟨⟨2 ^ Target.usizeBits, .error .panic⟩, ?_, ?_, ?_⟩
    · intro output hlimit hroom
      exact ⟨output, bind_error (hfull output) _⟩
    · intro e h
      cases h
      constructor
      · intro h
        cases h
      · intro output hlimit hroom
        exact absurd hroom (not_le.mpr hlimit)
    · intro b patches h
      cases h
  · have hlacks (output : List U8) (hroom : output.length < offset + data.length) :
        copyAt offset data output = .error (.error .bufferTooSmall) output := by
      rw [hcopy, if_neg (not_le.mpr hroom)]
    have hwrites (output : List U8) (hroom : offset + data.length ≤ output.length) :
        copyAt offset data output = .ok ⟨⟩ (Lib.splice output offset data) := by
      rw [hcopy, if_pos hroom]
    rcases hf with ⟨b, image, himage, hf⟩ | ⟨e, he, hf⟩
    · refine ⟨⟨offset + data.length, .ok (b, [(offset, image)])⟩, ?_, ?_, ?_⟩
      · intro output hlimit hroom
        exact ⟨output, bind_error (hlacks output hroom) _⟩
      · intro e h
        cases h
      · intro b' patches h
        cases h
        constructor
        · intro p hp
          rw [List.mem_singleton.mp hp, himage]
        · intro output hlimit hroom
          rw [bind_ok (hwrites output hroom)]
          exact hf output hroom hlimit
    · refine ⟨⟨offset + data.length, .error e⟩, ?_, ?_, ?_⟩
      · intro output hlimit hroom
        exact ⟨output, bind_error (hlacks output hroom) _⟩
      · intro e' h
        cases h
        refine ⟨he, ?_⟩
        intro output hlimit hroom
        rw [bind_ok (hwrites output hroom)]
        exact hf output hroom hlimit
      · intro b patches h
        cases h

end Copy

section Plans

omit [Target] in
theorem raises_transpileAt (i : ℕ) :
    Raises (fun e : Fault => e ≠ .error .bufferTooSmall) (transpileAt i) := by
  intro code e code' h
  cases hconvert : convert (readRaw code i) with
  | error e' =>
    obtain ⟨data, rfl⟩ := convert_refuses e' hconvert
    rw [transpileAt_error hconvert] at h
    cases h
    intro hfull
    cases hfull
  | ok r =>
    by_cases hend : i + r.size.bytes ≤ code.length
    · rw [transpileAt_convert hconvert hend] at h
      cases h
    · rw [transpileAt_panic hconvert (not_le.mp hend)] at h
      cases h
      intro hfull
      cases hfull

omit [Target] in
theorem raises_transpileFrom (codeSize i : ℕ) (needsPadding : Bool) :
    Raises (fun e : Fault => e ≠ .error .bufferTooSmall)
      (transpileFrom codeSize i needsPadding) := by
  induction i, needsPadding using transpileFrom.induct codeSize with
  | case1 i needsPadding hmore ih =>
    rw [transpileFrom, if_pos hmore]
    exact (raises_transpileAt i).bind ih
  | case2 i needsPadding hdone =>
    rw [transpileFrom, if_neg hdone]
    exact raises_pure needsPadding

omit [Target] in
/-- The transpiler of raw code is never short of room. -/
theorem raises_transpileRaw :
    Raises (fun e : Fault => e ≠ .error .bufferTooSmall) transpileRaw := by
  intro code e code' h
  exact raises_transpileFrom code.length 0 false code e code' h

theorem planned_transpileData {data : List U8} (hf : Faithful elf (sec :: sections))
    (hloaded : IsLoaded sec) (hpl : locate entry sec segments = .ok (some pl))
    (hne : pl.endOffset ≠ pl.paddr.toNat) (hdata : sectionData elf sec = .ok (data, none)) :
    Planned (transpileSection copyAt elf sec pl progress) := by
  have hrange := locate_range hpl
  have hsize := hf.size_lt sec List.mem_cons_self
  have hlength := hf.length_data sec List.mem_cons_self hloaded.1 data (sectionData_ok hdata)
  have hend {output : List U8} (hroom : pl.offset + data.length ≤ output.length)
      (hlimit : output.length < 2 ^ Target.usizeBits) :
      pl.endOffset = pl.offset + data.length := by
    rw [asUsize_of_lt hsize, ← hlength, addUsize_of_lt (hroom.trans_lt hlimit)] at hrange
    exact (Except.ok.inj hrange).symm
  rw [transpileSection_data copyAt hne hdata]
  apply planned_copyAt (hlength ▸ lt_usize hsize)
  by_cases hcode : IsCode sec
  · simp only [if_pos hcode]
    cases hraw : transpileRaw data with
    | ok p code =>
      have hcodeLength : code.length = data.length := (transpileFrom_ok hraw rfl).1
      left
      refine ⟨⟨if progress.binarySize < pl.endOffset then pl.endOffset
        else progress.binarySize, p⟩, code, hcodeLength, ?_⟩
      intro output hroom hlimit
      have hrun := transpileRange_copied (hend hroom hlimit) hroom
      rw [hraw, Result.mapState_ok, Lib.splice_splice hroom hcodeLength] at hrun
      rw [bind_ok hrun]
      rfl
    | error e code =>
      right
      refine ⟨e, raises_transpileRaw data e code hraw, ?_⟩
      intro output hroom hlimit
      have hrun := transpileRange_copied (hend hroom hlimit) hroom
      rw [hraw] at hrun
      exact ⟨_, bind_error hrun _⟩
  · simp only [if_neg hcode]
    left
    refine ⟨⟨if progress.binarySize < pl.endOffset then pl.endOffset else progress.binarySize,
      if 2 ≤ data.length then false else progress.needsPadding⟩, data, rfl, ?_⟩
    intro output hroom hlimit
    rfl

omit [Target] in
theorem sectionData_error {e : Fault} (h : sectionData elf sec = .error e) :
    e ≠ .error .bufferTooSmall := by
  unfold sectionData at h
  cases hread : elf.sectionData sec with
  | ok r =>
    rw [hread] at h
    cases h
  | error e' =>
    rw [hread] at h
    cases h
    intro hfull
    cases hfull

theorem planned_transpileSection (hf : Faithful elf (sec :: sections)) (hloaded : IsLoaded sec)
    (hpl : locate entry sec segments = .ok (some pl)) :
    Planned (transpileSection copyAt elf sec pl progress) := by
  by_cases hskip : pl.endOffset = pl.paddr.toNat
  · rw [transpileSection, if_pos hskip]
    exact Lib.planned_pure progress
  · cases hsection : sectionData elf sec with
    | error e =>
      apply planned_error (sectionData_error hsection)
      intro output
      rw [transpileSection, if_neg hskip]
      dsimp only
      exact ⟨output, bind_error (attempt_of_error hsection) _⟩
    | ok r =>
      obtain ⟨data, compression⟩ := r
      cases compression with
      | none => exact planned_transpileData hf hloaded hpl hskip hsection
      | some value =>
        apply planned_error (e := .error (.unsupportedCompression value))
        · intro h
          cases h
        · intro output
          rw [transpileSection, if_neg hskip]
          dsimp only
          rw [bind_ok (attempt_of_ok hsection)]
          exact ⟨output, rfl⟩

/-- The loop over the sections has a plan. -/
theorem planned_transpileSections {index : ℕ} (hf : Faithful elf sections) :
    Planned (transpileSections copyAt elf entry segments index sections progress) := by
  induction sections generalizing index progress with
  | nil => exact Lib.planned_pure progress
  | cons sec rest ih =>
    by_cases hloaded : IsLoaded sec
    · cases hpl : locate entry sec segments with
      | error e =>
        apply planned_error (e := e)
        · rw [locate_onlyPanics e hpl]
          intro h
          cases h
        · intro output
          rw [transpileSections, if_pos hloaded]
          exact ⟨output, bind_error (attempt_of_error hpl) _⟩
      | ok place =>
        cases place with
        | none =>
          apply planned_error (e := .error (.noSegmentForSection index))
          · intro h
            cases h
          · intro output
            rw [transpileSections, if_pos hloaded, bind_ok (attempt_of_ok hpl)]
            exact ⟨output, rfl⟩
        | some pl =>
          rw [transpileSections_placed copyAt index hloaded hpl]
          apply (planned_transpileSection hf hloaded hpl).bind
          intro progress'
          exact ih hf.tail
    · rw [transpileSections, if_neg hloaded]
      exact ih hf.tail

theorem planned_addPadding : Planned (addPadding copyAt progress) := by
  unfold addPadding
  by_cases hp : progress.needsPadding = true
  · rw [if_pos hp]
    apply planned_copyAt (lt_usize (by decide : [(0 : U8), 0].length < 2 ^ 32))
    left
    refine ⟨progress.binarySize + 2, [0, 0], rfl, ?_⟩
    intro output hroom hlimit
    have hsum : addUsize progress.binarySize 2 = .ok (progress.binarySize + 2) :=
      addUsize_of_lt (hroom.trans_lt hlimit)
    exact attempt_of_ok hsum
  · rw [if_neg hp]
    exact Lib.planned_pure _

/-- Whatever the file is, transpiling it has a plan. -/
theorem planned_transpileElf {bytes : List U8} (hf : FaithfulFile bytes) :
    Planned (transpileElf bytes) := by
  have hrefused (e : Error) (he : e ≠ .bufferTooSmall) :
      Planned (throw (.error e) : EStateM Fault (List U8) ℕ) := by
    apply planned_error (e := .error e)
    · intro h
      exact he (Fault.error.inj h)
    · intro output
      exact ⟨output, rfl⟩
  cases hparse : ElfCrate.minimalParse bytes with
  | error e =>
    rw [transpileElf, elfTranspilerImpl, hparse]
    apply hrefused
    intro h
    cases h
  | ok elf =>
    cases hsegments : elf.segments with
    | none =>
      rw [transpileElf, elfTranspilerImpl, hparse]
      dsimp only
      rw [hsegments]
      apply hrefused
      intro h
      cases h
    | some segments =>
      cases hsections : elf.sectionHeaders with
      | none =>
        rw [transpileElf, elfTranspilerImpl, hparse]
        dsimp only
        rw [hsegments, hsections]
        apply hrefused
        intro h
        cases h
      | some sections =>
        by_cases hplatform : elf.ehdr.eMachine ≠ emRiscv ∨ elf.ehdr.elfClass ≠ .elf32
        · rw [transpileElf, elfTranspilerImpl, hparse]
          dsimp only
          rw [hsegments, hsections]
          dsimp only
          rw [if_pos hplatform]
          apply hrefused
          intro h
          cases h
        · obtain ⟨hmachine, hclass⟩ := not_or.mp hplatform
          have hclass := not_not.mp hclass
          rw [transpileElf, elfTranspilerImpl_of_parsed hparse hsegments hsections
            (not_not.mp hmachine) hclass]
          apply (planned_transpileSections (hf elf sections hparse hclass hsections)).bind
          intro progress
          exact planned_addPadding

end Plans

/-- Transpiling a file into a buffer is one plan of the file: it needs the size of the binary
as room, without which it always fails for the lack of room, and never otherwise. -/
theorem transpileElf_planned {bytes : List U8} (hf : FaithfulFile bytes) :
    ∃ plan : Lib.Plan Fault U8 ℕ,
      plan.Describes (2 ^ Target.usizeBits) (.error .bufferTooSmall) (transpileElf bytes) ∧
        ∀ n patches, plan.outcome = .ok (n, patches) → plan.room < 2 ^ Target.usizeBits →
          plan.room = n := by
  obtain ⟨plan, hplan⟩ := planned_transpileElf hf
  refine ⟨plan, hplan, ?_⟩
  intro n patches houtcome hlimit
  have hwrites := (hplan.writes n patches houtcome).2
  have hzeros (m : ℕ) : (List.replicate m (0 : U8)).length = m := List.length_replicate
  have hexact : transpileElf bytes (List.replicate plan.room 0) =
      .ok n (Lib.patch patches (List.replicate plan.room 0)) := by
    apply hwrites
    · rw [hzeros]
      exact hlimit
    · rw [hzeros]
  obtain ⟨elf, segments, sections, hloadable⟩ := loadable_of_ok hf hexact
  have htranspiled := hloadable.transpiled hf hexact
  have hle : n ≤ plan.room := hzeros plan.room ▸ htranspiled.fits
  have hsmall : (List.replicate n (0 : U8)).length < 2 ^ Target.usizeBits := by
    rw [hzeros]
    exact hle.trans_lt hlimit
  apply le_antisymm _ hle
  by_contra hlt
  obtain ⟨output, hfull⟩ := hplan.lacks (List.replicate n 0) hsmall (by
    rw [hzeros]
    exact not_le.mp hlt)
  obtain ⟨output', hrun⟩ := hloadable.transpiles hf (htranspiled.size ▸ (hzeros n).ge) hsmall
  rw [hrun] at hfull
  cases hfull

omit [ElfCrate] [Target] in
theorem transpileElf_planned_linked : letI := Target.release64
    letI := parsesTo linkedElf
    ∃ plan : Lib.Plan Fault U8 ℕ, plan.room = 16 ∧
      plan.Describes (2 ^ Target.usizeBits) (.error .bufferTooSmall) (transpileElf []) := by
  let _ := Target.release64
  let _ := parsesTo linkedElf
  have hlength : (List.replicate 20 (9 : U8)).length = 20 := List.length_replicate
  have hlimit : (List.replicate 20 (9 : U8)).length < 2 ^ Target.usizeBits := by decide
  obtain ⟨plan, hplan, hroom⟩ := transpileElf_planned faithfulFile_linked
  have hle : plan.room ≤ (List.replicate 20 (9 : U8)).length := by
    by_contra hlt
    obtain ⟨output, hfull⟩ := hplan.lacks _ hlimit (not_le.mp hlt)
    cases transpileElf_linked.symm.trans hfull
  refine ⟨plan, ?_, hplan⟩
  cases houtcome : plan.outcome with
  | error e =>
    obtain ⟨output, herror⟩ := (hplan.fails e houtcome).2 _ hlimit hle
    cases transpileElf_linked.symm.trans herror
  | ok outcome =>
    obtain ⟨n, patches⟩ := outcome
    have hrun := (hplan.writes n patches houtcome).2 _ hlimit hle
    have hsize := hroom n patches houtcome (hle.trans_lt hlimit)
    obtain ⟨hn, -⟩ := Result.ok.inj (transpileElf_linked.symm.trans hrun)
    rw [hsize, ← hn]

end Embive.Transpiler
