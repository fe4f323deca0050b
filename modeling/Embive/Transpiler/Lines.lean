import Embive.Transpiler.RawSafety
import Embive.Transpiler.Text

/-! # Texts as sequences of instructions

The loop over the raw code accepts a text when it is a sequence of instructions that convert
one by one, with at most one byte after them. The result is the sequence of what they convert
to, so that texts can be transpiled in pieces.
-/

namespace Embive.Transpiler

open EStateM

variable [ElfCrate]

/-- The bytes of one instruction, and what they convert to. -/
structure Line where
  source : List U8
  image : RawInstruction
  length : source.length = image.size.bytes
  converts : convert (fromLeBytes 32 source) = .ok image

/-- The bytes of the instructions. -/
def sources (lines : List Line) : List U8 := lines.flatMap Line.source

/-- The bytes of what they convert to. -/
def images (lines : List Line) : List U8 := lines.flatMap (fun line => line.image.bytes)

/-- The last instruction is a compressed one. -/
def endsHalf (lines : List Line) : Bool :=
  lines.getLast?.any (fun line => line.image.size = .half)

variable {text code code' : List U8} {i : ℕ} {r : RawInstruction} {lines : List Line}

section Words

/-- A compressed instruction is converted from the low half of the word. -/
theorem convert_low {w : U32} (hsize : r.size = .half) :
    convert ((w.setWidth 16).setWidth 32) = .ok r ↔ convert w = .ok r := by
  constructor
  · intro h
    obtain ⟨d, rfl, hd, -⟩ := convert_decodes h
    exact convert_of_convertsTo ((convertsTo_low hsize).mp hd)
  · intro h
    obtain ⟨d, rfl, hd, -⟩ := convert_decodes h
    exact convert_of_convertsTo ((convertsTo_low hsize).mpr hd)

omit [ElfCrate] in
theorem fromLeBytes_half {bytes : List U8} (h : bytes.length = 2) :
    fromLeBytes 32 bytes = (fromLeBytes 16 bytes).setWidth 32 := by
  have hlt := leNat_lt bytes
  rw [h] at hlt
  apply BitVec.eq_of_toNat_eq
  rw [fromLeBytes, fromLeBytes, BitVec.toNat_setWidth, BitVec.toNat_ofNat, BitVec.toNat_ofNat]
  omega

/-- A word is converted as the bytes of its instruction are. -/
theorem convert_readRaw (hend : i + r.size.bytes ≤ text.length) :
    convert (readRaw text i) = .ok r ↔
      convert (fromLeBytes 32 (Lib.slice text i r.size.bytes)) = .ok r := by
  cases hsize : r.size with
  | half =>
    have hlength : (Lib.slice text i Size.half.bytes).length = 2 :=
      Lib.slice_length (hsize ▸ hend)
    rw [fromLeBytes_half hlength, ← convert_low hsize, readRaw_low]
    rfl
  | word =>
    have hroom : ¬text.length < i + 4 := by
      rw [hsize] at hend
      exact not_lt.mpr hend
    rw [readRaw, if_neg hroom]
    rfl

end Words

section Loop

theorem Line.two_le (line : Line) : 2 ≤ line.source.length := by
  rw [line.length]
  cases line.image.size <;> decide

/-- The round of the loop over the bytes of an instruction. -/
theorem Line.transpileAt (line : Line) {rest : List U8} (h : code.drop i = line.source ++ rest) :
    Transpiler.transpileAt i code = .ok line.image.size (Lib.splice code i line.image.bytes) := by
  have hdrop := congrArg List.length h
  rw [List.length_drop, List.length_append, line.length] at hdrop
  have htwo := line.two_le
  rw [line.length] at htwo
  have hend : i + line.image.size.bytes ≤ code.length := by omega
  have hslice : Lib.slice code i line.image.size.bytes = line.source := by
    rw [Lib.slice, h, ← line.length, List.take_left]
  apply transpileAt_convert _ hend
  rw [convert_readRaw hend, hslice]
  exact line.converts

/-- The instruction at an offset where a round succeeds. -/
theorem line_of_transpileAt {size : Size} (h : transpileAt i code = .ok size code') :
    ∃ line : Line, code.drop i = line.source ++ code.drop (i + size.bytes) ∧
      line.image.size = size ∧ code' = Lib.splice code i line.image.bytes := by
  obtain ⟨r, hconvert, rfl, hend, rfl⟩ := transpileAt_ok h
  rw [r.bytes_length] at hend
  rw [convert_readRaw hend] at hconvert
  have hdrop : code.drop i =
      Lib.slice code i r.size.bytes ++ code.drop (i + r.size.bytes) := by
    rw [← List.drop_drop]
    exact (List.take_append_drop _ _).symm
  exact ⟨⟨Lib.slice code i r.size.bytes, r, Lib.slice_length hend, hconvert⟩, hdrop, rfl, rfl⟩

theorem sources_cons (line : Line) (lines : List Line) :
    sources (line :: lines) = line.source ++ sources lines := List.flatMap_cons

theorem images_cons (line : Line) (lines : List Line) :
    images (line :: lines) = line.image.bytes ++ images lines := List.flatMap_cons

theorem endsHalf_cons (line : Line) (hlines : lines ≠ []) :
    endsHalf (line :: lines) = endsHalf lines := by
  obtain ⟨first, more, rfl⟩ := List.exists_cons_of_ne_nil hlines
  rw [endsHalf, endsHalf, List.getLast?_cons_cons]

theorem two_le_sources (hlines : lines ≠ []) : 2 ≤ (sources lines).length := by
  obtain ⟨line, more, rfl⟩ := List.exists_cons_of_ne_nil hlines
  have hline := line.two_le
  rw [sources_cons, List.length_append]
  omega

/-- The end of the text is less than four bytes away from the start of an instruction when it
is a compressed one and the last. -/
theorem endsHalf_step {line : Line} {rest : List U8} {n : ℕ} (hrest : rest.length < 2)
    (hn : n = i + (sources (line :: lines) ++ rest).length) (q : Bool) :
    (q || n < i + 4 || endsHalf lines) = (q || endsHalf (line :: lines)) := by
  rw [sources_cons, List.length_append, List.length_append] at hn
  rw [Bool.or_assoc]
  by_cases hlines : lines = []
  · have hlength := line.length
    rw [hlines, sources, List.flatMap_nil, List.length_nil] at hn
    rw [hlines]
    cases hsize : line.image.size with
    | half =>
      rw [hsize] at hlength
      have hshort : n < i + 4 := by
        rw [hn, hlength, Size.bytes]
        omega
      simp [endsHalf, hsize, hshort]
    | word =>
      rw [hsize] at hlength
      have hlong : ¬n < i + 4 := by
        rw [hn, hlength, Size.bytes]
        omega
      simp [endsHalf, hsize, hlong]
  · have hline := line.two_le
    have hmore := two_le_sources hlines
    have hlong : ¬n < i + 4 := by omega
    rw [endsHalf_cons line hlines]
    simp [hlong]

theorem lines_of_transpileFrom {n : ℕ} {p q : Bool} (hn : n = code.length)
    (h : transpileFrom n i q code = .ok p code') (hi : i ≤ n) :
    ∃ (lines : List Line) (rest : List U8), rest.length < 2 ∧ code.drop i = sources lines ++ rest ∧
      code' = code.take i ++ images lines ++ rest ∧ p = (q || endsHalf lines) := by
  induction i, q using transpileFrom.induct n generalizing code with
  | case1 i q hmore ih =>
    rw [transpileFrom, if_pos hmore] at h
    obtain ⟨size, middle, hround, hloop⟩ := bind_eq_ok h
    obtain ⟨line, hdrop, rfl, rfl⟩ := line_of_transpileAt hround
    have hlength := congrArg List.length hdrop
    rw [List.length_append, List.length_drop, List.length_drop, line.length] at hlength
    have hbytes := line.image.bytes_length
    have htwo := line.two_le
    rw [line.length] at htwo
    have hend : i + line.image.bytes.length ≤ code.length := by omega
    obtain ⟨lines, rest, hrest, hlater, rfl, rfl⟩ :=
      ih line.image.size ((Lib.splice_length hend).symm ▸ hn) hloop (by omega)
    rw [← hbytes, Lib.splice_drop hend, hbytes] at hlater
    rw [hlater, ← List.append_assoc, ← sources_cons] at hdrop
    refine ⟨line :: lines, rest, hrest, hdrop, ?_, ?_⟩
    · rw [← hbytes, Lib.splice_take hend, images_cons]
      simp only [List.append_assoc]
    · apply endsHalf_step hrest
      rw [← hdrop, List.length_drop]
      omega
  | case2 i q hdone =>
    rw [transpileFrom_done q hdone] at h
    cases h
    refine ⟨[], code'.drop i, ?_, rfl, ?_, ?_⟩
    · rw [List.length_drop]
      omega
    · rw [images, List.flatMap_nil, List.append_nil, List.take_append_drop]
    · exact (Bool.or_false _).symm

theorem transpileFrom_lines {rest : List U8} {q : Bool} (hrest : rest.length < 2)
    (hdrop : code.drop i = sources lines ++ rest) (hi : i ≤ code.length) :
    transpileFrom code.length i q code =
      .ok (q || endsHalf lines) (code.take i ++ images lines ++ rest) := by
  induction lines generalizing i q code with
  | nil =>
    have hlength := congrArg List.length hdrop
    rw [sources, List.flatMap_nil, List.nil_append, List.length_drop] at hlength
    rw [transpileFrom_done q (by omega), images, List.flatMap_nil, List.append_nil]
    rw [sources, List.flatMap_nil, List.nil_append] at hdrop
    rw [← hdrop, List.take_append_drop]
    exact congrArg (fun p => Result.ok p code) (Bool.or_false q).symm
  | cons line lines ih =>
    have hlength := congrArg List.length hdrop
    rw [List.length_drop] at hlength
    have hn : code.length = i + (sources (line :: lines) ++ rest).length := by omega
    rw [sources_cons, List.append_assoc] at hdrop
    rw [sources_cons, List.length_append, List.length_append, line.length] at hlength
    have hbytes := line.image.bytes_length
    have htwo := line.two_le
    rw [line.length] at htwo
    have hend : i + line.image.bytes.length ≤ code.length := by omega
    have hlater : (Lib.splice code i line.image.bytes).drop (i + line.image.size.bytes) =
        sources lines ++ rest := by
      rw [← hbytes, Lib.splice_drop hend, hbytes, ← line.length, ← List.drop_drop, hdrop,
        List.drop_left]
    have hrun := ih (q := q || code.length < i + 4) hlater
      (by rw [Lib.splice_length hend]; omega)
    rw [Lib.splice_length hend, ← hbytes, Lib.splice_take hend, hbytes] at hrun
    rw [transpileFrom_round q (by omega) (line.transpileAt hdrop), hrun, images_cons,
      endsHalf_step hrest hn]
    simp only [List.append_assoc]

end Loop

/-- Raw code is accepted when it is a sequence of instructions that convert, and at most one
byte more. The result is the sequence of their conversions, and needs padding when the last one
is compressed. -/
theorem transpileRaw_eq_ok_iff {p : Bool} : transpileRaw text = .ok p code ↔
    ∃ (lines : List Line) (rest : List U8), rest.length < 2 ∧ text = sources lines ++ rest ∧
      code = images lines ++ rest ∧ p = endsHalf lines := by
  constructor
  · intro h
    obtain ⟨lines, rest, hrest, htext, rfl, rfl⟩ := lines_of_transpileFrom rfl h (Nat.zero_le _)
    exact ⟨lines, rest, hrest, htext, rfl, rfl⟩
  · rintro ⟨lines, rest, hrest, rfl, rfl, rfl⟩
    exact transpileFrom_lines hrest rfl (Nat.zero_le _)

end Embive.Transpiler