import Embive.ByteMemory
import Embive.Transpiler.Padding
import Embive.Transpiler.Program

/-! # The program of a text

Read from its start, a text has a program: the full-size and compressed instructions at the
offsets that reading one instruction after the other reaches. The transpiler goes from
instruction to instruction in the same way, so that the code region carries this program.
-/

namespace Embive.Transpiler

open Rv32 Riscv EStateM

section Texts

/-- An instruction of a text, at full size or as the expansion of a compressed word. What a
word does that writes register zero is not specified. -/
inductive ReadsAt (text : List U8) (i : ℕ) (inst : Instr) : Size → Prop
  | word (h : Lib.slice text i 4 = toLeBytes inst.encode) : ReadsAt text i inst .word
  | half {c : U16} (h : Lib.slice text i 2 = toLeBytes c) (hexpand : expand c = some inst.encode)
      (hzero : ¬WritesZero c) : ReadsAt text i inst .half

/-- The first halfword of the instruction at an offset. -/
def halfwordAt (text : List U8) (i : ℕ) : U16 := fromLeBytes 16 (Lib.slice text i 2)

/-- The size of the instruction at an offset, from its two low bits. -/
def sizeAt (text : List U8) (i : ℕ) : Size :=
  if (halfwordAt text i).extractLsb' 0 2 = 0b11 then .word else .half

/-- The offsets that reading one instruction after the other reaches. -/
inductive Sweep (text : List U8) : ℕ → Prop
  | first : Sweep text 0
  | next {i : ℕ} (h : Sweep text i) : Sweep text (i + (sizeAt text i).bytes)

/-- The program is read from these texts, which begin at these addresses. -/
def Disassembles (program : Program) (texts : List (ℕ × List U8)) : Prop :=
  ∀ pc inst size, program pc = some (inst, size) → pc < ramOffset ∧
    ∃ text ∈ texts, ∃ i, pc.toNat = text.1 + i ∧ Sweep text.2 i ∧ ReadsAt text.2 i inst size

end Texts

section Words

variable {w : U32} {d : Decoded}

theorem quadrant_low (w : U32) : quadrant w = ((w.setWidth 16).extractLsb' 0 2).setWidth 8 := by
  revert w
  unfold quadrant
  exact Lib.OrLinear.eq_of_oneBit (by fun_prop) (by fun_prop) (by decide)

theorem cFunct3_low (w : U32) : cFunct3 ((w.setWidth 16).setWidth 32) = cFunct3 w := by
  revert w
  unfold cFunct3
  exact Lib.OrLinear.eq_of_oneBit (by fun_prop) (by fun_prop) (by decide)

theorem cBit12_low (w : U32) : cBit12 ((w.setWidth 16).setWidth 32) = cBit12 w := by
  revert w
  unfold cBit12
  exact Lib.OrLinear.eq_of_oneBit (by fun_prop) (by fun_prop) (by decide)

theorem cBits11_10_low (w : U32) : cBits11_10 ((w.setWidth 16).setWidth 32) = cBits11_10 w := by
  revert w
  unfold cBits11_10
  exact Lib.OrLinear.eq_of_oneBit (by fun_prop) (by fun_prop) (by decide)

theorem cBits6_5_low (w : U32) : cBits6_5 ((w.setWidth 16).setWidth 32) = cBits6_5 w := by
  revert w
  unfold cBits6_5
  exact Lib.OrLinear.eq_of_oneBit (by fun_prop) (by fun_prop) (by decide)

/-- A compressed instruction is read from the low half of the word. -/
theorem convertsTo_low (hsize : d.size = .half) :
    ConvertsTo ((w.setWidth 16).setWidth 32) d ↔ ConvertsTo w d := by
  have hquadrant : quadrant ((w.setWidth 16).setWidth 32) = quadrant w := by
    rw [quadrant_low, quadrant_low, setWidth_low]
  cases d <;> first
    | (cases hsize; done)
    | simp only [ConvertsTo, IsCompressed, IsRegisterPair, hquadrant, cFunct3_low, cBit12_low,
        cBits11_10_low, cBits6_5_low, typeCIW_fields, typeCL_fields, typeCI1_fields,
        typeCI2_fields, typeCI3_fields, typeCI4_fields, typeCI5_fields, typeCB1_fields,
        typeCB2_fields, typeCB4_fields, typeCR_fields, typeCS_fields, typeCSS_fields,
        typeCJ_fields, setWidth_low]

/-- Compressed instructions are those of the first three quadrants. -/
theorem ConvertsTo.size_cases (h : ConvertsTo w d) :
    d.size = .half ∧ quadrant w ∈ [C0.opcode, C1.opcode, C2.opcode] ∨
      d.size = .word ∧ quadrant w = 0b11 := by
  cases d
  case cAddi4spn | cLw | cSw => exact .inl ⟨rfl, by simp [h.1.1]⟩
  case cAddi | cJal | cLi | cAddi16sp | cLui | cSrli | cSrai | cAndi | cJ | cBeqz | cBnez =>
    exact .inl ⟨rfl, by simp [h.1.1]⟩
  case cSub | cXor | cOr | cAnd => exact .inl ⟨rfl, by simp [h.1.1.1]⟩
  case cSlli | cLwsp | cJrMv | cEbreakJalrAdd | cSwsp => exact .inl ⟨rfl, by simp [h.1.1]⟩
  case auipc | branch | jal | jalr | lui | opImm => exact .inr ⟨rfl, h.1.1⟩
  case loadStore | opAmo =>
    rcases h with h | h
    · exact .inr ⟨rfl, h.1.1⟩
    · exact .inr ⟨rfl, h.1.1⟩
  case systemMiscMem =>
    rcases h with h | h | h
    · exact .inr ⟨rfl, h.1.1⟩
    · exact .inr ⟨rfl, h.1.1⟩
    · exact .inr ⟨rfl, h.1.1⟩

/-- The two low bits of a word tell the size of its conversion. -/
theorem ConvertsTo.size_eq (h : ConvertsTo w d) :
    d.size = if (w.setWidth 16).extractLsb' 0 2 = 0b11 then .word else .half := by
  have hlow : ∀ x : BitVec 2, x.setWidth 8 = (0b11 : U8) ↔ x = 0b11 := by decide
  have hquadrant : quadrant w = 0b11 ↔ (w.setWidth 16).extractLsb' 0 2 = 0b11 := by
    rw [quadrant_low, hlow]
  rcases h.size_cases with ⟨hsize, hcompressed⟩ | ⟨hsize, hfull⟩
  · rw [hsize, if_neg]
    rw [← hquadrant]
    intro heq
    rw [heq] at hcompressed
    revert hcompressed
    decide
  · rw [hsize, if_pos (hquadrant.mp hfull)]

end Words

section Reading

variable {text : List U8} {i : ℕ}

theorem lt_of_slice {n : ℕ} {bytes : List U8} (h : Lib.slice text i n = bytes)
    (hn : bytes.length = n) (hpos : 0 < n) : i + n ≤ text.length := by
  have hlength := congrArg List.length h
  rw [Lib.slice, List.length_take, List.length_drop, hn] at hlength
  omega

/-- The low half of the word that is converted at an offset. -/
theorem readRaw_low (text : List U8) (i : ℕ) :
    (readRaw text i).setWidth 16 = halfwordAt text i := by
  rw [readRaw, halfwordAt]
  split_ifs
  · exact setWidth_low _
  · have htake : (Lib.slice text i 4).take 2 = (Lib.slice text i 2).take 2 := by
      rw [Lib.slice, Lib.slice, List.take_take, List.take_take]
      rfl
    have hlow := leNat_mod_of_take htake
    apply BitVec.eq_of_toNat_eq
    rw [fromLeBytes, fromLeBytes, BitVec.toNat_setWidth, BitVec.toNat_ofNat, BitVec.toNat_ofNat]
    omega

variable [ElfCrate] [Target] {inst : Instr} {size : Size} {d : Decoded}

/-- What an instruction of the text is converted to does what the machine does. -/
theorem ReadsAt.implements (h : ReadsAt text i inst size)
    (hd : ConvertsTo (readRaw text i) d) : d.size = size ∧ ImplementsSized d inst := by
  obtain ⟨d', hconverts, hword, himplements⟩ := implemented inst
  cases h with
  | word h =>
    have hend := lt_of_slice h (length_toLeBytes _) (by decide)
    have hraw : readRaw text i = inst.encode := by
      rw [readRaw, if_neg (by omega), h]
      exact fromLeBytes_toLeBytes 4 inst.encode
    rw [hraw] at hd
    obtain rfl := hd.unique hconverts
    refine ⟨hword, ?_⟩
    intro s hs
    exact himplements d.size s hs
  | half h hexpand hzero =>
    rename_i c
    obtain ⟨dc, dw, hdc, hhalf, hdw, -, hexecutes⟩ :=
      represents_of_expand (M := SliceMemory) hexpand hzero
    have hlow : (readRaw text i).setWidth 16 = c := by
      rw [readRaw_low, halfwordAt, h]
      exact fromLeBytes_toLeBytes 2 c
    rw [← hlow] at hdc
    obtain rfl := ((convertsTo_low hhalf).mp hdc).unique hd
    obtain rfl := hdw.unique hconverts
    refine ⟨hhalf, ?_⟩
    intro s hs
    have hfollows : Follows (inst.execute 2 s.hart)
        ((dw.action 2 s.registers s.programCounter).perform s) := himplements .half s hs
    rw [hhalf, ← hexecutes s hs.zero] at *
    exact hfollows

end Reading

section Sweeps

variable [ElfCrate] {text code code' : List U8} {i : ℕ} {p : Bool}

/-- The round of the loop at an offset where it starts an instruction. -/
theorem Starts.round (h : Starts text i code) (hraw : transpileRaw text = .ok p code') :
    ∃ d middle, ConvertsTo (readRaw text i) d ∧ transpileAt i code = .ok d.size middle := by
  obtain ⟨hlength, hdrop, hi⟩ := h.intact
  obtain ⟨q, hq⟩ := h.resumes
  rw [hq, transpileFrom, if_pos hi] at hraw
  obtain ⟨size, middle, hround, -⟩ := bind_eq_ok hraw
  obtain ⟨r, hconvert, rfl, -, -⟩ := transpileAt_ok hround
  rw [readRaw_of_drop hlength hdrop] at hconvert
  obtain ⟨d, rfl, hd, -⟩ := convert_decodes hconvert
  exact ⟨d, middle, hd, hround⟩

/-- The transpiler starts an instruction wherever reading the text does. -/
theorem Sweep.startsAt (h : Sweep text i) (hraw : transpileRaw text = .ok p code')
    (hi : i + 2 ≤ text.length) : StartsAt text i := by
  induction h with
  | first => exact ⟨text, .first (by omega)⟩
  | @next i h ih =>
    have hmore : i + 2 ≤ text.length := by omega
    obtain ⟨code, hcode⟩ := ih hmore
    obtain ⟨d, middle, hd, hround⟩ := hcode.round hraw
    have hsize : sizeAt text i = d.size := by
      rw [hd.size_eq, readRaw_low, sizeAt]
    rw [hsize] at hi ⊢
    exact ⟨middle, hcode.next hround hi⟩

variable [Target] {inst : Instr} {size : Size}

omit [ElfCrate] [Target] in
theorem ReadsAt.le_length (h : ReadsAt text i inst size) : i + size.bytes ≤ text.length := by
  cases h with
  | word h => exact lt_of_slice h (length_toLeBytes _) (by decide)
  | half h => exact lt_of_slice h (length_toLeBytes _) (by decide)

/-- A region that has a transpiled text at an offset has its instructions there. -/
theorem holds_of_readsAt {region : List U8} {offset : ℕ} {pc : U32}
    (hraw : transpileRaw text = .ok p code')
    (hregion : Lib.slice region offset text.length = code') (hsweep : Sweep text i)
    (hread : ReadsAt text i inst size) (hpc : pc.toNat = offset + i) (hram : pc < ramOffset)
    (hfetched : pc.toNat + 4 ≤ region.length) : ∃ d, Holds region pc inst size d := by
  have hend := hread.le_length
  have htwo : 2 ≤ size.bytes := by cases size <;> decide
  obtain ⟨code, hcode⟩ := hsweep.startsAt hraw (by omega)
  obtain ⟨r, hconvert, hbytes, -, -⟩ := hcode.finished hraw
  obtain ⟨d, rfl, hd, -⟩ := convert_decodes hconvert
  obtain ⟨rfl, himplements⟩ := hread.implements hd
  refine ⟨d, rfl, hd.fits, himplements, hram, hfetched, ?_⟩
  have hslice : (Lib.slice region offset text.length).drop i =
      Lib.slice region (offset + i) (text.length - i) := by
    rw [Lib.slice, Lib.slice, List.drop_take, List.drop_drop]
  rw [hpc, ← hbytes, ← hregion, hslice, Lib.slice, Lib.slice, List.take_take]
  have hmin : min (embiveRaw d).size.bytes (text.length - i) = d.size.bytes := by
    have hsize : (embiveRaw d).size = d.size := rfl
    rw [hsize]
    omega
  rw [hmin]

end Sweeps

section Raw

variable [ElfCrate] [Target] {text code : List U8} {p : Bool} {program : Program} {E α : Type}

/-- Transpiled code carries the program of its text. -/
theorem transpileRaw_carries (hraw : transpileRaw text = .ok p code)
    (hprogram : Disassembles program [(0, text)]) : Carries (codeRegion code p) program := by
  intro pc inst size hinst
  obtain ⟨hram, _, hmem, i, hpc, hsweep, hread⟩ := hprogram pc inst size hinst
  cases List.mem_singleton.mp hmem
  have hlength : code.length = text.length := (transpileFrom_ok hraw rfl).1
  have hend : i + size.bytes ≤ text.length := hread.le_length
  have htwo : 2 ≤ size.bytes := by cases size <;> decide
  obtain ⟨middle, hcode⟩ := hsweep.startsAt hraw ((Nat.add_le_add_left htwo i).trans hend)
  obtain ⟨-, -, -, -, hpadding⟩ := hcode.finished hraw
  refine holds_of_readsAt hraw ?_ hsweep hread hpc hram ?_
  · rw [Lib.slice, List.drop_zero, ← hlength, codeRegion, List.take_left]
  · rw [codeRegion_length, hlength, hpc]
    have hzero : (0, text).1 = 0 := rfl
    by_cases hlt : text.length < i + 4
    · rw [hpadding hlt, if_pos rfl]
      omega
    · omega

/-- The transpiled guest does under every host what the machine does that executes the
program of the RISC-V text. -/
theorem transpileRaw_refines (hraw : transpileRaw text = .ok p code)
    (hprogram : Disassembles program [(0, text)]) (ram : List U8) (limit : U32) (fuel : ℕ)
    (host : Host SliceMemory E α) :
    Allows Stop.IsUnspecified (Runs (codeRegion code p))
      (host.onHart program fuel (Hart.reset ⟨codeRegion code p, ram⟩))
      (host.onInterpreter fuel (Interpreter.new ⟨codeRegion code p, ram⟩ limit)) :=
  (transpileRaw_carries hraw hprogram).refines_host fuel host _ _ ⟨models_new _ limit, rfl⟩

/-- The text of `c.li a0, 5` and `ebreak`. -/
def answerText : List U8 := [0x15, 0x45, 0x73, 0x00, 0x10, 0x00]

def answerProgram : Program := fun pc =>
  if pc = 0 then some (.integer (.aluImm .addi 10 0 5), .half)
  else if pc = 2 then some (.ebreak, .word)
  else none

omit [ElfCrate] [Target] in
theorem disassembles_answer : Disassembles answerProgram [(0, answerText)] := by
  intro pc inst size hinst
  unfold answerProgram at hinst
  split_ifs at hinst with hzero htwo
  · cases hinst
    rw [hzero]
    exact ⟨by decide, _, List.mem_singleton_self _, 0, rfl, .first,
      .half (c := 0x4515) rfl (by decide) (by decide)⟩
  · cases hinst
    rw [htwo]
    exact ⟨by decide, _, List.mem_singleton_self _, 2, rfl, Sweep.first.next, .word rfl⟩

omit [ElfCrate] [Target] in
/-- A run with a limit of two instructions halts with five in the register. -/
theorem transpileRaw_refines_answer : letI := Target.release64
    letI := ElfCrate.parsesNothing
    ∃ code p, transpileRaw answerText = .ok p code ∧ ∃ s,
      (Host.run 2 .done : Host SliceMemory Empty State).onInterpreter 0
        (Interpreter.new ⟨codeRegion code p, []⟩ 0) = .ok .halted s ∧ s.x 10 = 5 := by
  let _ := Target.release64
  let _ := ElfCrate.parsesNothing
  have hraw : transpileRaw answerText = .ok false [69, 21, 31, 0, 16, 0] := by
    with_unfolding_all rfl
  refine ⟨_, _, hraw, ?_⟩
  have hallows := transpileRaw_refines hraw disassembles_answer [] 0 0
    (Host.run 2 .done : Host SliceMemory Empty State)
  have hhart : (Host.run 2 .done : Host SliceMemory Empty State).onHart answerProgram 0
      (Hart.reset ⟨codeRegion [69, 21, 31, 0, 16, 0] false, []⟩) = .ok .halted
        { Hart.reset ⟨codeRegion [69, 21, 31, 0, 16, 0] false, []⟩ with
          pc := 6, x := Function.update (fun _ => 0) 10 5 } := rfl
  rw [hhart] at hallows
  obtain ⟨s, hs, hruns⟩ := hallows.ok
  exact ⟨s, hs, congrFun (congrArg Hart.x hruns.models.hart) 10⟩

end Raw

section File

variable [ElfCrate] [Target] {elf : Elf} {segments : List ProgramHeader}
  {sections : List SectionHeader} {output output' : List U8} {program : Program} {E α : Type}

/-- The code of a file, where it is placed. -/
def texts (cs : List Chunk) : List (ℕ × List U8) :=
  (cs.filter Chunk.isCode).map (fun c => (c.offset, c.data))

/-- No chunk overlaps another one. -/
def Disjoint (cs : List Chunk) : Prop :=
  cs.Pairwise (fun c d => c.endOffset ≤ d.offset ∨ d.endOffset ≤ c.offset)

omit [Target] in
theorem Transpiled.length_eq {cs : List Chunk} {n : ℕ} (h : Transpiled cs n output output') :
    output'.length = output.length := by
  have hpatched := Lib.patch_length (Chunk.patch_fits h.chunks)
  rw [h.content]
  split_ifs with hp
  · rw [Lib.splice_length (h.padding_fits hp), hpatched]
  · exact hpatched

theorem Transpiled.carries {cs : List Chunk} {n m : ℕ} (h : Transpiled cs n output output')
    (hm : n ≤ m) (hdisjoint : Disjoint cs) (hfetchable : Fetchable cs (min m output.length))
    (hprogram : Disassembles program (texts cs)) : Carries (output'.take m) program := by
  intro pc inst size hinst
  obtain ⟨hram, _, hmem, i, hpc, hsweep, hread⟩ := hprogram pc inst size hinst
  obtain ⟨c, hc, rfl⟩ := List.mem_map.mp hmem
  obtain ⟨hc, hcode⟩ := List.mem_filter.mp hc
  obtain ⟨before, after, rfl⟩ := List.append_of_mem hc
  obtain ⟨p, code, hraw⟩ := (h.chunks c hc).1 hcode
  have hlater : ∀ d ∈ after, ∀ j, c.offset ≤ j → j < c.endOffset →
      j < d.offset ∨ d.endOffset ≤ j := by
    intro d hd j hstart hend
    have hpair := (List.pairwise_append.mp hdisjoint).2.1
    have hcd := (List.pairwise_cons.mp hpair).1 d hd
    omega
  have himage : c.image = code := by
    rw [Chunk.image, if_pos hcode, hraw]
    rfl
  have hslice := h.slice_eq hlater
  rw [himage] at hslice
  have hend := hread.le_length
  have htwo : 2 ≤ size.bytes := by cases size <;> decide
  have hfetch := hfetchable c hc hcode i (hsweep.startsAt hraw (by omega))
  refine holds_of_readsAt hraw ?_ hsweep hread hpc hram ?_
  · rw [Lib.slice_take ((h.end_le hc).trans hm)]
    exact hslice
  · rw [List.length_take, hpc, h.length_eq]
    omega

/-- A transpiled file does under every host what the machine does that executes the programs
of its RISC-V sections, where no two overlap and every instruction can be fetched. The code is
the binary, or as much of the buffer that it lies in as the host gives the interpreter. -/
theorem transpileElf_refines {bytes : List U8} {n m : ℕ}
    (hparse : ElfCrate.minimalParse bytes = .ok elf) (hsegments : elf.segments = some segments)
    (hsections : elf.sectionHeaders = some sections) (hf : Faithful elf sections)
    (h : transpileElf bytes output = .ok n output')
    (hm : n ≤ m) (hdisjoint : Disjoint (chunks elf (entryPoint elf) segments sections))
    (hfetchable : Fetchable (chunks elf (entryPoint elf) segments sections)
      (min m output.length))
    (hprogram : Disassembles program (texts (chunks elf (entryPoint elf) segments sections)))
    (ram : List U8) (limit : U32) (fuel : ℕ) (host : Host SliceMemory E α) :
    Allows Stop.IsUnspecified (Runs (output'.take m))
      (host.onHart program fuel (Hart.reset ⟨output'.take m, ram⟩))
      (host.onInterpreter fuel (Interpreter.new ⟨output'.take m, ram⟩ limit)) := by
  obtain ⟨htranspiled, -⟩ := transpileElf_ok hparse hsegments hsections hf h
  have hcarries := htranspiled.carries hm hdisjoint hfetchable hprogram
  exact hcarries.refines_host fuel host _ _ ⟨models_new _ limit, rfl⟩

/-- A section with `c.li a0, 5` and `c.ebreak`. -/
def haltSection : SectionHeader := ⟨1, 6, 0, 4, 2⟩

def haltElf : ElfBytes Unit Unit where
  ehdr := ⟨.elf32, emRiscv, 0⟩
  segments := some [⟨0, 0, 4⟩]
  sectionHeaders := some [haltSection]
  sectionData _ := .ok ([0x15, 0x45, 0x02, 0x90], none)

def haltProgram : Program := fun pc =>
  if pc = 0 then some (.integer (.aluImm .addi 10 0 5), .half)
  else if pc = 2 then some (.ebreak, .half)
  else none

omit [ElfCrate] [Target] in
theorem disassembles_halt :
    Disassembles haltProgram (texts [⟨0, [0x15, 0x45, 0x02, 0x90], true⟩]) := by
  intro pc inst size hinst
  unfold haltProgram at hinst
  split_ifs at hinst with hzero htwo
  · cases hinst
    rw [hzero]
    exact ⟨by decide, _, List.mem_singleton_self _, 0, rfl, .first,
      .half (c := 0x4515) rfl (by decide) (by decide)⟩
  · cases hinst
    rw [htwo]
    exact ⟨by decide, _, List.mem_singleton_self _, 2, rfl, Sweep.first.next,
      .half (c := 0x9002) rfl (by decide) (by decide)⟩

omit [ElfCrate] [Target] in
set_option maxRecDepth 4096 in
theorem transpileElf_halt : letI := Target.release64
    letI := parsesTo haltElf
    transpileElf [] [0, 0, 0, 0, 0, 0, 0, 0] = .ok 6 [69, 21, 21, 0, 0, 0, 0, 0] := by
  with_unfolding_all rfl

omit [ElfCrate] [Target] in
/-- The transpiled file halts with five in the register. -/
theorem transpileElf_refines_halt : letI := Target.release64
    letI := parsesTo haltElf
    ∃ n binary, transpileElf [] [0, 0, 0, 0, 0, 0, 0, 0] = .ok n binary ∧ ∃ s,
      (Host.run 2 .done : Host SliceMemory Empty State).onInterpreter 0
        (Interpreter.new ⟨binary, []⟩ 0) = .ok .halted s ∧ n ≤ binary.length ∧ s.x 10 = 5 := by
  let _ := Target.release64
  let _ := parsesTo haltElf
  have hchunks : chunks haltElf (entryPoint haltElf) [⟨0, 0, 4⟩] [haltSection] =
      [⟨0, [0x15, 0x45, 0x02, 0x90], true⟩] := by
    with_unfolding_all rfl
  have hf : Faithful haltElf [haltSection] := by
    refine ⟨?_, by decide⟩
    intro sec hsec _ data hdata
    cases hdata
    rw [List.mem_singleton.mp hsec]
    rfl
  have hfetchable : Fetchable [⟨0, [0x15, 0x45, 0x02, 0x90], true⟩] (min 8 8) := by
    rintro c hc - i ⟨code, hcode⟩
    rw [List.mem_singleton.mp hc] at hcode ⊢
    have hend : i + 2 ≤ 4 := hcode.intact.2.2
    have hoffset : (⟨0, [0x15, 0x45, 0x02, 0x90], true⟩ : Chunk).offset = 0 := rfl
    omega
  have hdisjoint : Disjoint [⟨0, [0x15, 0x45, 0x02, 0x90], true⟩] := List.pairwise_singleton _ _
  have hprogram := disassembles_halt
  rw [← hchunks] at hfetchable hdisjoint hprogram
  refine ⟨_, _, transpileElf_halt, ?_⟩
  have hroom : 6 ≤ 8 := by decide
  have hallows := transpileElf_refines rfl rfl rfl hf transpileElf_halt hroom hdisjoint hfetchable
    hprogram [] 0 0 (Host.run 2 .done : Host SliceMemory Empty State)
  have hhart : (Host.run 2 .done : Host SliceMemory Empty State).onHart haltProgram 0
      (Hart.reset ⟨[69, 21, 21, 0, 0, 0, 0, 0], []⟩) = .ok .halted
        { Hart.reset ⟨[69, 21, 21, 0, 0, 0, 0, 0], []⟩ with
          pc := 4, x := Function.update (fun _ => 0) 10 5 } := rfl
  have htake : ([69, 21, 21, 0, 0, 0, 0, 0] : List U8).take 8 = [69, 21, 21, 0, 0, 0, 0, 0] := rfl
  rw [htake, hhart] at hallows
  obtain ⟨s, hs, hruns⟩ := hallows.ok
  exact ⟨s, hs, hroom, congrFun (congrArg Hart.x hruns.models.hart) 10⟩

end File

end Embive.Transpiler
