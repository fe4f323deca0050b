import Embive.Lib.Fallible
import Embive.Transpiler.Raw

/-! # Transpiling an ELF file

Every loaded section is placed relative to the entry point by the first segment that
contains it. Its data are appended to the output and, where they are code, transpiled in
place. The output is a buffer that is written by offset or a vector that grows at its end.
-/

namespace Embive.Transpiler

open EStateM

variable [ElfCrate]

section Arithmetic

variable [Target]

/-- An integer operation whose exact result may be out of range: the build profile
chooses between a panic and the wrapped result. -/
def wrapOrPanic {α : Type} (fits : Prop) [Decidable fits] (wrapped : α) : Except Fault α :=
  if fits ∨ Target.overflowChecks = false then .ok wrapped else .error .panic

def addU32 (x y : U32) : Except Fault U32 := wrapOrPanic (x.toNat + y.toNat < 2 ^ 32) (x + y)

def subU32 (x y : U32) : Except Fault U32 := wrapOrPanic (y.toNat ≤ x.toNat) (x - y)

def mulU32 (x y : U32) : Except Fault U32 := wrapOrPanic (x.toNat * y.toNat < 2 ^ 32) (x * y)

/-- `u32::div_ceil`, which panics on a zero divisor in every profile. -/
def divCeil (x y : U32) : Except Fault U32 :=
  if y = 0 then .error .panic
  else if x % y = 0 then .ok (x / y)
  else addU32 (x / y) 1

def addUsize (x y : ℕ) : Except Fault ℕ :=
  wrapOrPanic (x + y < 2 ^ Target.usizeBits) ((x + y) % 2 ^ Target.usizeBits)

/-- `as usize`. -/
def asUsize (x : U64) : ℕ := x.toNat % 2 ^ Target.usizeBits

end Arithmetic

def emRiscv : U16 := 243
def shtProgbits : U32 := 1
def shfAlloc : U32 := 2
def shfExecinstr : U32 := 4

/-- The section is of type `ProgBits` and has the flag `Alloc`. -/
def IsLoaded (sec : SectionHeader) : Prop :=
  sec.shType = shtProgbits ∧ sec.shFlags.setWidth 32 &&& shfAlloc ≠ 0

instance (sec : SectionHeader) : Decidable (IsLoaded sec) :=
  inferInstanceAs (Decidable (_ ∧ _))

/-- The section has the flag `Execinstr`. -/
def IsCode (sec : SectionHeader) : Prop := sec.shFlags.setWidth 32 &&& shfExecinstr ≠ 0

instance (sec : SectionHeader) : Decidable (IsCode sec) := inferInstanceAs (Decidable (_ ≠ _))

section Placement

variable [Target]

/-- The segment contains the section. -/
def contains (segment : ProgramHeader) (sec : SectionHeader) : Except Fault Bool :=
  let addr : U32 := sec.shAddr.setWidth 32
  let vaddr : U32 := segment.pVaddr.setWidth 32
  if vaddr ≤ addr then do
    let sectionEnd ← addU32 addr (sec.shSize.setWidth 32)
    let segmentEnd ← addU32 vaddr (segment.pMemsz.setWidth 32)
    return sectionEnd ≤ segmentEnd
  else
    return false

/-- Where a section goes: its physical address, and its range of the output. -/
structure Placement where
  paddr : U32
  offset : ℕ
  endOffset : ℕ
  deriving DecidableEq

/-- Translate the virtual address to the physical one, and that to the next aligned
offset from the entry point. -/
def place (entry : U32) (segment : ProgramHeader) (sec : SectionHeader) :
    Except Fault Placement := do
  let inSegment ← subU32 (sec.shAddr.setWidth 32) (segment.pVaddr.setWidth 32)
  let paddr ← addU32 inSegment (segment.pPaddr.setWidth 32)
  let alignment : U32 := sec.shAddralign.setWidth 32
  let fromEntry ← subU32 paddr entry
  let blocks ← divCeil fromEntry alignment
  let offset ← mulU32 blocks alignment
  let endOffset ← addUsize offset.toNat (asUsize sec.shSize)
  return ⟨paddr, offset.toNat, endOffset⟩

/-- The first segment that contains the section places it. -/
def locate (entry : U32) (sec : SectionHeader) :
    List ProgramHeader → Except Fault (Option Placement)
  | [] => return none
  | segment :: rest => do
    if ← contains segment sec then
      return some (← place entry segment sec)
    else
      locate entry sec rest

end Placement

/-- A function to append data to the output buffer, given the offset they belong to. -/
abbrev AppendFn := ℕ → List U8 → EStateM Fault (List U8) PUnit

/-- Go on with a result that does not depend on the output. -/
def attempt {α : Type} (x : Except Fault α) : EStateM Fault (List U8) α := reads (fun _ => x)

/-- A parsed file. -/
abbrev Elf := ElfBytes ElfCrate.ParseError ElfCrate.CompressionHeader

/-- `section_data`, its error as one of the transpiler. -/
def sectionData (elf : Elf) (sec : SectionHeader) :
    Except Fault (List U8 × Option ElfCrate.CompressionHeader) :=
  (elf.sectionData sec).mapError (fun e => .error (.errorParsingELF e))

/-- The size of the binary so far, and whether it needs padding. -/
structure Progress where
  binarySize : ℕ
  needsPadding : Bool
  deriving DecidableEq

/-- Transpile the bytes between two offsets of the output. -/
def transpileRange (offset endOffset : ℕ) : EStateM Fault (List U8) Bool := do
  let output ← get
  if offset ≤ endOffset ∧ endOffset ≤ output.length then
    onPart (fun output => Lib.slice output offset (endOffset - offset))
      (fun code output => Lib.splice output offset code) transpileRaw
  else
    throw .panic

/-- Append the data of a placed section to the output and transpile them if they are code. -/
def transpileSection (appendFn : AppendFn) (elf : Elf) (sec : SectionHeader)
    (placement : Placement) (progress : Progress) : EStateM Fault (List U8) Progress := do
  if placement.endOffset = placement.paddr.toNat then
    return progress
  else
    let binarySize := if progress.binarySize < placement.endOffset then placement.endOffset
      else progress.binarySize
    let (data, compression) ← attempt (sectionData elf sec)
    match compression with
    | some value => throw (.error (.unsupportedCompression value))
    | none =>
      let needsPadding := if 2 ≤ data.length then false else progress.needsPadding
      appendFn placement.offset data
      if IsCode sec then
        let needsPadding ← transpileRange placement.offset placement.endOffset
        return ⟨binarySize, needsPadding⟩
      else
        return ⟨binarySize, needsPadding⟩

section Loop

variable [Target] (appendFn : AppendFn) (elf : Elf) (entry : U32) (segments : List ProgramHeader)

/-- Iterate over the sections, the first of which has the given index. -/
def transpileSections : ℕ → List SectionHeader → Progress → EStateM Fault (List U8) Progress
  | _, [], progress => return progress
  | index, sec :: rest, progress => do
    if IsLoaded sec then
      match ← attempt (locate entry sec segments) with
      | some placement =>
        let progress ← transpileSection appendFn elf sec placement progress
        transpileSections (index + 1) rest progress
      | none => throw (.error (.noSegmentForSection index))
    else
      transpileSections (index + 1) rest progress

/-- Add padding if needed, giving the size of the binary. -/
def addPadding (progress : Progress) : EStateM Fault (List U8) ℕ := do
  if progress.needsPadding then
    appendFn progress.binarySize [0, 0]
    attempt (addUsize progress.binarySize 2)
  else
    return progress.binarySize

end Loop

variable [Target]

/-- Implementation for the elf transpiler, giving the size of the binary. -/
def elfTranspilerImpl (appendFn : AppendFn) (elf : List U8) : EStateM Fault (List U8) ℕ :=
  match ElfCrate.minimalParse elf with
  | .error e => throw (.error (.errorParsingELF e))
  | .ok elfBytes =>
    match elfBytes.segments, elfBytes.sectionHeaders with
    | none, _ => throw (.error .noProgramHeader)
    | some _, none => throw (.error .noSectionHeader)
    | some segments, some sections =>
      if elfBytes.ehdr.eMachine ≠ emRiscv ∨ elfBytes.ehdr.elfClass ≠ .elf32 then
        throw (.error .invalidPlatform)
      else do
        let progress ← transpileSections appendFn elfBytes (elfBytes.ehdr.eEntry.setWidth 32)
          segments 0 sections ⟨0, false⟩
        addPadding appendFn progress

/-- Copy the data to the output buffer. -/
def copyAt : AppendFn := fun offset data => do
  let stop ← attempt (addUsize offset data.length)
  let output ← get
  if offset ≤ stop ∧ stop ≤ output.length then
    set (Lib.splice output offset data)
  else
    throw (.error .bufferTooSmall)

/-- Append the data to the output vector. -/
def extend : AppendFn := fun _ data => modify (fun output => output ++ data)

/-- Parse RISC-V ELF, extracting the binary data and converting the instructions to the
Embive format. -/
def transpileElf (elf : List U8) : EStateM Fault (List U8) ℕ := elfTranspilerImpl copyAt elf

/-- The same with an output vector that is returned. -/
def transpileElfVec (elf : List U8) : Except Fault (List U8) :=
  match elfTranspilerImpl extend elf [] with
  | .ok _ output => .ok output
  | .error e _ => .error e

end Embive.Transpiler
