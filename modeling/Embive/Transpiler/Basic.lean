import Embive.Basic

/-! # The ELF file and the transpiler's errors

The `elf` crate parses the file; the transpiler reads the headers and the data of
the sections from the result.
-/

namespace Embive

/-- A section header, as far as the transpiler reads it. -/
structure SectionHeader where
  shType : U32
  shFlags : U64
  shAddr : U64
  shSize : U64
  shAddralign : U64
  deriving DecidableEq

/-- A program header, as far as the transpiler reads it. -/
structure ProgramHeader where
  pVaddr : U64
  pPaddr : U64
  pMemsz : U64
  deriving DecidableEq

inductive ElfClass where
  | elf32
  | elf64
  deriving DecidableEq

/-- The ELF file header, as far as the transpiler reads it. -/
structure FileHeader where
  elfClass : ElfClass
  eMachine : U16
  eEntry : U64

/-- A parsed ELF file. -/
structure ElfBytes (ParseError CompressionHeader : Type) where
  ehdr : FileHeader
  segments : Option (List ProgramHeader)
  sectionHeaders : Option (List SectionHeader)
  sectionData : SectionHeader → Except ParseError (List U8 × Option CompressionHeader)

/-- The `elf` crate, as far as the transpiler uses it. -/
class ElfCrate where
  ParseError : Type
  CompressionHeader : Type
  minimalParse : List U8 → Except ParseError (ElfBytes ParseError CompressionHeader)

/-- A crate that parses no file. -/
@[reducible] def ElfCrate.parsesNothing : ElfCrate := ⟨Unit, Unit, fun _ => .error ()⟩

namespace Transpiler

/-- Embive Transpiler Error. -/
inductive Error [ElfCrate] where
  | errorParsingELF (e : ElfCrate.ParseError)
  | noSegmentForSection (index : ℕ)
  | invalidInstruction (data : U32)
  | invalidInstructionSize (size : ℕ)
  | invalidPlatform
  | noSectionHeader
  | noProgramHeader
  | bufferTooSmall
  | unsupportedCompression (header : ElfCrate.CompressionHeader)

end Transpiler

end Embive
