import Mathlib

/-! # Machine integers, results and the host platform

The signed and unsigned Rust integers of one width are the same bit vectors
here; the operations say which reading they use.
-/

namespace Embive

abbrev U8 := BitVec 8
abbrev U16 := BitVec 16
abbrev U32 := BitVec 32
abbrev U64 := BitVec 64
abbrev I32 := BitVec 32

/-- The platform the crate is compiled for: the width of `usize`, and whether the
build profile checks integer arithmetic for overflow. -/
class Target where
  usizeBits : ℕ
  usizeBits_ge : 32 ≤ usizeBits
  overflowChecks : Bool

/-- A 64-bit release build. -/
@[reducible] def Target.release64 : Target := ⟨64, by decide, false⟩

/-- Embive Interpreter Error. -/
inductive Error where
  | invalidMemoryAddress (address : U32)
  | invalidMemoryAccessLength (len : ℕ)
  | invalidProgramCounter (pc : U32)
  | invalidInstruction (pc : U32)
  | invalidCSRegister (addr : U16)
  | invalidCPURegister (index : U8)
  | illegalInstruction (pc : U32)
  | interruptNotEnabled
  | noSyscallFunction
  deriving DecidableEq

/-- Embive Interpreter State. -/
inductive State where
  | running
  | called
  | waiting
  | halted
  deriving DecidableEq

/-- Format Size. -/
inductive Size where
  | half
  | word
  deriving DecidableEq

/-- The size in bytes. -/
def Size.bytes : Size → ℕ
  | .half => 2
  | .word => 4

/-- The size as it is added to the program counter. -/
def Size.toU32 (size : Size) : U32 := BitVec.ofNat 32 size.bytes

@[simp] theorem Size.toU32_half : Size.half.toU32 = 2 := rfl

@[simp] theorem Size.toU32_word : Size.word.toU32 = 4 := rfl

end Embive
