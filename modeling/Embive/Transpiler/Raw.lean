import Embive.Lib.Splice
import Embive.Memory
import Embive.Transpiler.Convert

/-! # Transpiling raw code in place

The loop reads the word at its offset, converts it and copies the bytes of the
instruction back over it. A word is read as four bytes where the buffer has them;
the two or three last bytes are read as a compressed instruction.
-/

namespace Embive.Transpiler

variable [ElfCrate]

/-- How the transpiler ends without a result. -/
inductive Fault where
  | error (e : Error)
  | panic

/-- The word the loop converts at an offset. -/
def readRaw (code : List U8) (i : ℕ) : U32 :=
  if code.length < i + 4 then (fromLeBytes 16 (Lib.slice code i 2)).setWidth 32
  else fromLeBytes 32 (Lib.slice code i 4)

/-- One round of the loop: convert the instruction at an offset and give its size. -/
def transpileAt (i : ℕ) : EStateM Fault (List U8) Size := do
  let code ← get
  match convert (readRaw code i) with
  | .error e => throw (.error e)
  | .ok instruction =>
    let instBytes := toLeBytes instruction.data
    let instSize := instruction.size.bytes
    if i + instSize ≤ code.length then
      set (Lib.splice code i (instBytes.take instSize))
      return instruction.size
    else
      throw .panic

/-- The loop from an offset on. -/
def transpileFrom (codeSize i : ℕ) (needsPadding : Bool) : EStateM Fault (List U8) Bool :=
  if i + 2 ≤ codeSize then do
    let instSize ← transpileAt i
    transpileFrom codeSize (i + instSize.bytes) (needsPadding || codeSize < i + 4)
  else
    return needsPadding
termination_by codeSize - i
decreasing_by
  cases instSize <;> simp [Size.bytes] <;> omega

/-- Transpile raw RISC-V instructions to Embive instructions. -/
def transpileRaw : EStateM Fault (List U8) Bool := do
  let code ← get
  transpileFrom code.length 0 false

end Embive.Transpiler
