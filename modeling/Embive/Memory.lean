import Embive.Basic
import Embive.Lib.Fallible

/-! # The memory interface

Bytes are loaded from the code region and from RAM, and stored to RAM only.
Typed accesses go through the little-endian bytes of the value.
-/

namespace Embive

/-- Embive Memory Trait. Both methods take `&mut self`. -/
class Memory (M : Type) where
  loadBytes (address : U32) (len : ℕ) : EStateM Error M (List U8)
  storeBytes (address : U32) (data : List U8) : EStateM Error M PUnit

/-- The number with these little-endian digits. -/
def leNat : List U8 → ℕ
  | [] => 0
  | b :: bs => b.toNat + 256 * leNat bs

/-- `from_le_bytes`. -/
def fromLeBytes (w : ℕ) (bytes : List U8) : BitVec w := BitVec.ofNat w (leNat bytes)

/-- The `n` low bytes of a number, least significant first. -/
def leBytes : ℕ → ℕ → List U8
  | 0, _ => []
  | n + 1, v => BitVec.ofNat 8 v :: leBytes n (v / 256)

/-- `to_le_bytes`. -/
def toLeBytes {w : ℕ} (x : BitVec w) : List U8 := leBytes (w / 8) x.toNat

namespace MemoryType

variable {M : Type} [Memory M]

/-- Load an integer of `w` bits. -/
def load (w : ℕ) (address : U32) : EStateM Error M (BitVec w) := do
  let bytes ← Memory.loadBytes address (w / 8)
  if bytes.length = w / 8 then
    return fromLeBytes w bytes
  else
    throw (.invalidMemoryAccessLength (w / 8))

/-- Store an integer of `w` bits. -/
def store {w : ℕ} (value : BitVec w) (address : U32) : EStateM Error M PUnit :=
  Memory.storeBytes address (toLeBytes value)

/-- Load a `bool`: any byte but zero is `true`. -/
def loadBool (address : U32) : EStateM Error M Bool := do
  let byte ← load 8 address
  return byte != 0

/-- Store a `bool`. -/
def storeBool (value : Bool) (address : U32) : EStateM Error M PUnit :=
  store ((BitVec.ofBool value).setWidth 8) address

end MemoryType

/-- RAM address offset for default memory implementations. -/
def ramOffset : U32 := 0x80000000

/-- Check if a slice range is valid, giving its end. -/
def checkedSliceRange [Target] (slice : List U8) (start len : ℕ) : Except Error ℕ :=
  if start + len < 2 ^ Target.usizeBits then
    if slice.length < start + len then
      .error (.invalidMemoryAddress (BitVec.ofNat 32 (start + len)))
    else
      .ok (start + len)
  else
    .error (.invalidMemoryAccessLength len)

/-- A simple memory implementation using slices: code is mapped to address zero
and RAM to `ramOffset`. -/
structure SliceMemory where
  code : List U8
  ram : List U8
  deriving DecidableEq

namespace SliceMemory

variable [Target]

/-- The bytes at an address of the code or of RAM. -/
def loadBytes (self : SliceMemory) (address : U32) (len : ℕ) : Except Error (List U8) :=
  if ramOffset ≤ address then do
    let ramAddress := (address - ramOffset).toNat
    let stop ← checkedSliceRange self.ram ramAddress len
    return (self.ram.take stop).drop ramAddress
  else do
    let codeAddress := address.toNat
    let stop ← checkedSliceRange self.code codeAddress len
    return (self.code.take stop).drop codeAddress

/-- Copy the bytes over those at an address of RAM. -/
def storeBytes (self : SliceMemory) (address : U32) (data : List U8) :
    Except Error SliceMemory := do
  let ramAddress := (address - ramOffset).toNat
  let stop ← checkedSliceRange self.ram ramAddress data.length
  return { self with ram := self.ram.take ramAddress ++ data ++ self.ram.drop stop }

end SliceMemory

instance [Target] : Memory SliceMemory where
  loadBytes address len := EStateM.reads (fun self => self.loadBytes address len)
  storeBytes address data := EStateM.updates (fun self => self.storeBytes address data)

end Embive
