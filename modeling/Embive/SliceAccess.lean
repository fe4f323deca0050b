import Embive.Interpreter
import Embive.LittleEndian
import Embive.Lib.Splice

/-! # Accesses to slice memory

A load reads a slice of the code or of RAM and a store splices its bytes into RAM, both
where the range lies inside.
-/

namespace Embive

open EStateM

/-- The index of an address in RAM, which is mapped from `ramOffset` on, modulo `2 ^ 32`. -/
def ramIndex (address : U32) : ℕ := (address - ramOffset).toNat

theorem ramIndex_of_le {address : U32} (h : ramOffset ≤ address) :
    ramIndex address = address.toNat - 2 ^ 31 := by
  have hoffset : ramOffset.toNat = 2 ^ 31 := rfl
  rw [ramIndex, BitVec.toNat_sub_of_le h, hoffset]

theorem ramIndex_of_lt {address : U32} (h : ¬ramOffset ≤ address) :
    ramIndex address = address.toNat + 2 ^ 31 := by
  have hoffset : ramOffset.toNat = 2 ^ 31 := rfl
  rw [BitVec.le_def] at h
  rw [ramIndex, BitVec.toNat_sub, hoffset]
  omega

namespace SliceMemory

/-- The range lies in RAM or in the code, where its first address lies. -/
def Mapped (m : SliceMemory) (address : U32) (n : ℕ) : Prop :=
  if ramOffset ≤ address then ramIndex address + n ≤ m.ram.length
  else address.toNat + n ≤ m.code.length

/-- The bytes of a range. -/
def bytesAt (m : SliceMemory) (address : U32) (n : ℕ) : List U8 :=
  if ramOffset ≤ address then Lib.slice m.ram (ramIndex address) n
  else Lib.slice m.code address.toNat n

/-- The memory with these bytes written to RAM. -/
def write (m : SliceMemory) (address : U32) (data : List U8) : SliceMemory :=
  { m with ram := Lib.splice m.ram (ramIndex address) data }

section Contents

variable {m : SliceMemory} {address : U32} {n : ℕ}

theorem bytesAt_length (h : m.Mapped address n) : (m.bytesAt address n).length = n := by
  rw [Mapped] at h
  rw [bytesAt]
  split_ifs with hram
  · rw [if_pos hram] at h
    exact Lib.slice_length h
  · rw [if_neg hram] at h
    exact Lib.slice_length h

end Contents

variable [Target]

/-- The range lies in RAM, and its end is a `usize` as the length of every slice is. -/
structure Writable (m : SliceMemory) (address : U32) (n : ℕ) : Prop where
  inside : ramIndex address + n ≤ m.ram.length
  fits : ramIndex address + n < 2 ^ Target.usizeBits

variable {m : SliceMemory} {address : U32} {n : ℕ} {data : List U8}

theorem usize_ge : 2 ^ 32 ≤ 2 ^ Target.usizeBits :=
  Nat.pow_le_pow_right (by decide) Target.usizeBits_ge

theorem checkedSliceRange_ok {slice : List U8} {start len : ℕ}
    (h : start + len < 2 ^ Target.usizeBits) (hlen : start + len ≤ slice.length) :
    checkedSliceRange slice start len = .ok (start + len) := by
  rw [checkedSliceRange, if_pos h, if_neg (by omega)]

theorem checkedSliceRange_outside {slice : List U8} {start len : ℕ}
    (h : ¬(start + len ≤ slice.length ∧ start + len < 2 ^ Target.usizeBits)) :
    ∃ e, checkedSliceRange slice start len = .error e := by
  rw [checkedSliceRange]
  split_ifs
  · exact ⟨_, rfl⟩
  · omega
  · exact ⟨_, rfl⟩

theorem loadBytes_of_mapped (h : m.Mapped address n) (hn : n ≤ 2 ^ 31) :
    m.loadBytes address n = .ok (m.bytesAt address n) := by
  have husize := @usize_ge _
  have hslice (xs : List U8) (start : ℕ) :
      (xs.take (start + n)).drop start = Lib.slice xs start n := by
    rw [List.drop_take, Nat.add_sub_cancel_left, Lib.slice]
  have hlt := address.isLt
  rw [Mapped] at h
  rw [loadBytes, bytesAt]
  by_cases hram : ramOffset ≤ address
  · have hindex := ramIndex_of_le hram
    rw [if_pos hram] at h ⊢
    rw [if_pos hram]
    simp only [← ramIndex.eq_1, checkedSliceRange_ok (by omega) h, ← hslice]
    rfl
  · rw [if_neg hram] at h ⊢
    rw [if_neg hram]
    rw [BitVec.le_def] at hram
    have hoffset : ramOffset.toNat = 2 ^ 31 := rfl
    simp only [checkedSliceRange_ok (by omega) h, ← hslice]
    rfl

theorem loadBytes_of_not_mapped (h : ¬m.Mapped address n) :
    ∃ e, m.loadBytes address n = .error e := by
  rw [Mapped] at h
  rw [loadBytes]
  by_cases hram : ramOffset ≤ address
  · rw [if_pos hram] at h ⊢
    obtain ⟨e, he⟩ := checkedSliceRange_outside (fun hin => h hin.1)
    refine ⟨e, ?_⟩
    simp only [← ramIndex.eq_1, he]
    rfl
  · rw [if_neg hram] at h ⊢
    obtain ⟨e, he⟩ := checkedSliceRange_outside (fun hin => h hin.1)
    refine ⟨e, ?_⟩
    simp only [he]
    rfl

theorem storeBytes_of_writable (h : m.Writable address data.length) :
    m.storeBytes address data = .ok (m.write address data) := by
  rw [storeBytes]
  simp only [← ramIndex.eq_1, checkedSliceRange_ok h.fits h.inside]
  rfl

theorem storeBytes_of_not_writable (h : ¬m.Writable address data.length) :
    ∃ e, m.storeBytes address data = .error e := by
  obtain ⟨e, he⟩ := checkedSliceRange_outside (fun hin => h ⟨hin.1, hin.2⟩)
  refine ⟨e, ?_⟩
  rw [storeBytes]
  simp only [← ramIndex.eq_1, he]
  rfl

end SliceMemory

section Typed

variable [Target] {m : SliceMemory} {address : U32} {w : ℕ}

theorem load_of_mapped (h : m.Mapped address (w / 8)) (hw : w / 8 ≤ 2 ^ 31) :
    MemoryType.load w address m = .ok (fromLeBytes w (m.bytesAt address (w / 8))) m := by
  simp only [MemoryType.load, Memory.loadBytes, bind_apply, reads_apply,
    SliceMemory.loadBytes_of_mapped h hw, if_pos (SliceMemory.bytesAt_length h)]
  rfl

theorem load_of_not_mapped (h : ¬m.Mapped address (w / 8)) :
    ∃ e, MemoryType.load w address m = .error e m := by
  obtain ⟨e, he⟩ := SliceMemory.loadBytes_of_not_mapped h
  refine ⟨e, ?_⟩
  simp only [MemoryType.load, Memory.loadBytes, bind_apply, reads_apply, he]

theorem store_of_writable {value : BitVec w} (h : m.Writable address (w / 8)) :
    MemoryType.store value address m = .ok ⟨⟩ (m.write address (toLeBytes value)) := by
  rw [← length_toLeBytes value] at h
  simp only [MemoryType.store, Memory.storeBytes, updates_apply,
    SliceMemory.storeBytes_of_writable h]

theorem store_of_not_writable (value : BitVec w) (h : ¬m.Writable address (w / 8)) :
    ∃ e, MemoryType.store value address m = .error e m := by
  rw [← length_toLeBytes value] at h
  obtain ⟨e, he⟩ := SliceMemory.storeBytes_of_not_writable h
  refine ⟨e, ?_⟩
  simp only [MemoryType.store, Memory.storeBytes, updates_apply, he]

/-- A store that is accepted writes its bytes to RAM. -/
theorem store_ok {value : BitVec w} {m' : SliceMemory}
    (h : MemoryType.store value address m = .ok ⟨⟩ m') :
    m.Writable address (w / 8) ∧ m' = m.write address (toLeBytes value) := by
  by_cases hwritable : m.Writable address (w / 8)
  · rw [store_of_writable hwritable] at h
    cases h
    exact ⟨hwritable, rfl⟩
  · obtain ⟨e, he⟩ := store_of_not_writable value hwritable
    rw [he] at h
    cases h

end Typed

section Interpreter

variable [Target] {s : Interpreter SliceMemory} {address : U32} {w : ℕ}

theorem Interpreter.load_of_mapped (h : s.memory.Mapped address (w / 8)) (hw : w / 8 ≤ 2 ^ 31) :
    Interpreter.load w address s =
      .ok (fromLeBytes w (s.memory.bytesAt address (w / 8))) s := by
  rw [Interpreter.load, onPart_apply, Embive.load_of_mapped h hw]
  rfl

theorem Interpreter.load_of_not_mapped (h : ¬s.memory.Mapped address (w / 8)) :
    ∃ e, Interpreter.load w address s = .error e s := by
  obtain ⟨e, he⟩ := Embive.load_of_not_mapped h
  refine ⟨e, ?_⟩
  rw [Interpreter.load, onPart_apply, he]
  rfl

theorem Interpreter.store_of_writable {value : BitVec w}
    (h : s.memory.Writable address (w / 8)) :
    Interpreter.store value address s =
      .ok ⟨⟩ { s with memory := s.memory.write address (toLeBytes value) } := by
  rw [Interpreter.store, onPart_apply, Embive.store_of_writable h]
  rfl

theorem Interpreter.store_of_not_writable (value : BitVec w)
    (h : ¬s.memory.Writable address (w / 8)) :
    ∃ e, Interpreter.store value address s = .error e s := by
  obtain ⟨e, he⟩ := Embive.store_of_not_writable value h
  refine ⟨e, ?_⟩
  rw [Interpreter.store, onPart_apply, he]
  rfl

theorem Interpreter.store_ok {value : BitVec w} {t : Interpreter SliceMemory}
    (h : Interpreter.store value address s = .ok ⟨⟩ t) :
    s.memory.Writable address (w / 8) ∧
      t = { s with memory := s.memory.write address (toLeBytes value) } := by
  by_cases hwritable : s.memory.Writable address (w / 8)
  · rw [Interpreter.store_of_writable hwritable] at h
    cases h
    exact ⟨hwritable, rfl⟩
  · obtain ⟨e, he⟩ := Interpreter.store_of_not_writable value hwritable
    rw [he] at h
    cases h

end Interpreter

end Embive
