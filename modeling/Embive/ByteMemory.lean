import Embive.SliceAccess

/-! # Slice memory as a byte-addressed memory

After any stores, a load gives at each address the byte that was stored there last, or the
initial one, and the accesses that are refused are those that leave the code or RAM.
-/

namespace Embive

open EStateM

section Regions

variable (m : SliceMemory) (address : U32) (n : ℕ)

/-- The range lies wholly in the code, which is mapped from zero on. -/
def SliceMemory.InCode : Prop := address.toNat + n ≤ m.code.length

/-- The range lies wholly in RAM, which is mapped from `0x80000000` on. -/
def SliceMemory.InRam : Prop :=
  0x80000000 ≤ address.toNat ∧ address.toNat + n ≤ 0x80000000 + m.ram.length

instance : Decidable (m.InCode address n) := inferInstanceAs (Decidable (_ ≤ _))

instance : Decidable (m.InRam address n) := inferInstanceAs (Decidable (_ ∧ _))

/-- The byte at an address. -/
def SliceMemory.byteAt (x : ℕ) : Option U8 :=
  if 0x80000000 ≤ x then m.ram[x - 0x80000000]? else m.code[x]?

end Regions

/-- A call of `store_bytes`, or of the store of an integer or a `bool`. -/
inductive StoreCall where
  | bytes (address : U32) (data : List U8)
  | integer {n : ℕ} (value : BitVec (8 * n)) (address : U32)
  | bool (value : Bool) (address : U32)

namespace StoreCall

def address : StoreCall → U32
  | .bytes address _ => address
  | .integer _ address => address
  | .bool _ address => address

/-- The bytes to be stored. -/
def data : StoreCall → List U8
  | .bytes _ data => data
  | .integer value _ => toLeBytes value
  | .bool value _ => toLeBytes ((BitVec.ofBool value).setWidth 8)

variable [Target]

/-- The call on slice memory. -/
def run : StoreCall → EStateM Error SliceMemory PUnit
  | .bytes address data => Memory.storeBytes address data
  | .integer value address => MemoryType.store value address
  | .bool value address => MemoryType.storeBool value address

theorem run_eq (c : StoreCall) : c.run = Memory.storeBytes c.address c.data := by
  cases c <;> rfl

theorem run_of_writable {c : StoreCall} {m : SliceMemory} (h : m.Writable c.address c.data.length) :
    c.run m = .ok ⟨⟩ (m.write c.address c.data) := by
  rw [run_eq]
  simp only [Memory.storeBytes, updates_apply, SliceMemory.storeBytes_of_writable h]

theorem run_of_not_writable {c : StoreCall} {m : SliceMemory}
    (h : ¬m.Writable c.address c.data.length) : ∃ e, c.run m = .error e m := by
  obtain ⟨e, he⟩ := SliceMemory.storeBytes_of_not_writable h
  refine ⟨e, ?_⟩
  rw [run_eq]
  simp only [Memory.storeBytes, updates_apply, he]

/-- A call is accepted exactly when its range is writable, and a refused one changes nothing. -/
theorem run_ok_iff {c : StoreCall} {m : SliceMemory} :
    (∃ m', c.run m = .ok ⟨⟩ m') ↔ m.Writable c.address c.data.length := by
  constructor
  · rintro ⟨m', h⟩
    by_contra hno
    obtain ⟨e, he⟩ := run_of_not_writable hno
    rw [he] at h
    cases h
  · intro h
    exact ⟨_, run_of_writable h⟩

theorem run_error {c : StoreCall} {m m' : SliceMemory} {e : Error} (h : c.run m = .error e m') :
    m' = m := by
  by_cases hwritable : m.Writable c.address c.data.length
  · rw [run_of_writable hwritable] at h
    cases h
  · obtain ⟨e', he⟩ := run_of_not_writable hwritable
    rw [he] at h
    cases h
    rfl

theorem run_empty {c : StoreCall} (m : SliceMemory) (h : c.data = []) : (c.run m).state = m := by
  by_cases hwritable : m.Writable c.address c.data.length
  · rw [run_of_writable hwritable, h]
    exact congrArg (SliceMemory.mk m.code) Lib.splice_nil
  · obtain ⟨e, he⟩ := run_of_not_writable hwritable
    rw [he]
    rfl

end StoreCall

/-- The memory after calls, of which the refused ones return to the host. -/
def afterCalls [Target] (calls : List StoreCall) (m : SliceMemory) : SliceMemory :=
  calls.foldl (fun m c => (c.run m).state) m

/-- The byte that a call which lies in RAM stores at an address. -/
def StoreCall.byteAt (c : StoreCall) (m : SliceMemory) (x : ℕ) : Option U8 :=
  if m.InRam c.address c.data.length ∧ c.address.toNat ≤ x then c.data[x - c.address.toNat]?
  else none

/-- The byte stored last at an address, by the calls that lie in RAM. -/
def lastStored (m : SliceMemory) (calls : List StoreCall) (x : ℕ) : Option U8 :=
  calls.reverse.findSome? (fun c => c.byteAt m x)

/-- The byte stored last at an address, or the initial one. -/
def contentAt (m : SliceMemory) (calls : List StoreCall) (x : ℕ) : Option U8 :=
  (lastStored m calls x).or (m.byteAt x)

/-- The memory `m` answers accesses as the initial memory does after the calls. -/
structure ByteAddressed [Target] (initial : SliceMemory) (calls : List StoreCall)
    (m : SliceMemory) : Prop where
  load_iff : ∀ address n, 1 ≤ n →
    ((∃ bytes, Memory.loadBytes address n m = .ok bytes m) ↔
      initial.InCode address n ∨ initial.InRam address n)
  load_bytes : ∀ address n bytes m', 1 ≤ n → Memory.loadBytes address n m = .ok bytes m' →
    m' = m ∧ bytes.length = n ∧ ∀ i < n, bytes[i]? = contentAt initial calls (address.toNat + i)
  code_byte : ∀ x < 0x80000000, contentAt initial calls x = initial.code[x]?
  store_iff : ∀ c : StoreCall, c.data ≠ [] →
    ((∃ m', c.run m = .ok ⟨⟩ m') ↔ initial.InRam c.address c.data.length)
  store_refused : ∀ (c : StoreCall) e m', c.run m = .error e m' → m' = m
  store_empty : ∀ c : StoreCall, c.data = [] → (c.run m).state = m
  integer : ∀ n (value : BitVec (8 * n)) address m', 1 ≤ n →
    MemoryType.store value address m = .ok ⟨⟩ m' →
      MemoryType.load (8 * n) address m' = .ok value m'
  bool : ∀ value address m', MemoryType.storeBool value address m = .ok ⟨⟩ m' →
    MemoryType.loadBool address m' = .ok value m'

section Bounded

variable {m : SliceMemory} {address : U32} {n : ℕ}

theorem mapped_iff (hcode : m.code.length ≤ 2 ^ 31) (hn : 1 ≤ n) :
    m.Mapped address n ↔ m.InCode address n ∨ m.InRam address n := by
  rw [SliceMemory.Mapped, SliceMemory.InCode, SliceMemory.InRam]
  by_cases hram : ramOffset ≤ address
  · have hindex := ramIndex_of_le hram
    have hle : 2 ^ 31 ≤ address.toNat := hram
    rw [if_pos hram]
    omega
  · have hlt : ¬2 ^ 31 ≤ address.toNat := hram
    rw [if_neg hram]
    omega

variable [Target]

theorem writable_iff (hram : m.ram.length ≤ 2 ^ 31) (hn : 1 ≤ n) :
    m.Writable address n ↔ m.InRam address n := by
  have husize := @SliceMemory.usize_ge _
  by_cases hle : ramOffset ≤ address
  · have hindex := ramIndex_of_le hle
    have hle' : 2 ^ 31 ≤ address.toNat := hle
    constructor
    · intro h
      have hinside := h.inside
      constructor <;> omega
    · rintro ⟨-, hend⟩
      constructor <;> omega
  · have hindex := ramIndex_of_lt hle
    have hlt : ¬2 ^ 31 ≤ address.toNat := hle
    constructor
    · intro h
      have hinside := h.inside
      omega
    · rintro ⟨hstart, -⟩
      omega

/-- A load reads the bytes of a mapped range and is refused elsewhere. -/
theorem loadBytes_cases (hcode : m.code.length ≤ 2 ^ 31) (hram : m.ram.length ≤ 2 ^ 31) :
    (m.Mapped address n ∧ Memory.loadBytes address n m = .ok (m.bytesAt address n) m) ∨
      ¬m.Mapped address n ∧ ∃ e, Memory.loadBytes address n m = .error e m := by
  by_cases h : m.Mapped address n
  · have hn : n ≤ 2 ^ 31 := by
      rw [SliceMemory.Mapped] at h
      split_ifs at h <;> omega
    refine .inl ⟨h, ?_⟩
    simp only [Memory.loadBytes, reads_apply, SliceMemory.loadBytes_of_mapped h hn]
  · obtain ⟨e, he⟩ := SliceMemory.loadBytes_of_not_mapped h
    refine .inr ⟨h, e, ?_⟩
    simp only [Memory.loadBytes, reads_apply, he]

end Bounded

section Bytes

variable {m : SliceMemory} {address : U32} {n i : ℕ}

/-- The bytes of a range are those at its addresses. -/
theorem bytesAt_get (h : m.InCode address n ∨ m.InRam address n) (hcode : m.code.length ≤ 2 ^ 31)
    (hi : i < n) : (m.bytesAt address n)[i]? = m.byteAt (address.toNat + i) := by
  rw [SliceMemory.InCode, SliceMemory.InRam] at h
  rw [SliceMemory.bytesAt, SliceMemory.byteAt]
  by_cases hram : ramOffset ≤ address
  · have hle : 2 ^ 31 ≤ address.toNat := hram
    have hindex : address.toNat + i - 0x80000000 = address.toNat - 2 ^ 31 + i := by omega
    rw [if_pos hram, if_pos (by omega), Lib.slice_get, if_pos hi, ramIndex_of_le hram, hindex]
  · have hlt : ¬2 ^ 31 ≤ address.toNat := hram
    rw [if_neg hram, if_neg (by omega), Lib.slice_get, if_pos hi]

variable [Target]

/-- A call changes the bytes that it stores. -/
theorem StoreCall.byteAt_run (c : StoreCall) (hram : m.ram.length ≤ 2 ^ 31) (x : ℕ) :
    ((c.run m).state.byteAt x = (c.byteAt m x).or (m.byteAt x)) ∧
      (c.run m).state.code = m.code ∧ (c.run m).state.ram.length = m.ram.length := by
  by_cases hwritable : m.Writable c.address c.data.length
  · have hlength : (m.write c.address c.data).ram.length = m.ram.length :=
      Lib.splice_length hwritable.inside
    rw [run_of_writable hwritable]
    refine ⟨?_, rfl, hlength⟩
    by_cases hempty : c.data = []
    · simp only [Result.state_ok, SliceMemory.write, byteAt, hempty, Lib.splice_nil,
        List.getElem?_nil, ite_self, Option.none_or]
    · have hin : m.InRam c.address c.data.length :=
        (writable_iff hram (List.length_pos_iff.mpr hempty)).mp hwritable
      have hindex := ramIndex_of_le hin.1
      have hstart : 2 ^ 31 ≤ c.address.toNat := hin.1
      simp only [Result.state_ok, SliceMemory.byteAt, byteAt, SliceMemory.write,
        Lib.splice_get hwritable.inside, and_iff_right hin]
      by_cases hx : 0x80000000 ≤ x
      · rw [if_pos hx, if_pos hx]
        by_cases hrange : c.address.toNat ≤ x ∧ x < c.address.toNat + c.data.length
        · have hget : x - c.address.toNat < c.data.length := by omega
          have hsub : x - 0x80000000 - ramIndex c.address = x - c.address.toNat := by omega
          rw [if_pos (by omega), if_pos hrange.1, hsub, List.getElem?_eq_getElem hget,
            Option.some_or]
        · rw [if_neg (by omega)]
          by_cases hle : c.address.toNat ≤ x
          · have hnone : c.data[x - c.address.toNat]? = none := List.getElem?_eq_none (by omega)
            rw [if_pos hle, hnone, Option.none_or]
          · rw [if_neg hle, Option.none_or]
      · rw [if_neg hx, if_neg hx, if_neg (by omega), Option.none_or]
  · obtain ⟨e, he⟩ := run_of_not_writable hwritable
    rw [he]
    refine ⟨?_, rfl, rfl⟩
    have hnone : c.byteAt m x = none := by
      by_cases hempty : c.data = []
      · simp only [byteAt, hempty, List.getElem?_nil, ite_self]
      · have hno := mt (writable_iff hram (List.length_pos_iff.mpr hempty)).mpr hwritable
        rw [byteAt, if_neg (fun hand => hno hand.1)]
    rw [hnone, Option.none_or]
    rfl

omit [Target] in
theorem lastStored_concat (calls : List StoreCall) (c : StoreCall) (x : ℕ) :
    lastStored m (calls ++ [c]) x = (c.byteAt m x).or (lastStored m calls x) := by
  rw [lastStored, List.reverse_append, List.reverse_singleton, List.singleton_append,
    List.findSome?_cons]
  cases c.byteAt m x <;> rfl

/-- The memory after calls has at each address the byte stored last. -/
theorem byteAt_afterCalls (hram : m.ram.length ≤ 2 ^ 31) (calls : List StoreCall) :
    (∀ x, (afterCalls calls m).byteAt x = contentAt m calls x) ∧
      (afterCalls calls m).code = m.code ∧
      (afterCalls calls m).ram.length = m.ram.length := by
  induction calls using List.reverseRecOn with
  | nil => exact ⟨fun x => Option.none_or.symm, rfl, rfl⟩
  | append_singleton calls c ih =>
    obtain ⟨hbyte, hcode, hlength⟩ := ih
    have hafter : afterCalls (calls ++ [c]) m = (c.run (afterCalls calls m)).state := by
      rw [afterCalls, List.foldl_append]
      rfl
    have hin (address : U32) (n : ℕ) :
        (afterCalls calls m).InRam address n ↔ m.InRam address n := by
      rw [SliceMemory.InRam, SliceMemory.InRam, hlength]
    have hcall (x : ℕ) : c.byteAt (afterCalls calls m) x = c.byteAt m x := by
      simp only [StoreCall.byteAt, hin]
    have hstep := c.byteAt_run (hlength ▸ hram : (afterCalls calls m).ram.length ≤ 2 ^ 31)
    rw [hafter]
    refine ⟨?_, (hstep 0).2.1.trans hcode, (hstep 0).2.2.trans hlength⟩
    intro x
    rw [(hstep x).1, hcall, hbyte, contentAt, contentAt, lastStored_concat, Option.or_assoc]

end Bytes

section RoundTrips

variable {w : ℕ}

theorem fromLeBytes_toLeBytes (n : ℕ) (value : BitVec (8 * n)) :
    fromLeBytes (8 * n) (toLeBytes value) = value := by
  have hbase : 256 ^ n = 2 ^ (8 * n) := (pow_mul 2 8 n).symm
  have hlt : value.toNat < 256 ^ n := hbase ▸ value.isLt
  have hdiv : 8 * n / 8 = n := Nat.mul_div_cancel_left n (by decide)
  apply BitVec.eq_of_toNat_eq
  rw [fromLeBytes, leNat_toLeBytes, hdiv, Nat.mod_eq_of_lt hlt, BitVec.toNat_ofNat,
    Nat.mod_eq_of_lt value.isLt]

variable [Target] {m m' : SliceMemory} {address : U32}

/-- A store that is accepted is read back. -/
theorem load_of_store (hram : m.ram.length ≤ 2 ^ 31) {n : ℕ} (hn : 1 ≤ n)
    {value : BitVec (8 * n)} (h : MemoryType.store value address m = .ok ⟨⟩ m') :
    MemoryType.load (8 * n) address m' = .ok value m' := by
  have hdiv : 8 * n / 8 = n := Nat.mul_div_cancel_left n (by decide)
  have hlength : (toLeBytes value).length = n := (length_toLeBytes value).trans hdiv
  obtain ⟨hwritable, rfl⟩ := store_ok h
  rw [hdiv] at hwritable
  have hin := (writable_iff hram hn).mp hwritable
  have hle : ramOffset ≤ address := hin.1
  have hinside := hwritable.inside
  have hsplice : ramIndex address + (toLeBytes value).length ≤ m.ram.length :=
    hlength.symm ▸ hinside
  have hmapped : (m.write address (toLeBytes value)).Mapped address (8 * n / 8) := by
    rw [SliceMemory.Mapped, if_pos hle, SliceMemory.write, Lib.splice_length hsplice, hdiv]
    exact hinside
  have hbytes : (m.write address (toLeBytes value)).bytesAt address (8 * n / 8) =
      toLeBytes value := by
    rw [SliceMemory.bytesAt, if_pos hle, SliceMemory.write, ← length_toLeBytes value]
    exact Lib.slice_splice hsplice
  rw [load_of_mapped hmapped (by omega), hbytes, fromLeBytes_toLeBytes]

theorem loadBool_of_storeBool (hram : m.ram.length ≤ 2 ^ 31) {value : Bool}
    (h : MemoryType.storeBool value address m = .ok ⟨⟩ m') :
    MemoryType.loadBool address m' = .ok value m' := by
  have hload : MemoryType.load 8 address m' = .ok ((BitVec.ofBool value).setWidth 8) m' :=
    load_of_store (n := 1) hram le_rfl h
  rw [MemoryType.loadBool, bind_ok hload]
  cases value <;> rfl

end RoundTrips

/-- Slice memory whose slices have at most `2 ^ 31` bytes is a byte-addressed memory,
after any calls that store. -/
theorem sliceMemory_byteAddressed [Target] {m : SliceMemory} (hcode : m.code.length ≤ 2 ^ 31)
    (hram : m.ram.length ≤ 2 ^ 31) (calls : List StoreCall) :
    ByteAddressed m calls (afterCalls calls m) := by
  obtain ⟨hbyte, hcode', hlength⟩ := byteAt_afterCalls hram calls
  generalize afterCalls calls m = m' at hbyte hcode' hlength ⊢
  have hcodeLe : m'.code.length ≤ 2 ^ 31 := hcode'.symm ▸ hcode
  have hramLe : m'.ram.length ≤ 2 ^ 31 := hlength.symm ▸ hram
  have hregions (address : U32) (n : ℕ) : m'.InCode address n ∨ m'.InRam address n ↔
      m.InCode address n ∨ m.InRam address n := by
    rw [SliceMemory.InCode, SliceMemory.InRam, hcode', hlength]
    rfl
  have hinRam (address : U32) (n : ℕ) : m'.InRam address n ↔ m.InRam address n := by
    rw [SliceMemory.InRam, SliceMemory.InRam, hlength]
  constructor
  · intro address n hn
    rw [← hregions, ← mapped_iff hcodeLe hn]
    rcases @loadBytes_cases m' address n _ hcodeLe hramLe with ⟨hmapped, hload⟩ | ⟨hno, e, he⟩
    · exact iff_of_true ⟨_, hload⟩ hmapped
    · refine iff_of_false ?_ hno
      rintro ⟨bytes, hbytes⟩
      rw [he] at hbytes
      cases hbytes
  · intro address n bytes t hn h
    rcases @loadBytes_cases m' address n _ hcodeLe hramLe with ⟨hmapped, hload⟩ | ⟨hno, e, he⟩
    · rw [hload] at h
      cases h
      refine ⟨rfl, SliceMemory.bytesAt_length hmapped, ?_⟩
      intro i hi
      rw [bytesAt_get ((mapped_iff hcodeLe hn).mp hmapped) hcodeLe hi, hbyte]
    · rw [he] at h
      cases h
  · intro x hx
    rw [← hbyte, SliceMemory.byteAt, if_neg (by omega), hcode']
  · intro c hdata
    rw [← hinRam, ← writable_iff hramLe (List.length_pos_iff.mpr hdata)]
    exact StoreCall.run_ok_iff
  · intro c e t h
    exact StoreCall.run_error h
  · intro c hdata
    exact StoreCall.run_empty m' hdata
  · intro n value address t hn h
    exact load_of_store hramLe hn h
  · intro value address t h
    exact loadBool_of_storeBool hramLe h

theorem sliceMemory_byteAddressed_overlap : letI := Target.release64
    ByteAddressed ⟨[1, 2, 3, 4], [0, 0, 0, 0]⟩
      [.integer (0x0403 : BitVec (8 * 2)) 0x80000000, .bytes 0x80000001 [9], .bool true 2]
      ⟨[1, 2, 3, 4], [3, 9, 0, 0]⟩ := by
  let _ := Target.release64
  exact sliceMemory_byteAddressed (m := ⟨[1, 2, 3, 4], [0, 0, 0, 0]⟩) (by decide) (by decide) _

end Embive
