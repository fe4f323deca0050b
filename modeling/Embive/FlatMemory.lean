import Embive.ByteMemory
import Embive.Growth

/-! # The memory that the guest sees

To the guest a slice memory is one range of addresses with a byte at each that is mapped, some
of which can be changed. A host finds the same in an interpreter over either.
-/

namespace Embive

open EStateM

/-- The bytes at the addresses, and the addresses that can be stored to. -/
structure FlatMemory where
  content : ℕ → Option U8
  storable : ℕ → Bool

namespace FlatMemory

/-- The bytes from an address on, as many as are asked for, if all are mapped. -/
def read (m : FlatMemory) : ℕ → ℕ → Option (List U8)
  | _, 0 => some []
  | x, n + 1 =>
    match m.content x, read m (x + 1) n with
    | some b, some bytes => some (b :: bytes)
    | _, _ => none

/-- The memory with these bytes at an address. -/
def write (m : FlatMemory) (x : ℕ) (data : List U8) : FlatMemory :=
  { m with content := fun y => (if x ≤ y then data[y - x]? else none).or (m.content y) }

def loadBytes (m : FlatMemory) (address : U32) (n : ℕ) : Except Error (List U8) :=
  match m.read address.toNat n with
  | some bytes => .ok bytes
  | none => .error (.invalidMemoryAddress address)

def storeBytes (m : FlatMemory) (address : U32) (data : List U8) : Except Error FlatMemory :=
  if ∀ i < data.length, m.storable (address.toNat + i) = true then
    .ok (m.write address.toNat data)
  else .error (.invalidMemoryAddress address)

theorem read_eq_some_iff {m : FlatMemory} {x n : ℕ} {bytes : List U8} :
    m.read x n = some bytes ↔
      bytes.length = n ∧ ∀ i < n, bytes[i]? = m.content (x + i) := by
  induction n generalizing x bytes with
  | zero =>
    rw [read]
    constructor
    · intro h
      cases h
      exact ⟨rfl, fun i hi => absurd hi (Nat.not_lt_zero i)⟩
    · rintro ⟨hlength, -⟩
      rw [List.length_eq_zero_iff.mp hlength]
  | succ n ih =>
    rw [read]
    constructor
    · intro h
      split at h
      · rename_i b rest hb hrest
        cases h
        obtain ⟨hlength, hget⟩ := ih.mp hrest
        refine ⟨congrArg (· + 1) hlength, ?_⟩
        intro i hi
        cases i with
        | zero => exact hb.symm
        | succ i =>
          rw [List.getElem?_cons_succ, hget i (Nat.lt_of_succ_lt_succ hi), Nat.add_right_comm]
          rfl
      · cases h
    · rintro ⟨hlength, hget⟩
      cases bytes with
      | nil => cases hlength
      | cons b bytes =>
        have hb : m.content x = some b := (hget 0 (Nat.succ_pos n)).symm
        have hrest : m.read (x + 1) n = some bytes := by
          apply ih.mpr
          refine ⟨Nat.succ.inj hlength, ?_⟩
          intro i hi
          have hi' := hget (i + 1) (Nat.succ_lt_succ hi)
          rw [List.getElem?_cons_succ] at hi'
          rw [hi', Nat.add_right_comm]
          rfl
        rw [hb, hrest]

end FlatMemory

instance : Memory FlatMemory where
  loadBytes address n := reads (fun m => m.loadBytes address n)
  storeBytes address data := updates (fun m => m.storeBytes address data)

/-- The flat memory holds the bytes of the slices, of which the code can grow no further. -/
structure Flattens (m : SliceMemory) (f : FlatMemory) : Prop where
  code_lt : m.code.length < 2 ^ 31
  ram_le : m.ram.length ≤ 2 ^ 31
  content : ∀ x, f.content x = m.byteAt x
  storable : ∀ x, f.storable x = true ↔ 2 ^ 31 ≤ x ∧ x < 2 ^ 31 + m.ram.length

/-- The flat memory that holds the bytes of the slices. -/
def SliceMemory.flat (m : SliceMemory) : FlatMemory where
  content := m.byteAt
  storable x := decide (2 ^ 31 ≤ x ∧ x < 2 ^ 31 + m.ram.length)

theorem SliceMemory.flattens_flat (m : SliceMemory) (hcode : m.code.length < 2 ^ 31)
    (hram : m.ram.length ≤ 2 ^ 31) : Flattens m m.flat :=
  ⟨hcode, hram, fun _ => rfl, fun _ => decide_eq_true_iff⟩

section Bytes

variable {m : SliceMemory} {address : U32} {n : ℕ}

theorem byteAt_isSome_iff (x : ℕ) : (m.byteAt x).isSome ↔
    (2 ^ 31 ≤ x ∧ x < 2 ^ 31 + m.ram.length) ∨ x < 2 ^ 31 ∧ x < m.code.length := by
  have hoffset : (0x80000000 : ℕ) = 2 ^ 31 := rfl
  rw [SliceMemory.byteAt, hoffset]
  by_cases hx : 2 ^ 31 ≤ x
  · rw [if_pos hx, isSome_getElem?]
    omega
  · rw [if_neg hx, isSome_getElem?]
    omega

/-- The bytes of a range are mapped one by one where the range is. -/
theorem inCode_or_inRam_iff (hcode : m.code.length < 2 ^ 31) (hn : 1 ≤ n) :
    m.InCode address n ∨ m.InRam address n ↔
      ∀ i < n, (m.byteAt (address.toNat + i)).isSome := by
  have hoffset : (0x80000000 : ℕ) = 2 ^ 31 := rfl
  simp only [byteAt_isSome_iff]
  rw [SliceMemory.InCode, SliceMemory.InRam, hoffset]
  constructor
  · intro h i hi
    omega
  · intro h
    have hfirst := h 0 hn
    have hlast := h (n - 1) (by omega)
    by_cases hram : 2 ^ 31 ≤ address.toNat
    · omega
    · by_cases hcross : address.toNat + n ≤ 2 ^ 31
      · omega
      · have hedge := h (2 ^ 31 - 1 - address.toNat) (by omega)
        omega

end Bytes

section Accesses

variable [Target] {m : SliceMemory} {f : FlatMemory} {address : U32} {n : ℕ} {data : List U8}

/-- A load gives the same bytes, or is refused by both memories. -/
theorem loadBytes_flat (h : Flattens m f) (hn : 1 ≤ n) :
    (∃ bytes, m.loadBytes address n = .ok bytes ∧ f.loadBytes address n = .ok bytes) ∨
      (∃ e, m.loadBytes address n = .error e) ∧ ∃ e, f.loadBytes address n = .error e := by
  have hcode := h.code_lt
  have hram := h.ram_le
  have hmapped : m.Mapped address n ↔ m.InCode address n ∨ m.InRam address n :=
    mapped_iff hcode.le hn
  by_cases hin : m.InCode address n ∨ m.InRam address n
  · have hn' : n ≤ 2 ^ 31 := by
      rw [SliceMemory.InCode, SliceMemory.InRam] at hin
      omega
    have hread : f.read address.toNat n = some (m.bytesAt address n) := by
      apply FlatMemory.read_eq_some_iff.mpr
      refine ⟨SliceMemory.bytesAt_length (hmapped.mpr hin), ?_⟩
      intro i hi
      rw [bytesAt_get hin hcode.le hi, h.content]
    left
    refine ⟨_, SliceMemory.loadBytes_of_mapped (hmapped.mpr hin) hn', ?_⟩
    rw [FlatMemory.loadBytes, hread]
  · have hread : f.read address.toNat n = none := by
      cases hread : f.read address.toNat n with
      | none => rfl
      | some bytes =>
        obtain ⟨hlength, hget⟩ := FlatMemory.read_eq_some_iff.mp hread
        apply absurd _ hin
        apply (inCode_or_inRam_iff hcode hn).mpr
        intro i hi
        rw [← h.content, ← hget i hi, isSome_getElem?, hlength]
        exact hi
    right
    refine ⟨SliceMemory.loadBytes_of_not_mapped (mt hmapped.mp hin), ?_⟩
    rw [FlatMemory.loadBytes, hread]
    exact ⟨_, rfl⟩

/-- A store changes both memories alike, or is refused by both. -/
theorem storeBytes_flat (h : Flattens m f) (hdata : 1 ≤ data.length) :
    (∃ m' f', m.storeBytes address data = .ok m' ∧ f.storeBytes address data = .ok f' ∧
      Flattens m' f') ∨
      (∃ e, m.storeBytes address data = .error e) ∧ ∃ e, f.storeBytes address data = .error e := by
  have hram := h.ram_le
  have hwritable : m.Writable address data.length ↔ m.InRam address data.length :=
    writable_iff hram hdata
  have hstorable : (∀ i < data.length, f.storable (address.toNat + i) = true) ↔
      m.InRam address data.length := by
    simp only [h.storable]
    have hoffset : (0x80000000 : ℕ) = 2 ^ 31 := rfl
    rw [SliceMemory.InRam, hoffset]
    constructor
    · intro hall
      have hfirst := hall 0 hdata
      have hlast := hall (data.length - 1) (by omega)
      omega
    · intro hin i hi
      omega
  by_cases hin : m.InRam address data.length
  · have hwrite := hwritable.mpr hin
    left
    refine ⟨_, _, SliceMemory.storeBytes_of_writable hwrite, if_pos (hstorable.mpr hin), ?_⟩
    have hlength : (m.write address data).ram.length = m.ram.length :=
      Lib.splice_length hwrite.inside
    have hrun : ((StoreCall.bytes address data).run m).state = m.write address data :=
      congrArg Result.state (StoreCall.run_of_writable (c := .bytes address data) hwrite)
    refine ⟨h.code_lt, hlength ▸ hram, ?_, ?_⟩
    · intro x
      have hx := ((StoreCall.bytes address data).byteAt_run hram x).1
      simp only [hrun, StoreCall.byteAt, StoreCall.address, StoreCall.data,
        and_iff_right hin] at hx
      rw [hx, ← h.content]
      rfl
    · intro x
      rw [hlength]
      exact h.storable x
  · right
    refine ⟨SliceMemory.storeBytes_of_not_writable (mt hwritable.mp hin),
      .invalidMemoryAddress address, ?_⟩
    exact if_neg (mt hstorable.mp hin)

omit [Target] in
theorem FlatMemory.loadBytes_fault {e : Error} (h : f.loadBytes address n = .error e) :
    e.IsMemoryFault := by
  unfold FlatMemory.loadBytes at h
  split at h <;> cases h
  trivial

omit [Target] in
theorem FlatMemory.storeBytes_fault {e : Error} (h : f.storeBytes address data = .error e) :
    e.IsMemoryFault := by
  unfold FlatMemory.storeBytes at h
  split_ifs at h
  cases h
  trivial

omit [Target] in
theorem one_le_of_mem (hn : n ∈ [1, 2, 4]) : 1 ≤ n := by
  revert hn
  simp only [List.mem_cons, List.not_mem_nil, or_false]
  omega

/-- The flat memory does what the slice memory does. -/
theorem flattens_tracks : MemoryTracks Error.IsMemoryFault Flattens where
  load address n hn := by
    apply tracks_reads
    · intro m f bytes h hload
      rcases loadBytes_flat h (one_le_of_mem hn) with ⟨bytes', hm, hf⟩ | ⟨⟨e, he⟩, -⟩
      · rw [hload] at hm
        cases hm
        exact hf
      · rw [hload] at he
        cases he
    · intro m e h
      exact loadBytes_fault h
  store address data hdata := by
    apply tracks_updates
    · intro m f m' h hstore
      rcases storeBytes_flat h (one_le_of_mem hdata) with ⟨m'', f', hm, hf, h'⟩ | ⟨⟨e, he⟩, -⟩
      · rw [hstore] at hm
        cases hm
        exact ⟨f', hf, h'⟩
      · rw [hstore] at he
        cases he
    · intro m e h
      exact storeBytes_fault h

/-- The slice memory does what the flat memory does. -/
theorem flattened_tracks : MemoryTracks Error.IsMemoryFault (flip Flattens) where
  load address n hn := by
    apply tracks_reads
    · intro f m bytes h hload
      rcases loadBytes_flat h (one_le_of_mem hn) with ⟨bytes', hm, hf⟩ | ⟨-, e, he⟩
      · rw [hload] at hf
        cases hf
        exact hm
      · rw [hload] at he
        cases he
    · intro f e h
      exact FlatMemory.loadBytes_fault h
  store address data hdata := by
    apply tracks_updates
    · intro f m f' h hstore
      rcases storeBytes_flat h (one_le_of_mem hdata) with ⟨m', f'', hm, hf, h'⟩ | ⟨-, e, he⟩
      · rw [hstore] at hf
        cases hf
        exact ⟨m', hm, h'⟩
      · rw [hstore] at he
        cases he
    · intro f e h
      exact FlatMemory.storeBytes_fault h

end Accesses

section Hosts

variable [Target] {E α : Type} {V : E → Prop} {s : Interpreter SliceMemory}
  {t : Interpreter FlatMemory}

/-- A host finds the same over the slices as over one flat memory, or both find an access that
is not inside. -/
theorem onInterpreter_flat {host : Host SliceMemory E α} {host' : Host FlatMemory E α}
    (h : host.Alike V Flattens host') (h' : host'.Alike V (flip Flattens) host) (fuel : ℕ)
    (hst : SameGuest Flattens s t) :
    (∃ e s' e' t', host.onInterpreter fuel s = .error e s' ∧
      host'.onInterpreter fuel t = .error e' t' ∧ e.Is Error.IsMemoryFault V ∧
        e'.Is Error.IsMemoryFault V) ∨
      Coincide (SameGuest Flattens) (host.onInterpreter fuel s) (host'.onInterpreter fuel t) := by
  rcases h.onInterpreter flattens_tracks fuel s t hst with ⟨e, s', hs, he⟩ | hsame
  · left
    have hts : SameGuest (flip Flattens) t s :=
      ⟨hst.programCounter.symm, hst.registers.symm, hst.instructionLimit.symm,
        hst.memoryReservation.symm, hst.memory⟩
    rcases h'.onInterpreter flattened_tracks fuel t s hts with ⟨e', t', ht, he'⟩ | hsame
    · exact ⟨e, s', e', t', hs, ht, he, he'⟩
    · rw [hs] at hsame
      cases ht : host'.onInterpreter fuel t with
      | ok a t' =>
        rw [ht] at hsame
        exact hsame.elim
      | error e' t' =>
        rw [ht] at hsame
        exact ⟨e, s', e', t', hs, rfl, he, hsame.1.symm ▸ he⟩
  · exact .inr hsame

/-- A host that answers a system call with the word at its first argument. -/
def peeking (M : Type) [Memory M] : Host M Error State :=
  .run 0 fun _ => .syscall (fun _ args => do
    let bytes ← Memory.loadBytes args[0] 4
    return .ok (fromLeBytes 32 bytes)) (.run 0 .done)

omit [Target] in
theorem peeking_alike {M M' : Type} [Memory M] [Memory M'] {R : M → M' → Prop}
    (h : MemoryTracks Error.IsMemoryFault R) :
    (peeking M).Alike Error.IsMemoryFault R (peeking M') := by
  apply Host.Alike.run
  intro state
  apply Host.Alike.syscall
  · intro nr args
    apply (h.load args[0] 4 (by decide)).bind
    intro bytes
    exact tracks_pure _
  · exact .run 0 (fun state => .done state)

/-- A guest that stores seven to RAM, loads it, and calls with the address. -/
def peeked : SliceMemory :=
  ⟨[28, 5, 0, 128, 29, 44, 112, 0, 155, 47, 5, 0, 27, 49, 5, 0, 31, 0, 0, 0, 31, 0, 16, 0],
    [1, 2, 3, 4]⟩

/-- The session ends where the guest stops, with these values in two registers. -/
def Halts (r : Result (HostError Error) (Interpreter SliceMemory) State) (x y : I32) : Bool :=
  match r with
  | .ok .halted s => s.registers.cpu.inner[11] = x && s.registers.cpu.inner[12] = y
  | _ => false

omit [Target] in
theorem peeked_halts : letI := Target.release64
    ∃ s, (peeking SliceMemory).onInterpreter 6 (.new peeked 0) = .ok .halted s ∧
      s.registers.cpu.inner[11] = 7 ∧ s.registers.cpu.inner[12] = 7 := by
  let _ := Target.release64
  have h : Halts ((peeking SliceMemory).onInterpreter 6 (.new peeked 0)) 7 7 = true := by
    decide +kernel
  generalize (peeking SliceMemory).onInterpreter 6 (.new peeked 0) = r at h ⊢
  unfold Halts at h
  split at h
  · next s =>
    rw [Bool.and_eq_true, decide_eq_true_iff, decide_eq_true_iff] at h
    exact ⟨s, rfl, h⟩
  · cases h

omit [Target] in
theorem onInterpreter_flat_peeked : letI := Target.release64
    ∃ t, (peeking FlatMemory).onInterpreter 6 (.new peeked.flat 0) = .ok .halted t ∧
      t.registers.cpu.inner[11] = 7 ∧ t.registers.cpu.inner[12] = 7 := by
  let _ := Target.release64
  obtain ⟨s, hs, hvalues⟩ := peeked_halts
  have hguest : SameGuest Flattens (.new peeked 0) (.new peeked.flat 0) :=
    ⟨rfl, rfl, rfl, rfl, peeked.flattens_flat (by decide) (by decide)⟩
  generalize Interpreter.new peeked 0 = start at hs hguest
  generalize Interpreter.new peeked.flat 0 = start' at hguest ⊢
  rcases onInterpreter_flat (peeking_alike flattens_tracks) (peeking_alike flattened_tracks) 6
    hguest with ⟨e, s', e', t', he, -⟩ | hsame
  · rw [hs] at he
    cases he
  · rw [hs] at hsame
    cases ht : (peeking FlatMemory).onInterpreter 6 start' with
    | ok state t =>
      rw [ht] at hsame
      obtain ⟨rfl, hsame⟩ := hsame
      rw [hsame.registers] at hvalues
      exact ⟨t, rfl, hvalues⟩
    | error e t =>
      rw [ht] at hsame
      exact hsame.elim

end Hosts

end Embive
