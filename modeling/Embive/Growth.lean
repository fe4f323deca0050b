import Embive.Errors
import Embive.Memories

/-! # More memory

Appending bytes to the code or to RAM does not change what a host sees, unless an access was
not inside the memory before: every call returns the same, and leaves the new bytes as they
were.
-/

namespace Embive

open EStateM

/-- The memory with more code and more RAM. -/
def SliceMemory.grow (code ram : List U8) (m : SliceMemory) : SliceMemory :=
  ⟨m.code ++ code, m.ram ++ ram⟩

/-- The second memory is the first one grown. -/
def Grown (code ram : List U8) (m m' : SliceMemory) : Prop := m' = m.grow code ram

section Accesses

variable [Target] {slice more : List U8} {start len stop : ℕ}

theorem checkedSliceRange_fits (h : checkedSliceRange slice start len = .ok stop) :
    start + len < 2 ^ Target.usizeBits := by
  unfold checkedSliceRange at h
  split_ifs at h with hfits hlength
  exact hfits

theorem checkedSliceRange_fault {e : Error} (h : checkedSliceRange slice start len = .error e) :
    e.IsMemoryFault := by
  rcases checkedSliceRange_eq_error h with rfl | ⟨rfl, -⟩ <;> trivial

/-- A range that is valid is one of a longer slice. -/
theorem checkedSliceRange_append (h : checkedSliceRange slice start len = .ok stop) :
    checkedSliceRange (slice ++ more) start len = .ok stop := by
  obtain ⟨rfl, hlength⟩ := checkedSliceRange_eq_ok h
  apply SliceMemory.checkedSliceRange_ok (checkedSliceRange_fits h)
  rw [List.length_append]
  exact hlength.trans (Nat.le_add_right _ _)

variable {m m' : SliceMemory} {address : U32} {n : ℕ} {bytes data code ram : List U8}

theorem slice_append (h : checkedSliceRange slice start len >>= (fun stop =>
      (.ok ((slice.take stop).drop start) : Except Error (List U8))) = .ok bytes) :
    checkedSliceRange (slice ++ more) start len >>= (fun stop =>
      (.ok (((slice ++ more).take stop).drop start) : Except Error (List U8))) = .ok bytes := by
  obtain ⟨stop, hstop, hbytes⟩ := Except.bind_eq_ok h
  rw [Except.bind_ok (checkedSliceRange_append hstop),
    List.take_append_of_le_length (checkedSliceRange_eq_ok hstop).2]
  exact hbytes

theorem loadBytes_grow (h : m.loadBytes address n = .ok bytes) :
    (m.grow code ram).loadBytes address n = .ok bytes := by
  unfold SliceMemory.loadBytes at h ⊢
  split_ifs at h ⊢ with hram
  · exact slice_append h
  · exact slice_append h

theorem loadBytes_fault {e : Error} (h : m.loadBytes address n = .error e) :
    e.IsMemoryFault := by
  obtain ⟨slice, start, -, hrange⟩ := SliceMemory.loadBytes_eq_error h
  exact checkedSliceRange_fault hrange

theorem storeBytes_grow (h : m.storeBytes address data = .ok m') :
    (m.grow code ram).storeBytes address data = .ok (m'.grow code ram) := by
  unfold SliceMemory.storeBytes at h ⊢
  obtain ⟨stop, hstop, hstored⟩ := Except.bind_eq_ok h
  cases hstored
  obtain ⟨hstopEq, hlength⟩ := checkedSliceRange_eq_ok hstop
  dsimp only [SliceMemory.grow]
  rw [Except.bind_ok (checkedSliceRange_append hstop), List.take_append_of_le_length (by omega),
    List.drop_append_of_le_length hlength, ← List.append_assoc]
  rfl

theorem storeBytes_fault {e : Error} (h : m.storeBytes address data = .error e) :
    e.IsMemoryFault := by
  obtain ⟨slice, start, -, hrange⟩ := SliceMemory.storeBytes_eq_error h
  exact checkedSliceRange_fault hrange

end Accesses

/-- A grown memory does what the memory did before. -/
theorem grown_tracks [Target] (code ram : List U8) :
    MemoryTracks Error.IsMemoryFault (Grown code ram) where
  load address n _ := by
    apply tracks_reads
    · rintro m _ bytes rfl h
      exact loadBytes_grow h
    · intro m e h
      exact loadBytes_fault h
  store address data _ := by
    apply tracks_updates
    · rintro m _ m' rfl h
      exact ⟨_, storeBytes_grow h, rfl⟩
    · intro m e h
      exact storeBytes_fault h

section Hosts

variable {E α : Type} {V : E → Prop} {code ram : List U8}

/-- A host finds the same in an interpreter with more memory, and the new bytes as they were,
unless a call found the memory too small. -/
theorem Host.onInterpreter_grow [Target] {host : Host SliceMemory E α}
    (h : host.Alike V (Grown code ram) host) (fuel : ℕ) :
    Tracks (HostError.Is Error.IsMemoryFault V) (SameGuest (Grown code ram))
      (host.onInterpreter fuel) (host.onInterpreter fuel) :=
  h.onInterpreter (grown_tracks code ram) fuel

/-- A host that answers the system calls of a guest with one number, and runs it on. -/
def answering (value : I32) : ℕ → Host SliceMemory Empty State
  | 0 => .run 0 .done
  | n + 1 => .run 0 fun state =>
    if state = .called then .syscall (fun _ _ => pure (.ok value)) (answering value n)
    else .done state

theorem onInterpreter_grow_halted : letI := Target.release64
    ∃ t, (answering 7 1).onInterpreter 2 (.new ⟨[31, 0, 0, 0, 31, 0, 16, 0, 0, 0], [1]⟩ 0) =
      .ok .halted t := by
  let _ := Target.release64
  have halike : (answering 7 1).Alike (fun _ => False) (Grown [0, 0] [1]) (answering 7 1) := by
    apply Host.Alike.run
    intro state
    split_ifs
    · apply Host.Alike.syscall
      · intro nr args
        exact tracks_pure _
      · exact .run 0 (fun state => .done state)
    · exact .done state
  have hsmall : ∃ s, (answering 7 1).onInterpreter 2
      (.new ⟨[31, 0, 0, 0, 31, 0, 16, 0], []⟩ 0) = .ok .halted s := by
    with_unfolding_all exact ⟨_, rfl⟩
  obtain ⟨s, hs⟩ := hsmall
  have hgrown : SameGuest (Grown [0, 0] [1]) (.new ⟨[31, 0, 0, 0, 31, 0, 16, 0], []⟩ 0)
      (.new ⟨[31, 0, 0, 0, 31, 0, 16, 0, 0, 0], [1]⟩ 0) := ⟨rfl, rfl, rfl, rfl, rfl⟩
  obtain ⟨t, ht, -⟩ := (Host.onInterpreter_grow halike 2).ok hgrown hs
  exact ⟨t, ht⟩

end Hosts

end Embive
