import Embive.FailedStep
import Embive.SliceAccess
import Embive.Transpiler.Raw
import Embive.Transpiler.RoundTrip

/-! # Running code that was transpiled in place

The loop starts an instruction only on bytes that it has not written yet, and never
writes a byte again once it is past it. The word that is fetched at such an offset
therefore begins with the bytes of the instruction that was converted there.
-/

namespace Embive.Transpiler

open EStateM Interpreter

section Buffer

variable {code : List U8} {i : ℕ}

/-- Only the bytes from the offset on are read. -/
theorem readRaw_of_drop {original : List U8} (hlength : code.length = original.length)
    (hdrop : code.drop i = original.drop i) : readRaw code i = readRaw original i := by
  rw [readRaw, readRaw, Lib.slice, Lib.slice, Lib.slice, Lib.slice, hlength, hdrop]

end Buffer

section Code

variable [Target]

theorem SliceMemory.store_code {w : ℕ} (value : BitVec w) (address : U32) (memory : SliceMemory) :
    (MemoryType.store value address memory).state.code = memory.code := by
  by_cases hwritable : memory.Writable address (w / 8)
  · rw [store_of_writable hwritable]
    rfl
  · obtain ⟨e, he⟩ := store_of_not_writable value hwritable
    rw [he]
    rfl

/-- No step changes the code region. -/
theorem step_code (s : Interpreter SliceMemory) : (step s).state.memory.code = s.memory.code := by
  let I : Interpreter SliceMemory → Prop := fun t => t.memory.code = s.memory.code
  have hload (w : ℕ) (address : U32) : Preserves I (Interpreter.load w address) := by
    intro t ht
    rw [load_state]
    exact ht
  have hstore (w : ℕ) (value : BitVec w) (address : U32) :
      Preserves I (Interpreter.store value address) := by
    intro t ht
    rw [Interpreter.store, onPart_apply, Result.state_mapState]
    exact (SliceMemory.store_code value address t.memory).trans ht
  have hstep : Preserves I (step : Exec SliceMemory State) := by
    apply Preserves.bind
    · exact fun t => hload 32 t.programCounter t
    · intro data t ht
      obtain ⟨inst, hinst⟩ := decodeInstruction_isSome data
      rw [decodeExecute_eq_sized hinst, decodeExecuteSized_eq_perform _ _ hinst]
      apply Preserves.bind (Effect.preserves hload hstore _ (fun _ _ _ h => h)
        (fun _ _ _ _ _ _ _ h => h) (fun _ _ h => h)) _ t ht
      intro result u hu
      cases (inst.action inst.size.toU32 t.registers t.programCounter).rd <;> exact hu
  exact hstep s rfl

end Code

theorem Size.bytes_le (size : Size) : size.bytes ≤ 4 := by
  cases size <;> decide

/-- The bytes of a converted instruction. -/
def RawInstruction.bytes (r : RawInstruction) : List U8 := (toLeBytes r.data).take r.size.bytes

theorem RawInstruction.bytes_length (r : RawInstruction) : r.bytes.length = r.size.bytes := by
  have h := Size.bytes_le r.size
  rw [bytes, List.length_take, length_toLeBytes]
  omega

section Bytes

/-- The code region of the guest: the transpiled bytes, padded when they need it. -/
def codeRegion (code : List U8) (needsPadding : Bool) : List U8 :=
  code ++ if needsPadding then [0, 0] else []

theorem codeRegion_length (code : List U8) (p : Bool) :
    (codeRegion code p).length = code.length + if p then 2 else 0 := by
  cases p <;> simp [codeRegion]

theorem mask_eq_of_toNat {size : Size} {x y : U32}
    (h : x.toNat % 256 ^ size.bytes = y.toNat % 256 ^ size.bytes) :
    x &&& size.mask = y &&& size.mask := by
  apply BitVec.eq_of_toNat_eq
  rw [BitVec.toNat_and, BitVec.toNat_and]
  cases size with
  | half =>
    have hlow (n : ℕ) : n &&& 65535 = n % 65536 := Nat.and_two_pow_sub_one_eq_mod n 16
    exact (hlow _).trans (h.trans (hlow _).symm)
  | word =>
    have hlow (n : ℕ) : n &&& 4294967295 = n % 4294967296 := Nat.and_two_pow_sub_one_eq_mod n 32
    exact (hlow _).trans (h.trans (hlow _).symm)

/-- Four bytes that begin with those of an instruction make a word that agrees with it. -/
theorem fromLeBytes_mask {r : RawInstruction} {bytes : List U8}
    (h : bytes.take r.size.bytes = r.bytes) :
    fromLeBytes 32 bytes &&& r.size.mask = r.data &&& r.size.mask := by
  have hsize : 256 ^ r.size.bytes ∣ 256 ^ 4 := Nat.pow_dvd_pow 256 (Size.bytes_le r.size)
  apply mask_eq_of_toNat
  calc (fromLeBytes 32 bytes).toNat % 256 ^ r.size.bytes
      = leNat bytes % 256 ^ r.size.bytes := by
        rw [fromLeBytes, BitVec.toNat_ofNat]
        exact Nat.mod_mod_of_dvd _ hsize
    _ = leNat (toLeBytes r.data) % 256 ^ r.size.bytes := leNat_mod_of_take h
    _ = r.data.toNat % 256 ^ r.size.bytes := by
        rw [leNat_toLeBytes]
        exact Nat.mod_mod_of_dvd _ hsize

theorem load_code [Target] {memory : SliceMemory} {address : U32} (hram : address < ramOffset)
    (hend : address.toNat + 4 ≤ memory.code.length) :
    MemoryType.load 32 address memory =
      .ok (fromLeBytes 32 ((memory.code.drop address.toNat).take 4)) memory := by
  have hnot : ¬ramOffset ≤ address := BitVec.not_le.mpr hram
  have hmapped : memory.Mapped address (32 / 8) := by
    rw [SliceMemory.Mapped, if_neg hnot]
    exact hend
  rw [load_of_mapped hmapped (by decide), SliceMemory.bytesAt, if_neg hnot]
  rfl

end Bytes

section Loop

variable [ElfCrate] {original code code' : List U8} {i : ℕ}

/-- What a round of the loop that ends without a failure does. -/
theorem transpileAt_ok {size : Size} (h : transpileAt i code = .ok size code') :
    ∃ r, convert (readRaw code i) = .ok r ∧ size = r.size ∧ i + r.bytes.length ≤ code.length ∧
      code' = Lib.splice code i r.bytes := by
  rw [transpileAt, bind_ok (get_apply code)] at h
  cases hr : convert (readRaw code i) with
  | error e =>
    rw [hr] at h
    cases h
  | ok r =>
    rw [hr] at h
    dsimp only at h
    split_ifs at h with hle
    · cases h
      exact ⟨r, rfl, rfl, r.bytes_length ▸ hle, rfl⟩
    · cases h

theorem transpileFrom_round {n : ℕ} (q : Bool) {size : Size} (hi : i + 2 ≤ n)
    (h : transpileAt i code = .ok size code') :
    transpileFrom n i q code =
      transpileFrom n (i + size.bytes) (q || n < i + 4) code' := by
  rw [transpileFrom, if_pos hi, bind_ok h]

theorem transpileFrom_done {n : ℕ} (q : Bool) (hi : ¬i + 2 ≤ n) :
    transpileFrom n i q code = .ok q code := by
  rw [transpileFrom, if_neg hi]
  rfl

/-- The loop keeps the length of the buffer, the bytes before its offset and the need
for padding. -/
theorem transpileFrom_ok {n : ℕ} {q p : Bool} (h : transpileFrom n i q code = .ok p code')
    (hn : n = code.length) :
    code'.length = n ∧ code'.take i = code.take i ∧ (q = true → p = true) := by
  induction i, q using transpileFrom.induct n generalizing code with
  | case1 i q hi ih =>
    rw [transpileFrom, if_pos hi] at h
    obtain ⟨size, middle, hround, hrest⟩ := bind_eq_ok h
    obtain ⟨r, -, rfl, hle, rfl⟩ := transpileAt_ok hround
    obtain ⟨hlength, htake, hpadding⟩ := ih r.size hrest ((Lib.splice_length hle).symm ▸ hn)
    refine ⟨hlength, ?_, fun hq => hpadding (by simp [hq])⟩
    have hfront : code'.take (i + r.bytes.length) = code.take i ++ r.bytes := by
      rw [r.bytes_length, htake, ← r.bytes_length, Lib.splice_take hle]
    have hi' := congrArg (List.take i) hfront
    rw [List.take_take, Nat.min_eq_left (by omega), List.take_left'] at hi'
    · exact hi'
    · rw [List.length_take]
      omega
  | case2 i q hi =>
    rw [transpileFrom_done q hi] at h
    cases h
    exact ⟨hn.symm, rfl, id⟩

/-- The loop over a buffer starts an instruction at an offset, with this content of the
buffer. -/
inductive Starts (original : List U8) : ℕ → List U8 → Prop
  | first (h : 2 ≤ original.length) : Starts original 0 original
  | next {i : ℕ} {code code' : List U8} {size : Size} (h : Starts original i code)
      (hround : transpileAt i code = .ok size code')
      (hmore : i + size.bytes + 2 ≤ original.length) :
      Starts original (i + size.bytes) code'

namespace Starts

/-- The bytes from the offset on are still the original ones. -/
theorem intact (h : Starts original i code) :
    code.length = original.length ∧ code.drop i = original.drop i ∧ i + 2 ≤ original.length := by
  induction h with
  | first h => exact ⟨rfl, rfl, by omega⟩
  | next h hround hmore ih =>
    obtain ⟨hlength, hdrop, -⟩ := ih
    obtain ⟨r, -, rfl, hle, rfl⟩ := transpileAt_ok hround
    refine ⟨(Lib.splice_length hle).trans hlength, ?_, hmore⟩
    rw [← r.bytes_length, Lib.splice_drop hle, ← List.drop_drop, hdrop, List.drop_drop]

/-- The loop goes on from every offset where it starts an instruction. -/
theorem resumes (h : Starts original i code) :
    ∃ q, transpileRaw original = transpileFrom original.length i q code := by
  induction h with
  | first h => exact ⟨false, rfl⟩
  | next h hround hmore ih =>
    obtain ⟨q, hq⟩ := ih
    exact ⟨_, hq.trans (transpileFrom_round q h.intact.2.2 hround)⟩

/-- The finished buffer holds the converted instruction at its offset, and is padded when
the instruction may be cut off by the end. -/
theorem finished {p : Bool} (h : Starts original i code)
    (hraw : transpileRaw original = .ok p code') :
    ∃ r, convert (readRaw original i) = .ok r ∧ (code'.drop i).take r.size.bytes = r.bytes ∧
      i + r.size.bytes ≤ original.length ∧ (original.length < i + 4 → p = true) := by
  obtain ⟨hlength, hdrop, hi⟩ := h.intact
  obtain ⟨q, hq⟩ := h.resumes
  rw [hq, transpileFrom, if_pos hi] at hraw
  obtain ⟨size, middle, hround, hrest⟩ := bind_eq_ok hraw
  obtain ⟨r, hconvert, rfl, hle, rfl⟩ := transpileAt_ok hround
  rw [readRaw_of_drop hlength hdrop] at hconvert
  obtain ⟨-, htake, hpadding⟩ := transpileFrom_ok hrest (by rw [Lib.splice_length hle, hlength])
  refine ⟨r, hconvert, ?_, by rw [← r.bytes_length, ← hlength]; exact hle, ?_⟩
  · rw [← r.bytes_length, Lib.splice_take hle, r.bytes_length] at htake
    rw [List.take_drop, htake]
    apply List.drop_left'
    rw [List.length_take]
    omega
  · intro hlt
    exact hpadding (by simp [hlt])

end Starts

section Fetch

variable [Target]

/-- A step at an offset where the loop started an instruction executes the word that was
converted there. -/
theorem step_starts {p : Bool} {s : Interpreter SliceMemory}
    (hraw : transpileRaw original = .ok p code')
    (hcode : s.memory.code = codeRegion code' p) (hram : s.programCounter < ramOffset)
    (hs : Starts original s.programCounter.toNat code) :
    ∃ r, convert (readRaw original s.programCounter.toNat) = .ok r ∧
      step s = decodeExecute r.data s := by
  have hlength : code'.length = original.length := (transpileFrom_ok hraw rfl).1
  have hi := hs.intact.2.2
  obtain ⟨r, hconvert, hbytes, hend, hpadding⟩ := hs.finished hraw
  refine ⟨r, hconvert, ?_⟩
  generalize hb : s.programCounter.toNat = b at *
  have hregion : b + 4 ≤ s.memory.code.length := by
    rw [hcode, codeRegion_length, hlength]
    by_cases hlt : original.length < b + 4
    · rw [hpadding hlt, if_pos rfl]
      omega
    · omega
  have htake : ((s.memory.code.drop b).take 4).take r.size.bytes = r.bytes := by
    rw [List.take_take, Nat.min_eq_left (Size.bytes_le r.size), hcode, codeRegion,
      List.drop_append_of_le_length (by omega), List.take_append_of_le_length, hbytes]
    rw [List.length_drop]
    omega
  obtain ⟨inst, rfl, -, hdec⟩ := convert_decodes hconvert
  have hmask := fromLeBytes_mask htake
  have hdec' : decodeInstruction (fromLeBytes 32 ((s.memory.code.drop b).take 4)) = some inst :=
    decodeInstruction_of_mask hdec hmask
  have hfetch : Interpreter.load 32 s.programCounter s =
      .ok (fromLeBytes 32 ((s.memory.code.drop b).take 4)) s := by
    rw [Interpreter.load, onPart_apply, load_code hram (by rw [hb]; exact hregion), hb]
    rfl
  have hstep : step s = decodeExecute (fromLeBytes 32 ((s.memory.code.drop b).take 4)) s :=
    bind_ok hfetch _
  rw [hstep, decodeExecute, decodeExecute, hdec, hdec']

end Fetch

section Runs

/-- A step that converts the original word at the program counter when it is reached. -/
def stepConverting {M : Type} [Memory M] (original : List U8) : Exec M State := do
  let pc ← getPc
  match convert (readRaw original pc.toNat) with
  | .ok r => decodeExecute r.data
  | .error _ => throw (.invalidInstruction pc)

theorem stepConverting_apply {M : Type} [Memory M] {r : RawInstruction} {s : Interpreter M}
    (h : convert (readRaw original s.programCounter.toNat) = .ok r) :
    stepConverting original s = decodeExecute r.data s := by
  rw [stepConverting, bind_ok (getPc_apply s), h]

/-- The loop started an instruction at this offset. -/
def StartsAt (original : List U8) (b : ℕ) : Prop := ∃ code, Starts original b code

variable [Target]

/-- Transpiling in place is converting on the fly: the buffer keeps its length, a step at
an offset where the loop started an instruction executes the word converted there, and a
run over such offsets is the run that converts each word when it is reached. -/
theorem transpileRaw_simulates {p : Bool} (hraw : transpileRaw original = .ok p code') :
    code'.length = original.length ∧
    (∀ b, StartsAt original b → b < ramOffset.toNat →
      ∃ r, convert (readRaw original b) = .ok r ∧
        ∀ s : Interpreter SliceMemory, s.programCounter = BitVec.ofNat 32 b →
          s.memory.code = codeRegion code' p → step s = decodeExecute r.data s) ∧
    ∀ (k : ℕ) (s : Interpreter SliceMemory), s.memory.code = codeRegion code' p →
      (∀ j < k, ∀ states t, Lib.times step j s = .ok states t →
        t.programCounter < ramOffset ∧ StartsAt original t.programCounter.toNat) →
      Lib.times step k s = Lib.times (stepConverting original) k s := by
  refine ⟨(transpileFrom_ok hraw rfl).1, ?_, ?_⟩
  · rintro b ⟨code, hb⟩ hram
    obtain ⟨r, hconvert, -⟩ := hb.finished hraw
    refine ⟨r, hconvert, ?_⟩
    intro s hpc hcode
    have hlt : b < 2 ^ 32 := hram.trans (by decide)
    have htoNat : s.programCounter.toNat = b := by
      rw [hpc, BitVec.toNat_ofNat, Nat.mod_eq_of_lt hlt]
    have hram' : s.programCounter < ramOffset := by
      rw [BitVec.lt_def, htoNat]
      exact hram
    obtain ⟨r', hconvert', hstep⟩ := step_starts hraw hcode hram' (htoNat ▸ hb)
    rw [htoNat, hconvert] at hconvert'
    cases hconvert'
    exact hstep
  · intro k s hcode hruns
    apply Lib.times_eq_of_agree (I := fun t => t.memory.code = codeRegion code' p)
    · intro t ht
      exact (step_code t).trans ht
    · exact hcode
    · intro j hj states t ht hcode
      obtain ⟨hram, code, hstarts⟩ := hruns j hj states t ht
      obtain ⟨r, hconvert, hstep⟩ := step_starts hraw hcode hram hstarts
      rw [hstep, stepConverting_apply hconvert]

end Runs

section Nops

/-- The RISC-V bytes of a number of `c.nop`. -/
def nops : ℕ → List U8
  | 0 => []
  | n + 1 => 0x01 :: 0x00 :: nops n

/-- What `c.nop` is converted to. -/
def nop : RawInstruction := embiveRaw (.cAddi ⟨0, 0⟩)

omit [ElfCrate] in
theorem length_nops (n : ℕ) : (nops n).length = 2 * n := by
  induction n with
  | zero => rfl
  | succ n ih =>
    rw [nops, List.length_cons, List.length_cons, ih]
    omega

omit [ElfCrate] in
theorem drop_nops (k n : ℕ) : (nops (k + n)).drop (2 * k) = nops n := by
  induction k with
  | zero => rw [Nat.zero_add, Nat.mul_zero, List.drop_zero]
  | succ k ih =>
    rw [show k + 1 + n = k + n + 1 by omega, show 2 * (k + 1) = 2 * k + 1 + 1 by omega, nops,
      List.drop_succ_cons, List.drop_succ_cons, ih]

theorem convert_readRaw_nops (k n : ℕ) :
    convert (readRaw (nops (k + (n + 1))) (2 * k)) = .ok nop := by
  rw [readRaw, Lib.slice, Lib.slice, drop_nops, length_nops]
  cases n with
  | zero =>
    rw [if_pos (by omega)]
    rfl
  | succ n =>
    have hbytes : (nops (n + 1 + 1)).take 4 = [0x01, 0x00, 0x01, 0x00] := by
      simp [nops]
    rw [if_neg (by omega), hbytes]
    rfl

theorem transpileAt_nops {k n : ℕ} (hlength : code.length = (nops (k + (n + 1))).length)
    (hdrop : code.drop (2 * k) = (nops (k + (n + 1))).drop (2 * k)) :
    transpileAt (2 * k) code = .ok .half (Lib.splice code (2 * k) nop.bytes) := by
  have hend : 2 * k + nop.size.bytes ≤ code.length := by
    rw [hlength, length_nops]
    have hsize : nop.size.bytes = 2 := rfl
    omega
  rw [transpileAt, bind_ok (get_apply code), readRaw_of_drop hlength hdrop,
    convert_readRaw_nops]
  dsimp only
  rw [if_pos hend]
  rfl

theorem startsAt_nops (k n : ℕ) : StartsAt (nops (k + (n + 1))) (2 * k) := by
  induction k generalizing n with
  | zero =>
    refine ⟨_, .first ?_⟩
    rw [length_nops]
    omega
  | succ k ih =>
    obtain ⟨code, hcode⟩ := ih (n + 1)
    rw [show k + (n + 1 + 1) = k + 1 + (n + 1) by omega] at hcode
    obtain ⟨hlength, hdrop, -⟩ := hcode.intact
    rw [show k + 1 + (n + 1) = k + (n + 1 + 1) by omega] at hlength hdrop
    refine ⟨_, .next hcode (transpileAt_nops hlength hdrop) ?_⟩
    rw [length_nops]
    simp only [Size.bytes]
    omega

theorem transpileRaw_nops (n : ℕ) :
    ∃ p code', transpileRaw (nops (n + 1)) = .ok p code' := by
  obtain ⟨code, hcode⟩ := startsAt_nops n 0
  obtain ⟨hlength, hdrop, hmore⟩ := hcode.intact
  obtain ⟨q, hq⟩ := hcode.resumes
  have hlast := transpileFrom_round q hmore (transpileAt_nops hlength hdrop)
  have hdone : ¬2 * n + Size.half.bytes + 2 ≤ (nops (n + (0 + 1))).length := by
    rw [length_nops]
    simp only [Size.bytes]
    omega
  rw [transpileFrom_done _ hdone] at hlast
  exact ⟨_, _, hq.trans hlast⟩

end Nops

end Loop

/-- Past `ramOffset` the interpreter reads RAM: the last of so many `c.nop` that it lies
there is converted but not executed. -/
theorem transpileRaw_not_fetched :
    letI := Target.release64
    letI := ElfCrate.parsesNothing
    ∃ (original code' : List U8) (p : Bool) (b : ℕ) (r : RawInstruction)
      (s : Interpreter SliceMemory),
      transpileRaw original = .ok p code' ∧ StartsAt original b ∧
      convert (readRaw original b) = .ok r ∧ s.programCounter = BitVec.ofNat 32 b ∧
      s.memory.code = codeRegion code' p ∧ step s ≠ decodeExecute r.data s := by
  let _ := Target.release64
  let _ := ElfCrate.parsesNothing
  obtain ⟨p, code', hraw⟩ := transpileRaw_nops (2 ^ 30)
  obtain ⟨s, hpc, hmemory⟩ : ∃ s : Interpreter SliceMemory,
      s.programCounter = ramOffset ∧ s.memory = ⟨codeRegion code' p, []⟩ :=
    ⟨{ new ⟨codeRegion code' p, []⟩ 0 with programCounter := ramOffset }, rfl, rfl⟩
  refine ⟨nops (2 ^ 30 + (0 + 1)), code', p, 2 * 2 ^ 30, nop, s, hraw, startsAt_nops _ _,
    convert_readRaw_nops _ _, hpc, congrArg SliceMemory.code hmemory, ?_⟩
  have hbytes : SliceMemory.loadBytes ⟨codeRegion code' p, []⟩ ramOffset (32 / 8) =
      .error (.invalidMemoryAddress 4) := rfl
  have hfetch : Interpreter.load 32 s.programCounter s = .error (.invalidMemoryAddress 4) s := by
    rw [hpc]
    simp only [Interpreter.load, onPart_apply, MemoryType.load, bind_apply, Memory.loadBytes,
      reads_apply, hmemory, hbytes, Result.mapState_error]
    rw [← hmemory]
  have hstep : step s = .error (.invalidMemoryAddress 4) s := bind_error hfetch _
  intro h
  rw [hstep] at h
  cases h

/-- `addi a0, x0, 5`, `c.nop`, `addi a0, a0, 1` and `c.nop`, which needs padding. -/
def mixed : List U8 := [0x13, 0x05, 0x50, 0x00, 0x01, 0x00, 0x13, 0x05, 0x15, 0x00, 0x01, 0x00]

/-- The Embive words of the same instructions. -/
def mixedCode : List U8 := [29, 40, 80, 0, 3, 0, 29, 40, 21, 0, 3, 0]

/-- An interpreter over the transpiled code. -/
def mixedStart : Interpreter SliceMemory := new ⟨codeRegion mixedCode true, []⟩ 0

theorem transpileRaw_mixed : letI := ElfCrate.parsesNothing
    transpileRaw mixed = .ok true mixedCode := by
  with_unfolding_all rfl

theorem startsAt_mixed : letI := ElfCrate.parsesNothing
    ∀ b ∈ [0, 4, 6, 10], StartsAt mixed b := by
  let _ := ElfCrate.parsesNothing
  have hfirst : Starts mixed 0 mixed := .first (by decide)
  have hnop : Starts mixed 4 [29, 40, 80, 0, 1, 0, 0x13, 0x05, 0x15, 0x00, 1, 0] :=
    hfirst.next (by with_unfolding_all rfl : transpileAt 0 _ = .ok .word _) (by decide)
  have hadd : Starts mixed 6 [29, 40, 80, 0, 3, 0, 0x13, 0x05, 0x15, 0x00, 1, 0] :=
    hnop.next (by with_unfolding_all rfl : transpileAt 4 _ = .ok .half _) (by decide)
  have hlast : Starts mixed 10 [29, 40, 80, 0, 3, 0, 29, 40, 21, 0, 1, 0] :=
    hadd.next (by with_unfolding_all rfl : transpileAt 6 _ = .ok .word _) (by decide)
  intro b hb
  simp only [List.mem_cons, List.not_mem_nil, or_false] at hb
  rcases hb with rfl | rfl | rfl | rfl
  · exact ⟨_, hfirst⟩
  · exact ⟨_, hnop⟩
  · exact ⟨_, hadd⟩
  · exact ⟨_, hlast⟩

theorem transpileRaw_simulates_mixed :
    letI := Target.release64
    letI := ElfCrate.parsesNothing
    ∃ states t, Lib.times (stepConverting mixed) 4 mixedStart = .ok states t ∧
      t.programCounter = 12 ∧ t.registers.cpu.inner[10] = 6 := by
  let _ := Target.release64
  let _ := ElfCrate.parsesNothing
  have hruns : ∀ j < 4, ∃ states t, Lib.times step j mixedStart = .ok states t ∧
      t.programCounter < ramOffset ∧ t.programCounter.toNat ∈ [0, 4, 6, 10] := by
    intro j hj
    interval_cases j
    · with_unfolding_all exact ⟨_, _, rfl, by decide, by decide⟩
    · with_unfolding_all exact ⟨_, _, rfl, by decide, by decide⟩
    · with_unfolding_all exact ⟨_, _, rfl, by decide, by decide⟩
    · with_unfolding_all exact ⟨_, _, rfl, by decide, by decide⟩
  have hend : ∃ states t, Lib.times step 4 mixedStart = .ok states t ∧
      t.programCounter = 12 ∧ t.registers.cpu.inner[10] = 6 := by
    with_unfolding_all exact ⟨_, _, rfl, rfl, rfl⟩
  obtain ⟨-, -, hsimulates⟩ := transpileRaw_simulates transpileRaw_mixed
  rw [← hsimulates 4 _ rfl]
  · exact hend
  · intro j hj states t ht
    obtain ⟨states', t', ht', hram, hmem⟩ := hruns j hj
    cases ht.symm.trans ht'
    exact ⟨hram, startsAt_mixed _ hmem⟩

end Embive.Transpiler
