import Embive.Transpiler.InPlace

/-! # When transpiling raw code panics

The loop reads two bytes where only two or three are left, but the converter decides
from the opcode how many are written back. The call panics exactly when the first half
of a full-size instruction is left over that is accepted with zeros as its second half.
-/

namespace Embive.Transpiler

open EStateM Riscv

variable [ElfCrate]

section Refusal

variable {w : U32}

/-- A conversion only fails with an unknown instruction. -/
def Refuses (x : Except Error RawInstruction) : Prop :=
  ∀ e, x = .error e → ∃ data, e = .invalidInstruction data

theorem Refuses.ok (r : RawInstruction) : Refuses (.ok r) := by
  intro e h
  cases h

theorem Refuses.error (data : U32) : Refuses (.error (.invalidInstruction data)) := by
  intro e h
  cases h
  exact ⟨data, rfl⟩

theorem Refuses.ite {c : Prop} [Decidable c] {x y : Except Error RawInstruction}
    (hx : Refuses x) (hy : Refuses y) : Refuses (if c then x else y) := by
  by_cases hc : c
  · rw [if_pos hc]
    exact hx
  · rw [if_neg hc]
    exact hy

theorem C0.refuses : Refuses (C0.convert w) := by
  unfold C0.convert
  repeat' apply iteInduction <;> intro _
  all_goals first | exact .ok _ | exact .error _

theorem C1.refuses : Refuses (C1.convert w) := by
  simp only [C1.convert]
  repeat' apply iteInduction <;> intro _
  all_goals first | exact .ok _ | exact .error _

theorem C2.refuses : Refuses (C2.convert w) := by
  simp only [C2.convert]
  repeat' apply iteInduction <;> intro _
  all_goals first | exact .ok _ | exact .error _

theorem Load.refuses : Refuses (Load.convert w) := by
  simp only [Load.convert]
  split
  · exact .ok _
  · exact .error _

theorem Store.refuses : Refuses (Store.convert w) := by
  simp only [Store.convert]
  split
  · exact .ok _
  · exact .error _

theorem OpImm.refuses : Refuses (Riscv.OpImm.convert w) := by
  simp only [Riscv.OpImm.convert]
  split
  · exact .ok _
  · exact .error _

theorem Branch.refuses : Refuses (Riscv.Branch.convert w) := by
  simp only [Riscv.Branch.convert]
  split
  · exact .ok _
  · exact .error _

theorem Op.refuses : Refuses (Op.convert w) := by
  simp only [Op.convert]
  split
  · exact .ok _
  · exact .error _

theorem Amo.refuses : Refuses (Amo.convert w) := by
  simp only [Amo.convert]
  apply iteInduction <;> intro _
  · exact .error _
  · split
    · exact .ok _
    · exact .error _

theorem System.refuses : Refuses (System.convert w) := by
  simp only [System.convert]
  apply iteInduction <;> intro _
  · exact .ok _
  · split
    · exact .ok _
    · exact .error _

theorem convert_refuses : Refuses (convert w) := by
  unfold convert
  refine .ite C0.refuses ?_
  refine .ite C1.refuses ?_
  refine .ite C2.refuses ?_
  refine .ite Load.refuses ?_
  refine .ite (.ok _) ?_
  refine .ite OpImm.refuses ?_
  refine .ite (.ok _) ?_
  refine .ite Store.refuses ?_
  refine .ite Amo.refuses ?_
  refine .ite Op.refuses ?_
  refine .ite (.ok _) ?_
  refine .ite Branch.refuses ?_
  refine .ite (.ok _) ?_
  refine .ite (.ok _) ?_
  exact .ite System.refuses (.error _)

end Refusal

/-- The offsets at which the words of the code begin, each word as long as what it is
converted to. -/
inductive Boundary (original : List U8) : ℕ → Prop
  | start : Boundary original 0
  | next {i : ℕ} {r : RawInstruction} (h : Boundary original i)
      (hmore : i + 2 ≤ original.length) (hconvert : convert (readRaw original i) = .ok r) :
      Boundary original (i + r.size.bytes)

/-- The code ends in the first half of a full-size instruction that is accepted with
zeros as its second half. -/
def CutOff (original : List U8) : Prop :=
  ∃ i r, Boundary original i ∧ i + 2 ≤ original.length ∧ original.length < i + 4 ∧
    convert (readRaw original i) = .ok r ∧ r.size = .word

variable {original code : List U8} {i : ℕ}

theorem transpileAt_error {e : Error} (h : convert (readRaw code i) = .error e) :
    transpileAt i code = .error (.error e) code := by
  rw [transpileAt, bind_ok (get_apply code), h]
  rfl

theorem transpileAt_convert {r : RawInstruction} (h : convert (readRaw code i) = .ok r)
    (hend : i + r.size.bytes ≤ code.length) :
    transpileAt i code = .ok r.size (Lib.splice code i r.bytes) := by
  rw [transpileAt, bind_ok (get_apply code), h]
  dsimp only
  rw [if_pos hend]
  rfl

theorem transpileAt_panic {r : RawInstruction} (h : convert (readRaw code i) = .ok r)
    (hend : code.length < i + r.size.bytes) : transpileAt i code = .error .panic code := by
  rw [transpileAt, bind_ok (get_apply code), h]
  dsimp only
  rw [if_neg (by omega)]
  rfl

omit [ElfCrate] in
/-- A word that does not fit is the first half of a full-size instruction. -/
theorem size_eq_word {r : RawInstruction} {n : ℕ} (hmore : i + 2 ≤ n)
    (hend : n < i + r.size.bytes) : r.size = .word ∧ n < i + 4 := by
  cases hsize : r.size with
  | half =>
    rw [hsize, Size.bytes] at hend
    omega
  | word =>
    rw [hsize, Size.bytes] at hend
    exact ⟨rfl, hend⟩

/-- What the call returns: nothing but success and unknown instructions. -/
def Returns (x : Result Fault (List U8) Bool) : Prop :=
  (∃ p code', x = .ok p code') ∨ ∃ data code', x = .error (.error (.invalidInstruction data)) code'

theorem transpileFrom_returns (hcut : ¬CutOff original) (hb : Boundary original i)
    (hlength : code.length = original.length) (hdrop : code.drop i = original.drop i) (q : Bool) :
    Returns (transpileFrom original.length i q code) := by
  induction i, q using transpileFrom.induct original.length generalizing code with
  | case1 i q hi ih =>
    have hread := readRaw_of_drop hlength hdrop
    cases hr : convert (readRaw original i) with
    | error e =>
      obtain ⟨data, rfl⟩ := convert_refuses e hr
      rw [transpileFrom, if_pos hi, bind_error (transpileAt_error (hread ▸ hr))]
      exact .inr ⟨data, code, rfl⟩
    | ok r =>
      by_cases hend : i + r.size.bytes ≤ original.length
      · have hend' : i + r.bytes.length ≤ code.length := by
          rw [r.bytes_length, hlength]
          exact hend
        rw [transpileFrom_round q hi (transpileAt_convert (hread ▸ hr) (hlength ▸ hend))]
        apply ih
        · exact hb.next hi hr
        · rw [Lib.splice_length hend', hlength]
        · rw [← r.bytes_length, Lib.splice_drop hend', ← List.drop_drop, hdrop, List.drop_drop]
      · obtain ⟨hsize, hlt⟩ := size_eq_word hi (not_le.mp hend)
        exact absurd ⟨i, r, hb, hi, hlt, hr, hsize⟩ hcut
  | case2 i q hi =>
    rw [transpileFrom_done q hi]
    exact .inl ⟨q, code, rfl⟩

/-- The loop reaches every boundary with an instruction after it. -/
theorem Boundary.startsAt (h : Boundary original i) (hmore : i + 2 ≤ original.length) :
    StartsAt original i := by
  induction h with
  | start => exact ⟨original, .first (by omega)⟩
  | @next i r h hmore' hconvert ih =>
    obtain ⟨code, hcode⟩ := ih hmore'
    obtain ⟨hlength, hdrop, -⟩ := hcode.intact
    have hread := readRaw_of_drop hlength hdrop
    have hend : i + r.size.bytes ≤ code.length := by omega
    exact ⟨_, hcode.next (transpileAt_convert (hread ▸ hconvert) hend) hmore⟩

theorem transpileRaw_panics (h : CutOff original) :
    ∃ code', transpileRaw original = .error .panic code' := by
  obtain ⟨i, r, hb, hmore, hlt, hconvert, hsize⟩ := h
  obtain ⟨code, hcode⟩ := hb.startsAt hmore
  obtain ⟨hlength, hdrop, -⟩ := hcode.intact
  obtain ⟨q, hq⟩ := hcode.resumes
  have hread := readRaw_of_drop hlength hdrop
  have hend : code.length < i + r.size.bytes := by
    rw [hsize, hlength]
    exact hlt
  rw [hq, transpileFrom, if_pos hmore, bind_error (transpileAt_panic (hread ▸ hconvert) hend)]
  exact ⟨code, rfl⟩

/-- The call succeeds or reports an unknown instruction exactly when the code is not cut
off inside an instruction that is accepted. -/
theorem transpileRaw_returns_iff (original : List U8) :
    Returns (transpileRaw original) ↔ ¬CutOff original := by
  constructor
  · intro h hcut
    obtain ⟨code', hpanic⟩ := transpileRaw_panics hcut
    rw [hpanic] at h
    rcases h with ⟨p, code, h⟩ | ⟨data, code, h⟩ <;> cases h
  · intro hcut
    exact transpileFrom_returns hcut .start rfl rfl false

omit [ElfCrate] in
/-- The first half of `addi x0, x0, 0` is taken for the whole instruction. -/
theorem transpileRaw_panics_addi :
    letI := ElfCrate.parsesNothing
    ¬Returns (transpileRaw [0x13, 0x00]) := by
  let _ := ElfCrate.parsesNothing
  obtain ⟨r, hr, hsize⟩ : ∃ r, convert (readRaw [0x13, 0x00] 0) = .ok r ∧ r.size = .word :=
    ⟨_, rfl, rfl⟩
  obtain ⟨code', hpanic⟩ := transpileRaw_panics
    ⟨0, r, .start, (by decide), (by decide), hr, hsize⟩
  rw [hpanic]
  rintro (⟨p, code, h⟩ | ⟨data, code, h⟩) <;> cases h

end Embive.Transpiler
