import Embive.Memory

/-! # Numbers and their little-endian bytes -/

namespace Embive

theorem length_leBytes (n v : ℕ) : (leBytes n v).length = n := by
  induction n generalizing v with
  | zero => rfl
  | succ n ih => rw [leBytes, List.length_cons, ih]

theorem leNat_leBytes (n v : ℕ) : leNat (leBytes n v) = v % 256 ^ n := by
  induction n generalizing v with
  | zero => simp [leBytes, leNat, Nat.mod_one]
  | succ n ih =>
    have hlow : (BitVec.ofNat 8 v).toNat = v % 256 := BitVec.toNat_ofNat v 8
    rw [leBytes, leNat, ih, hlow, pow_succ', Nat.mod_mul]

/-- The first bytes determine the low digits. -/
theorem leNat_take (n : ℕ) (bytes : List U8) :
    leNat (bytes.take n) % 256 ^ n = leNat bytes % 256 ^ n := by
  induction n generalizing bytes with
  | zero => simp [Nat.mod_one]
  | succ n ih =>
    cases bytes with
    | nil => rfl
    | cons b bs =>
      have hb : b.toNat < 256 := b.isLt
      have hdigits (v : ℕ) :
          (b.toNat + 256 * v) % 256 ^ (n + 1) = b.toNat + 256 * (v % 256 ^ n) := by
        rw [pow_succ', Nat.mod_mul, Nat.add_mul_mod_self_left, Nat.mod_eq_of_lt hb,
          Nat.add_mul_div_left _ _ (by decide), Nat.div_eq_of_lt hb, Nat.zero_add]
      rw [List.take_succ_cons, leNat, leNat, hdigits, hdigits, ih]

theorem leNat_mod_of_take {n : ℕ} {xs ys : List U8} (h : xs.take n = ys.take n) :
    leNat xs % 256 ^ n = leNat ys % 256 ^ n := by
  rw [← leNat_take n xs, h, leNat_take]

theorem leNat_lt (bytes : List U8) : leNat bytes < 256 ^ bytes.length := by
  induction bytes with
  | nil => exact Nat.one_pos
  | cons b bytes ih =>
    have hb : b.toNat < 256 := b.isLt
    rw [leNat, List.length_cons, pow_succ']
    omega

/-- Zeros at the end do not count. -/
theorem leNat_append_zeros (bytes : List U8) (n : ℕ) :
    leNat (bytes ++ List.replicate n 0) = leNat bytes := by
  have hzeros : leNat (List.replicate n 0) = 0 := by
    induction n with
    | zero => rfl
    | succ n ih =>
      rw [List.replicate_succ, leNat, ih]
      rfl
  induction bytes with
  | nil => exact hzeros
  | cons b bytes ih => rw [List.cons_append, leNat, leNat, ih]

/-- The low bytes are those of the low digits. -/
theorem leBytes_mod (n v : ℕ) : leBytes n (v % 256 ^ n) = leBytes n v := by
  induction n generalizing v with
  | zero => rfl
  | succ n ih =>
    have hlow : BitVec.ofNat 8 (v % 256 ^ (n + 1)) = BitVec.ofNat 8 v := by
      apply BitVec.eq_of_toNat_eq
      rw [BitVec.toNat_ofNat, BitVec.toNat_ofNat, pow_succ']
      exact Nat.mod_mul_right_mod v 256 (256 ^ n)
    have hhigh : v % 256 ^ (n + 1) / 256 = v / 256 % 256 ^ n := by
      rw [pow_succ']
      exact Nat.mod_mul_right_div_self v 256 (256 ^ n)
    rw [leBytes, leBytes, hlow, hhigh, ih]

theorem toLeBytes_setWidth {w : ℕ} (n : ℕ) (x : BitVec w) :
    toLeBytes (x.setWidth (8 * n)) = leBytes n x.toNat := by
  have hbase : 2 ^ (8 * n) = 256 ^ n := pow_mul 2 8 n
  rw [toLeBytes, BitVec.toNat_setWidth, hbase, Nat.mul_div_cancel_left n (by decide), leBytes_mod]

theorem leNat_toLeBytes {w : ℕ} (x : BitVec w) : leNat (toLeBytes x) = x.toNat % 256 ^ (w / 8) :=
  leNat_leBytes _ _

theorem length_toLeBytes {w : ℕ} (x : BitVec w) : (toLeBytes x).length = w / 8 :=
  length_leBytes _ _

end Embive
