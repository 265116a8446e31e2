import Mathlib.Tactic

/-!
# LibAdb.Lib.LeBytes — numbers as little-endian bytes

`value` is the number a list of bytes stands for, least significant byte first, and `ofNat` its inverse at a given
length.  A byte-wise operation on such lists is described by what it does to the value; `value_lt` is what then says
that no carry is lost.
-/

namespace LeBytes

def value : List UInt8 → ℕ
  | [] => 0
  | b :: bs => b.toNat + 256 * value bs

/-- The lowest `len` bytes. -/
def ofNat : ℕ → ℕ → List UInt8
  | 0, _ => []
  | len + 1, n => UInt8.ofNat n :: ofNat len (n / 256)

@[simp] theorem length_ofNat (len n : ℕ) : (ofNat len n).length = len := by
  induction len generalizing n with
  | zero => rfl
  | succ len ih => simp [ofNat, ih]

theorem value_lt (bs : List UInt8) : value bs < 256 ^ bs.length := by
  induction bs with
  | nil => exact Nat.one_pos
  | cons b bs ih =>
    have hb := b.toNat_lt
    rw [value, List.length_cons, pow_succ]
    omega

/-- The lowest byte, and the others. -/
theorem mod_pow_succ (n len : ℕ) : n % 256 ^ (len + 1) = n % 256 + 256 * (n / 256 % 256 ^ len) := by
  rw [pow_succ', Nat.mod_mul]

theorem value_ofNat (len n : ℕ) : value (ofNat len n) = n % 256 ^ len := by
  induction len generalizing n with
  | zero => simp [ofNat, value, Nat.mod_one]
  | succ len ih => rw [ofNat, value, ih, UInt8.toNat_ofNat', mod_pow_succ]

theorem value_ofNat_of_lt {len n : ℕ} (h : n < 256 ^ len) : value (ofNat len n) = n := by
  rw [value_ofNat, Nat.mod_eq_of_lt h]

/-- The value and the length determine the bytes. -/
theorem ofNat_value (bs : List UInt8) : ofNat bs.length (value bs) = bs := by
  induction bs with
  | nil => rfl
  | cons b bs ih =>
    have hb := b.toNat_lt
    have hhead : UInt8.ofNat (b.toNat + 256 * value bs) = b := by
      apply UInt8.toNat.inj
      rw [UInt8.toNat_ofNat']
      omega
    have htail : (b.toNat + 256 * value bs) / 256 = value bs := by omega
    rw [List.length_cons, value, ofNat, hhead, htail, ih]

/-- Bytes behind the number are zero. -/
theorem ofNat_add {len n : ℕ} (more : ℕ) (h : n < 256 ^ len) :
    ofNat (len + more) n = ofNat len n ++ List.replicate more 0 := by
  induction len generalizing n with
  | zero =>
    obtain rfl : n = 0 := by simpa using h
    induction more with
    | zero => rfl
    | succ more ih =>
      rw [Nat.zero_add] at ih ⊢
      exact congrArg (0 :: ·) ih
  | succ len ih =>
    have hdiv : n / 256 < 256 ^ len := by
      rw [pow_succ'] at h
      exact Nat.div_lt_of_lt_mul h
    rw [Nat.add_right_comm, ofNat, ih hdiv]
    rfl

end LeBytes
