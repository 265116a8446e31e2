import Mathlib.Data.Nat.Bitwise
import Mathlib.Logic.Function.Iterate
import Mathlib.Tactic

/-!
# LibAdb.Lib.Crc — cyclic redundancy checks with a 32-bit remainder, lowest bit first

`shift` moves the remainder down by one bit and takes the polynomial off when a one falls out; a byte is mixed in and
shifted through.  A shift is linear in exclusive or (`shift_xor`), and it is injective as soon as the polynomial has its
top bit (`shift_injective`), so two messages that agree outside of four bytes and end with one remainder are one message
(`run_burst`).
-/

namespace Crc

variable (poly : UInt32)

/-- One bit of the remainder. -/
def shift (crc : UInt32) : UInt32 := (crc >>> 1) ^^^ (poly &&& (0 - (crc &&& 1)))

/-- One byte of the message. -/
def byte (crc : UInt32) (b : UInt8) : UInt32 := (shift poly)^[8] (crc ^^^ b.toUInt32)

/-- The remainder after a message. -/
def run (crc : UInt32) (bytes : List UInt8) : UInt32 := bytes.foldl (byte poly) crc

theorem run_append (crc : UInt32) (front back : List UInt8) :
    run poly crc (front ++ back) = run poly (run poly crc front) back := List.foldl_append

/-! ## A shift -/

/-- The mask `-(crc & 1)` is a choice. -/
theorem shift_eq (crc : UInt32) :
    shift poly crc = if crc.toNat % 2 = 1 then (crc >>> 1) ^^^ poly else crc >>> 1 := by
  have hlow : (crc &&& 1).toNat = crc.toNat % 2 := by
    rw [UInt32.toNat_and]
    exact Nat.and_one_is_mod _
  unfold shift
  split_ifs with hodd
  · have hone : crc &&& 1 = 1 := UInt32.toNat.inj (hlow.trans hodd)
    have hmask : (0 : UInt32) - 1 = -1 := rfl
    rw [hone, hmask, UInt32.and_neg_one]
  · have hzero : crc &&& 1 = 0 := UInt32.toNat.inj (hlow.trans (by show _ = 0; omega))
    rw [hzero, UInt32.sub_zero, UInt32.and_zero, UInt32.xor_zero]

/-- **A shift is linear.** -/
theorem shift_xor (a b : UInt32) : shift poly (a ^^^ b) = shift poly a ^^^ shift poly b := by
  have hparity : (a ^^^ b).toNat % 2 = (a.toNat + b.toNat) % 2 := by
    rw [UInt32.toNat_xor, Nat.xor_mod_two_eq]
  have hcancel : ∀ x y : UInt32, x ^^^ poly ^^^ (y ^^^ poly) = x ^^^ y := by
    intro x y
    rw [UInt32.xor_comm y, UInt32.xor_assoc, ← UInt32.xor_assoc poly, UInt32.xor_self, UInt32.zero_xor]
  rw [shift_eq, shift_eq, shift_eq, UInt32.shiftRight_xor, hparity]
  by_cases ha : a.toNat % 2 = 1 <;> by_cases hb : b.toNat % 2 = 1
  · rw [if_neg (by omega), if_pos ha, if_pos hb, hcancel]
  · rw [if_pos (by omega), if_pos ha, if_neg hb, UInt32.xor_assoc, UInt32.xor_assoc, UInt32.xor_comm poly]
  · rw [if_pos (by omega), if_neg ha, if_pos hb, UInt32.xor_assoc]
  · rw [if_neg (by omega), if_neg ha, if_neg hb]

theorem iterate_shift_xor (n : ℕ) (a b : UInt32) :
    (shift poly)^[n] (a ^^^ b) = (shift poly)^[n] a ^^^ (shift poly)^[n] b := by
  induction n generalizing a b with
  | zero => rfl
  | succ n ih => rw [Function.iterate_succ_apply, shift_xor, ih]; rfl

/-- Bits that are clear fall out one by one. -/
theorem toNat_iterate_shift (n : ℕ) (crc : UInt32) (h : 2 ^ n ∣ crc.toNat) :
    ((shift poly)^[n] crc).toNat = crc.toNat / 2 ^ n := by
  induction n generalizing crc with
  | zero => simp
  | succ n ih =>
    obtain ⟨k, hk⟩ := h
    rw [pow_succ', mul_assoc] at hk
    have heven : ¬ crc.toNat % 2 = 1 := by omega
    have hhalf : (shift poly crc).toNat = 2 ^ n * k := by
      rw [shift_eq, if_neg heven, UInt32.toNat_shiftRight, Nat.shiftRight_eq_div_pow]
      show crc.toNat / 2 = _
      omega
    rw [Function.iterate_succ_apply, ih _ ⟨k, hhalf⟩, hhalf, hk, pow_succ', ← Nat.div_div_eq_div_mul,
      Nat.mul_div_cancel_left (2 ^ n * k) (by decide)]

variable {poly}

/-- What is shifted to nothing is nothing: the top bit of the polynomial shows that a one fell out. -/
theorem eq_zero_of_shift (hpoly : 2 ^ 31 ≤ poly.toNat) {crc : UInt32} (h : shift poly crc = 0) : crc = 0 := by
  have hlt := crc.toNat_lt
  have hhalf : (crc >>> 1).toNat = crc.toNat / 2 := by
    rw [UInt32.toNat_shiftRight, Nat.shiftRight_eq_div_pow]
    rfl
  rw [shift_eq] at h
  split_ifs at h with hodd
  · rw [UInt32.xor_eq_zero_iff] at h
    rw [h] at hhalf
    omega
  · rw [h] at hhalf
    have hzero : crc.toNat / 2 = 0 := hhalf.symm
    exact UInt32.toNat.inj (by show crc.toNat = 0; omega)

theorem shift_injective (hpoly : 2 ^ 31 ≤ poly.toNat) : Function.Injective (shift poly) := by
  intro a b hab
  rw [← UInt32.xor_eq_zero_iff] at hab ⊢
  exact eq_zero_of_shift hpoly (by rw [shift_xor, hab])

/-! ## Messages -/

theorem run_injective (hpoly : 2 ^ 31 ≤ poly.toNat) (bytes : List UInt8) :
    Function.Injective fun crc => run poly crc bytes := by
  induction bytes with
  | nil => exact Function.injective_id
  | cons b bytes ih =>
    intro c d hcd
    have hbyte : byte poly c b = byte poly d b := ih hcd
    have hmixed : c ^^^ b.toUInt32 = d ^^^ b.toUInt32 := (shift_injective hpoly).iterate 8 hbyte
    rw [← UInt32.xor_eq_zero_iff] at hmixed ⊢
    rwa [UInt32.xor_comm d, UInt32.xor_assoc, ← UInt32.xor_assoc b.toUInt32, UInt32.xor_self, UInt32.zero_xor] at hmixed

/-- The remainder before a byte is known from the one behind it, when that one is small. -/
theorem toNat_of_iterate_shift (hpoly : 2 ^ 31 ≤ poly.toNat) {x : UInt32}
    (h : ((shift poly)^[8] x).toNat < 2 ^ 24) : x.toNat = 2 ^ 8 * ((shift poly)^[8] x).toNat := by
  set y := (shift poly)^[8] x with hy
  have hval : (UInt32.ofNat (2 ^ 8 * y.toNat)).toNat = 2 ^ 8 * y.toNat := by
    rw [UInt32.toNat_ofNat']
    omega
  have hback : (shift poly)^[8] (UInt32.ofNat (2 ^ 8 * y.toNat)) = y := by
    apply UInt32.toNat.inj
    rw [toNat_iterate_shift poly 8 _ ⟨y.toNat, hval⟩, hval, Nat.mul_div_cancel_left _ (by decide)]
  rw [← (shift_injective hpoly).iterate 8 (hback.trans hy), hval]

/-- What two bytes mixed in make of two remainders. -/
theorem byte_xor_byte (c d : UInt32) (a b : UInt8) :
    byte poly c a ^^^ byte poly d b = (shift poly)^[8] (c ^^^ d ^^^ (a.toUInt32 ^^^ b.toUInt32)) := by
  rw [byte, byte, ← iterate_shift_xor]
  congr 1
  rw [UInt32.xor_assoc, UInt32.xor_assoc, ← UInt32.xor_assoc a.toUInt32, UInt32.xor_comm a.toUInt32 d,
    UInt32.xor_assoc d]

theorem toNat_byte_xor_lt (a b : UInt8) : (a.toUInt32 ^^^ b.toUInt32).toNat < 2 ^ 8 := by
  rw [UInt32.toNat_xor, UInt8.toNat_toUInt32, UInt8.toNat_toUInt32]
  exact Nat.xor_lt_two_pow a.toNat_lt b.toNat_lt

/-- Remainders that `k` bytes bring together differ in their lowest `k` bytes only. -/
theorem xor_lt_of_run_eq (hpoly : 2 ^ 31 ≤ poly.toNat) {x y : List UInt8} (hlen : x.length = y.length)
    (h4 : x.length ≤ 4) {c d : UInt32} (h : run poly c x = run poly d y) : (c ^^^ d).toNat < 2 ^ (8 * x.length) := by
  induction x generalizing y c d with
  | nil =>
    obtain rfl := List.length_eq_zero_iff.mp hlen.symm
    obtain rfl : c = d := h
    rw [UInt32.xor_self]
    exact Nat.one_pos
  | cons a x ih =>
    cases y with
    | nil => cases hlen
    | cons b y =>
      rw [List.length_cons] at h4
      have hnext := ih (Nat.succ.inj hlen) (by omega) h
      rw [byte_xor_byte] at hnext
      -- the difference before the byte is the one behind it, eight bits up
      have hsmall : 2 ^ (8 * x.length) ≤ 2 ^ 24 := Nat.pow_le_pow_right (by decide) (by omega)
      have hmixed := toNat_of_iterate_shift hpoly (hnext.trans_le hsmall)
      have hpow : 2 ^ (8 * (a :: x).length) = 2 ^ 8 * 2 ^ (8 * x.length) := by
        rw [List.length_cons, mul_add, mul_one, pow_add, mul_comm]
      have hlow : (a.toUInt32 ^^^ b.toUInt32).toNat < 2 ^ (8 * (a :: x).length) :=
        (toNat_byte_xor_lt a b).trans_le (Nat.pow_le_pow_right (by decide) (by rw [List.length_cons]; omega))
      have hsplit : c ^^^ d = c ^^^ d ^^^ (a.toUInt32 ^^^ b.toUInt32) ^^^ (a.toUInt32 ^^^ b.toUInt32) := by
        rw [UInt32.xor_assoc, UInt32.xor_self, UInt32.xor_zero]
      rw [hsplit, UInt32.toNat_xor]
      exact Nat.xor_lt_two_pow (by omega) hlow

/-- Up to four bytes are known from the remainder they leave. -/
theorem eq_of_run_eq (hpoly : 2 ^ 31 ≤ poly.toNat) {x y : List UInt8} (hlen : x.length = y.length)
    (h4 : x.length ≤ 4) {c : UInt32} (h : run poly c x = run poly c y) : x = y := by
  induction x generalizing y c with
  | nil => exact (List.length_eq_zero_iff.mp hlen.symm).symm
  | cons a x ih =>
    cases y with
    | nil => cases hlen
    | cons b y =>
      rw [List.length_cons] at h4
      have hdiff := xor_lt_of_run_eq hpoly (Nat.succ.inj hlen) (by omega) h
      have hsmall : 2 ^ (8 * x.length) ≤ 2 ^ 24 := Nat.pow_le_pow_right (by decide) (by omega)
      rw [byte_xor_byte, UInt32.xor_self, UInt32.zero_xor] at hdiff
      have hmixed := toNat_of_iterate_shift hpoly (hdiff.trans_le hsmall)
      have hlow := toNat_byte_xor_lt a b
      have hzero : a.toUInt32 ^^^ b.toUInt32 = 0 := UInt32.toNat.inj (by show _ = 0; omega)
      have hab : a = b := by
        have hwords := congrArg UInt32.toNat (UInt32.xor_eq_zero_iff.mp hzero)
        rw [UInt8.toNat_toUInt32, UInt8.toNat_toUInt32] at hwords
        exact UInt8.toNat.inj hwords
      subst hab
      rw [ih (Nat.succ.inj hlen) (by omega) h]

/-- **Bursts**: a change within four bytes changes the remainder. -/
theorem run_burst (hpoly : 2 ^ 31 ≤ poly.toNat) {front x y back : List UInt8} (hlen : x.length = y.length)
    (h4 : x.length ≤ 4) {c : UInt32} (h : run poly c (front ++ x ++ back) = run poly c (front ++ y ++ back)) :
    x = y := by
  rw [run_append, run_append, run_append, run_append] at h
  exact eq_of_run_eq hpoly hlen h4 (run_injective hpoly back h)

end Crc
