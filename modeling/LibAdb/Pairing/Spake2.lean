import LibAdb.Base.Protocol
import LibAdb.Lib.LeBytes
import Mathlib.Algebra.Module.NatInt
import Mathlib.Data.Nat.Bitwise
import Mathlib.Data.ZMod.Basic

/-!
# LibAdb.Pairing.Spake2 — the password-authenticated exchange of pairing

`pairing/spake2.rs`.  The curve and hash libraries are assumed, as `Primitives`: an abelian group whose base point is
killed by `ORDER`, a compression that decompression inverts, the two mask points, and a hash of 64 bytes.  Nothing is
said of the order of the mask points.

The scalars are 32 little-endian bytes.  `mul_raw` multiplies by the number they stand for as it is, `mul_base` by that
number reduced; `mulRaw_eq` and `mulBase_eq` say that on the base point this makes no difference, so the two sides
arrive at one point (`spake2_agreement`).  Both scalars are multiples of the cofactor 8, and no carry of the byte-wise
arithmetic is lost (`password_scalar_clears_cofactor`).  `Cleared` is what the rounds of `password_scalar` keep.
-/

namespace LibAdb

open LeBytes

/-! ## Constants -/

def mBytes : Bytes :=
  [0x5a, 0xda, 0x7e, 0x4b, 0xf6, 0xdd, 0xd9, 0xad, 0xb6, 0x62, 0x6d, 0x32, 0x13, 0x1c, 0x6b, 0x5c,
    0x51, 0xa1, 0xe3, 0x47, 0xa3, 0x47, 0x8f, 0x53, 0xcf, 0xcf, 0x44, 0x1b, 0x88, 0xee, 0xd1, 0x2e]

def nBytes : Bytes :=
  [0x10, 0xe3, 0xdf, 0x0a, 0xe3, 0x7d, 0x8e, 0x7a, 0x99, 0xb5, 0xfe, 0x74, 0xb4, 0x46, 0x72, 0x10,
    0x3d, 0xbd, 0xdc, 0xbd, 0x06, 0xaf, 0x68, 0x0d, 0x71, 0x32, 0x9a, 0x11, 0x69, 0x3b, 0xc7, 0x78]

def orderBytes : Bytes :=
  [0xed, 0xd3, 0xf5, 0x5c, 0x1a, 0x63, 0x12, 0x58, 0xd6, 0x9c, 0xf7, 0xa2, 0xde, 0xf9, 0xde, 0x14,
    0x00, 0x00, 0x00, 0x00, 0x00, 0x00, 0x00, 0x00, 0x00, 0x00, 0x00, 0x00, 0x00, 0x00, 0x00, 0x10]

/-- The order of the base point. -/
def groupOrder : ℕ := value orderBytes

/-- `Role` -/
inductive Role where
  | alice
  | bob
  deriving DecidableEq, Repr

/-- `Spake2Error`; `finish` only ever reports the second. -/
inductive Spake2Error where
  | messageLength (n : ℕ)
  | notAPoint
  deriving DecidableEq, Repr

/-! ## Arithmetic on bytes -/

/-- The loop of `add_assign`; `sum` is a `u16`. -/
def addLoop : Bytes → Bytes → ℕ → Bytes
  | a :: as, b :: bs, carry =>
    let sum := a.toNat + b.toNat + carry
    UInt8.ofNat sum :: addLoop as bs (sum / 2 ^ 8)
  | _, _, _ => []

/-- `add_assign` -/
def addAssign (a b : Bytes) : Bytes := addLoop a b 0

/-- `double_assign` -/
def doubleAssign (a : Bytes) : Bytes := addAssign a a

/-- The loop of `left_shift_3`. -/
def shiftLoop : Bytes → Byte → Bytes
  | [], _ => []
  | byte :: rest, carry => (byte <<< 3 ||| carry) :: shiftLoop rest (byte >>> 5)

/-- `left_shift_3` -/
def leftShift3 (n : Bytes) : Bytes := shiftLoop n 0

/-- `reduce_wide`: the canonical bytes of the number modulo the order. -/
def reduceWide (wide : Bytes) : Bytes := ofNat 32 (value wide % groupOrder)

/-- One round of the loop in `password_scalar`: the multiple of the order that clears bit `bit` is added, and doubled
for the next round. -/
def clearBit (scalar order : Bytes) (bit : ℕ) : Bytes × Bytes :=
  let mask : Byte := 1 <<< UInt8.ofNat bit
  let addend := if scalar.getD 0 0 &&& mask = mask then order else List.replicate 32 0
  (addAssign scalar addend, doubleAssign order)

/-- `password_scalar` -/
def passwordScalar (passwordHash : Bytes) : Bytes :=
  ([0, 1, 2].foldl (fun s bit => clearBit s.1 s.2 bit) (reduceWide passwordHash, orderBytes)).1

/-- `absorb`: what it adds to the bytes hashed so far. -/
def absorb (transcript data : Bytes) : Bytes := transcript ++ ofNat 8 data.length ++ data

/-! ## The exchange -/

/-- What is assumed of the curve and of SHA-512. -/
structure Primitives (G : Type) [AddCommGroup G] where
  base : G
  order_nsmul_base : groupOrder • base = 0
  compress : G → Bytes
  decompress : Bytes → Option G
  decompress_compress : ∀ p, decompress (compress p) = some p
  maskM : G
  maskN : G
  decompress_m : decompress mBytes = some maskM
  decompress_n : decompress nBytes = some maskN
  sha512 : Bytes → Bytes
  length_sha512 : ∀ bytes, (sha512 bytes).length = 64

section Exchange

variable {G : Type} [AddCommGroup G]

/-- One bit of `mul_raw`; `conditional_select` takes `sum` when the bit is set. -/
def mulBit (point : G) (byte : Byte) (acc : G) (bit : ℕ) : G :=
  let acc := acc + acc
  let sum := acc + point
  if byte >>> UInt8.ofNat bit &&& 1 = 1 then sum else acc

/-- The inner loop of `mul_raw`. -/
def mulByte (point : G) (acc : G) (byte : Byte) : G := [7, 6, 5, 4, 3, 2, 1, 0].foldl (mulBit point byte) acc

/-- `mul_raw` -/
def mulRaw (point : G) (scalar : Bytes) : G := scalar.reverse.foldl (mulByte point) 0

/-- One side of the exchange. -/
structure Spake2 where
  role : Role
  myName : Bytes
  theirName : Bytes
  privateKey : Bytes
  passwordHash : Bytes
  passwordScalar : Bytes
  myMsg : Bytes
  deriving DecidableEq, Repr

namespace Spake2

variable (c : Primitives G)

/-- `EdwardsPoint::mul_base` of `Scalar::from_bytes_mod_order`. -/
def mulBase (scalar : Bytes) : G := (value scalar % groupOrder) • c.base

/-- The point this side masks its message with. -/
def mask : Role → G
  | .alice => c.maskM
  | .bob => c.maskN

/-- The point the other side masks its message with. -/
def peerMask : Role → G
  | .alice => c.maskN
  | .bob => c.maskM

/-- `Spake2::new`, with the 64 bytes drawn from the generator. -/
def new (role : Role) (myName theirName password wide : Bytes) : Spake2 :=
  let privateKey := leftShift3 (reduceWide wide)
  let passwordHash := c.sha512 password
  let passwordScalar := LibAdb.passwordScalar passwordHash
  let myMsg := c.compress (mulBase c privateKey + mulRaw (mask c role) passwordScalar)
  ⟨role, myName, theirName, privateKey, passwordHash, passwordScalar, myMsg⟩

/-- `Spake2::finish` -/
def finish (s : Spake2) (theirMsg : Bytes) : Except Spake2Error Bytes :=
  match c.decompress theirMsg with
  | none => .error .notAPoint
  | some masked =>
    let unmasked := masked - mulRaw (peerMask c s.role) s.passwordScalar
    let shared := c.compress (mulRaw unmasked s.privateKey)
    let (aliceName, bobName, aliceMsg, bobMsg) := match s.role with
      | .alice => (s.myName, s.theirName, s.myMsg, theirMsg)
      | .bob => (s.theirName, s.myName, theirMsg, s.myMsg)
    .ok (c.sha512 ([aliceName, bobName, aliceMsg, bobMsg, shared, s.passwordHash].foldl absorb []))

theorem new_passwordScalar (role : Role) (myName theirName password wide : Bytes) :
    (new c role myName theirName password wide).passwordScalar = LibAdb.passwordScalar (c.sha512 password) := rfl

end Spake2

/-! ## Multiplication -/

/-- A set bit, as a number. -/
theorem bit_toNat (byte : Byte) {bit : ℕ} (h : bit < 8) :
    (if byte >>> UInt8.ofNat bit &&& 1 = 1 then 1 else 0) = byte.toNat / 2 ^ bit % 2 := by
  have hval : (byte >>> UInt8.ofNat bit &&& 1).toNat = byte.toNat / 2 ^ bit % 2 := by
    have h8 : bit % 256 % 8 = bit := by omega
    simp [UInt8.toNat_and, UInt8.toNat_shiftRight, Nat.shiftRight_eq_div_pow, h8]
  have hiff : byte >>> UInt8.ofNat bit &&& 1 = 1 ↔ byte.toNat / 2 ^ bit % 2 = 1 := by
    rw [← hval]
    exact ⟨fun h => by rw [h]; rfl, fun h => UInt8.toNat.inj h⟩
  split_ifs with hb
  · exact (hiff.mp hb).symm
  · have := Nat.mod_two_eq_zero_or_one (byte.toNat / 2 ^ bit)
    rcases this with h0 | h1
    · exact h0.symm
    · exact absurd (hiff.mpr h1) hb

/-- Doubling, and adding the point if the bit is set. -/
theorem mulBit_nsmul (point : G) (byte : Byte) (k : ℕ) {bit : ℕ} (h : bit < 8) :
    mulBit point byte (k • point) bit = (2 * k + byte.toNat / 2 ^ bit % 2) • point := by
  unfold mulBit
  dsimp only
  rw [← bit_toNat byte h, add_nsmul, two_mul, add_nsmul]
  split_ifs
  · rw [one_nsmul]
  · rw [zero_nsmul, add_zero]

/-- The bits of the byte from one place up stand in front of `m`; with the next one they are doubled. -/
theorem mulBit_next (point : G) (byte : Byte) (m bit : ℕ) (h : bit < 8) :
    mulBit point byte ((byte.toNat / 2 ^ (bit + 1) + m) • point) bit = (byte.toNat / 2 ^ bit + 2 * m) • point := by
  rw [mulBit_nsmul _ _ _ h, pow_succ, ← Nat.div_div_eq_div_mul]
  congr 1
  omega

theorem mulByte_nsmul (point : G) (byte : Byte) (k : ℕ) :
    mulByte point (k • point) byte = (byte.toNat + 256 * k) • point := by
  have hstart : byte.toNat / 2 ^ (7 + 1) + k = k := by rw [Nat.div_eq_of_lt byte.toNat_lt, Nat.zero_add]
  have hend : byte.toNat / 2 ^ 0 + 2 * (2 * (2 * (2 * (2 * (2 * (2 * (2 * k))))))) = byte.toNat + 256 * k := by
    rw [pow_zero, Nat.div_one]
    omega
  unfold mulByte
  simp only [List.foldl_cons, List.foldl_nil]
  rw [← hend]
  conv_lhs => rw [← hstart]
  rw [mulBit_next _ _ _ 7 (by decide), mulBit_next _ _ _ 6 (by decide), mulBit_next _ _ _ 5 (by decide),
    mulBit_next _ _ _ 4 (by decide), mulBit_next _ _ _ 3 (by decide), mulBit_next _ _ _ 2 (by decide),
    mulBit_next _ _ _ 1 (by decide), mulBit_next _ _ _ 0 (by decide)]

/-- **`mul_raw` multiplies by the number its bytes stand for.** -/
theorem mulRaw_eq (point : G) (scalar : Bytes) : mulRaw point scalar = value scalar • point := by
  unfold mulRaw
  rw [List.foldl_reverse]
  induction scalar with
  | nil => exact (zero_nsmul _).symm
  | cons byte rest ih => rw [List.foldr_cons, ih, mulByte_nsmul, value]

variable (c : Primitives G)

/-- The base point does not see the reduction. -/
theorem mulBase_eq (scalar : Bytes) : Spake2.mulBase c scalar = value scalar • c.base := by
  unfold Spake2.mulBase
  conv_rhs => rw [← Nat.mod_add_div (value scalar) groupOrder, add_nsmul, mul_comm, mul_nsmul', c.order_nsmul_base,
    nsmul_zero, add_zero]

/-- Both sides arrive at one point. -/
theorem shared_point (x y : Bytes) :
    mulRaw (Spake2.mulBase c y) x = mulRaw (Spake2.mulBase c x) y := by
  simp only [mulRaw_eq, mulBase_eq]
  exact nsmul_left_comm _ _ _

/-- With the same password, and each other's names, the two sides finish with one key. -/
theorem finish_agrees (password aliceName bobName aliceWide bobWide : Bytes) :
    let alice := Spake2.new c .alice aliceName bobName password aliceWide
    let bob := Spake2.new c .bob bobName aliceName password bobWide
    ∃ transcript, alice.finish c bob.myMsg = .ok (c.sha512 transcript) ∧
      bob.finish c alice.myMsg = .ok (c.sha512 transcript) := by
  intro alice bob
  -- the masks cancel: both are multiplied by the same number
  have halice : alice.finish c bob.myMsg = .ok (c.sha512 ([aliceName, bobName, alice.myMsg, bob.myMsg,
      c.compress (mulRaw (Spake2.mulBase c bob.privateKey) alice.privateKey), c.sha512 password].foldl absorb [])) := by
    unfold Spake2.finish
    rw [show c.decompress bob.myMsg = some (Spake2.mulBase c bob.privateKey +
      mulRaw c.maskN (passwordScalar (c.sha512 password))) from c.decompress_compress _]
    simp only [alice, Spake2.new, Spake2.peerMask, add_sub_cancel_right]
  have hbob : bob.finish c alice.myMsg = .ok (c.sha512 ([aliceName, bobName, alice.myMsg, bob.myMsg,
      c.compress (mulRaw (Spake2.mulBase c alice.privateKey) bob.privateKey), c.sha512 password].foldl absorb [])) := by
    unfold Spake2.finish
    rw [show c.decompress alice.myMsg = some (Spake2.mulBase c alice.privateKey +
      mulRaw c.maskM (passwordScalar (c.sha512 password))) from c.decompress_compress _]
    simp only [bob, Spake2.new, Spake2.peerMask, add_sub_cancel_right]
  exact ⟨_, halice, by rw [hbob, shared_point c alice.privateKey bob.privateKey]⟩

/-- **Agreement**: the key is one, and 64 bytes long. -/
theorem spake2_agreement (password aliceName bobName aliceWide bobWide : Bytes) :
    let alice := Spake2.new c .alice aliceName bobName password aliceWide
    let bob := Spake2.new c .bob bobName aliceName password bobWide
    ∃ key, alice.finish c bob.myMsg = .ok key ∧ bob.finish c alice.myMsg = .ok key ∧ key.length = 64 := by
  obtain ⟨transcript, halice, hbob⟩ := finish_agrees c password aliceName bobName aliceWide bobWide
  exact ⟨_, halice, hbob, c.length_sha512 transcript⟩

end Exchange

/-! ## No carry is lost -/

theorem value_addLoop (a b : Bytes) (carry : ℕ) (h : a.length = b.length) :
    value (addLoop a b carry) = (value a + value b + carry) % 256 ^ a.length := by
  induction a generalizing b carry with
  | nil => simp [addLoop, value, Nat.mod_one]
  | cons x xs ih =>
    cases b with
    | nil => cases h
    | cons y ys =>
      have hlow : (x.toNat + 256 * value xs + (y.toNat + 256 * value ys) + carry) % 256 =
          (x.toNat + y.toNat + carry) % 256 := by omega
      have hhigh : (x.toNat + 256 * value xs + (y.toNat + 256 * value ys) + carry) / 256 =
          value xs + value ys + (x.toNat + y.toNat + carry) / 256 := by omega
      simp only [addLoop, value]
      rw [ih ys _ (Nat.succ.inj h), List.length_cons, mod_pow_succ, hlow, hhigh, UInt8.toNat_ofNat']
      rfl

theorem length_addLoop (a b : Bytes) (carry : ℕ) (h : a.length = b.length) :
    (addLoop a b carry).length = a.length := by
  induction a generalizing b carry with
  | nil => rfl
  | cons x xs ih =>
    cases b with
    | nil => cases h
    | cons y ys => simp [addLoop, ih ys _ (Nat.succ.inj h)]

/-- Adding is adding, as long as the sum fits. -/
theorem value_addAssign {a b : Bytes} (h : a.length = b.length) (hfits : value a + value b < 256 ^ a.length) :
    value (addAssign a b) = value a + value b := by
  rw [addAssign, value_addLoop a b 0 h, Nat.add_zero, Nat.mod_eq_of_lt hfits]

theorem shifted_toNat (byte carry : Byte) (h : carry.toNat < 8) :
    (byte <<< 3 ||| carry).toNat = (8 * byte.toNat + carry.toNat) % 256 := by
  have hb := byte.toNat_lt
  have hshift : (byte <<< 3).toNat = 2 ^ 3 * (byte.toNat % 32) := by
    rw [UInt8.toNat_shiftLeft, Nat.shiftLeft_eq]
    show byte.toNat * 2 ^ 3 % 2 ^ 8 = _
    omega
  rw [UInt8.toNat_or, hshift, ← Nat.two_pow_add_eq_or_of_lt h]
  omega

theorem value_shiftLoop (n : Bytes) (carry : Byte) (h : carry.toNat < 8) :
    value (shiftLoop n carry) = (8 * value n + carry.toNat) % 256 ^ n.length := by
  induction n generalizing carry with
  | nil => simp [shiftLoop, value, Nat.mod_one]
  | cons byte rest ih =>
    have hb := byte.toNat_lt
    have hnext : (byte >>> 5).toNat = byte.toNat / 32 := by
      rw [UInt8.toNat_shiftRight, Nat.shiftRight_eq_div_pow]
      rfl
    have hlow : (8 * (byte.toNat + 256 * value rest) + carry.toNat) % 256 = (8 * byte.toNat + carry.toNat) % 256 := by
      omega
    have hhigh : (8 * (byte.toNat + 256 * value rest) + carry.toNat) / 256 = 8 * value rest + byte.toNat / 32 := by
      omega
    simp only [shiftLoop, value]
    rw [ih _ (by rw [hnext]; omega), shifted_toNat byte carry h, hnext, List.length_cons, mod_pow_succ, hlow, hhigh]

theorem length_shiftLoop (n : Bytes) (carry : Byte) : (shiftLoop n carry).length = n.length := by
  induction n generalizing carry with
  | nil => rfl
  | cons byte rest ih => simp [shiftLoop, ih]

theorem groupOrder_fits : 8 * groupOrder < 256 ^ 32 := by decide +kernel

theorem groupOrder_mod : groupOrder % 8 = 5 := by decide +kernel

theorem groupOrder_pos : 0 < groupOrder := by decide +kernel

theorem value_reduceWide (wide : Bytes) : value (reduceWide wide) = value wide % groupOrder := by
  have hlt := Nat.mod_lt (value wide) groupOrder_pos
  have hfits := groupOrder_fits
  exact value_ofNat_of_lt (by omega)

/-- The test of bit `bit` in `password_scalar`. -/
theorem and_mask_eq (byte : Byte) {bit : ℕ} (h : bit < 8) :
    byte &&& (1 <<< UInt8.ofNat bit) = 1 <<< UInt8.ofNat bit ↔ byte.toNat / 2 ^ bit % 2 = 1 := by
  have hmask : ((1 : Byte) <<< UInt8.ofNat bit).toNat = 2 ^ bit := by
    interval_cases bit <;> rfl
  rw [← UInt8.toNat_inj, UInt8.toNat_and, hmask, Nat.and_two_pow, Nat.testBit_eq_decide_div_mod_eq]
  have hpos := Nat.two_pow_pos bit
  by_cases hb : byte.toNat / 2 ^ bit % 2 = 1
  · simp [hb]
  · simp [hb]
    omega

/-- One round adds the order's multiple if the bit is set, and doubles the multiple. -/
theorem clearBit_spec {scalar order : Bytes} {bit : ℕ} (hbit : bit < 8) (hs : scalar.length = 32)
    (ho : order.length = 32) (hsum : value scalar + value order < 256 ^ 32)
    (hdouble : value order + value order < 256 ^ 32) :
    value (clearBit scalar order bit).1 =
        value scalar + (if value scalar / 2 ^ bit % 2 = 1 then value order else 0) ∧
      value (clearBit scalar order bit).2 = 2 * value order ∧
      (clearBit scalar order bit).1.length = 32 ∧ (clearBit scalar order bit).2.length = 32 := by
  have hhead : (scalar.getD 0 0).toNat / 2 ^ bit % 2 = value scalar / 2 ^ bit % 2 := by
    cases scalar with
    | nil => cases hs
    | cons b rest =>
      have hb := b.toNat_lt
      simp only [List.getD_cons_zero, value]
      interval_cases bit <;> omega
  have hzero : value (List.replicate 32 (0 : Byte)) = 0 := by decide
  unfold clearBit
  dsimp only
  have hlen : ∀ addend : Bytes, addend.length = 32 → (addAssign scalar addend).length = 32 := by
    intro addend hadd
    rw [addAssign, length_addLoop _ _ _ (hs.trans hadd.symm), hs]
  refine ⟨?_, ?_, ?_, ?_⟩
  · by_cases hset : value scalar / 2 ^ bit % 2 = 1
    · rw [if_pos ((and_mask_eq _ hbit).mpr (hhead.trans hset)), if_pos hset,
        value_addAssign (hs.trans ho.symm) (by rw [hs]; exact hsum)]
    · rw [if_neg (fun hm => hset (hhead.symm.trans ((and_mask_eq _ hbit).mp hm))), if_neg hset,
        value_addAssign (by rw [hs]; rfl) (by rw [hs, hzero]; exact value_lt scalar |>.trans_eq (by rw [hs])), hzero]
  · rw [doubleAssign, value_addAssign rfl (by rw [ho]; exact hdouble), two_mul]
  · split_ifs
    · exact hlen _ ho
    · exact hlen _ rfl
  · rw [doubleAssign, addAssign, length_addLoop _ _ _ rfl, ho]

/-- The scalar and the order's multiple before round `n` of `password_scalar`. -/
def passwordRounds (passwordHash : Bytes) (n : ℕ) : Bytes × Bytes :=
  ([0, 1, 2].take n).foldl (fun s bit => clearBit s.1 s.2 bit) (reduceWide passwordHash, orderBytes)

/-- What `n` rounds leave: the low `n` bits are clear, and only multiples of the order were added. -/
structure Cleared (passwordHash : Bytes) (n : ℕ) (st : Bytes × Bytes) : Prop where
  scalar_length : st.1.length = 32
  order_length : st.2.length = 32
  order_value : value st.2 = 2 ^ n * groupOrder
  scalar_lt : value st.1 < 2 ^ n * groupOrder
  scalar_mod : value st.1 % groupOrder = value passwordHash % groupOrder
  scalar_dvd : 2 ^ n ∣ value st.1

theorem Cleared.init (passwordHash : Bytes) : Cleared passwordHash 0 (reduceWide passwordHash, orderBytes) where
  scalar_length := length_ofNat _ _
  order_length := rfl
  order_value := by rw [pow_zero, one_mul]; rfl
  scalar_lt := by
    rw [pow_zero, one_mul, value_reduceWide]
    exact Nat.mod_lt _ groupOrder_pos
  scalar_mod := by rw [value_reduceWide, Nat.mod_mod]
  scalar_dvd := one_dvd _

/-- Adding `l`, an odd number, clears the bit. -/
theorem dvd_add_of_bit {s l n : ℕ} (hdvd : 2 ^ n ∣ s) (hl : l % 2 = 1) :
    2 ^ (n + 1) ∣ s + (if s / 2 ^ n % 2 = 1 then 2 ^ n * l else 0) := by
  obtain ⟨t, rfl⟩ := hdvd
  rw [Nat.mul_div_cancel_left _ (Nat.two_pow_pos n), pow_succ]
  split_ifs with ht
  · rw [← mul_add]
    exact mul_dvd_mul_left _ (Nat.dvd_of_mod_eq_zero (by omega))
  · rw [Nat.add_zero]
    exact mul_dvd_mul_left _ (Nat.dvd_of_mod_eq_zero (by omega))

/-- The sums of round `n` are exact. -/
theorem Cleared.exact {passwordHash : Bytes} {n : ℕ} {st : Bytes × Bytes} (h : Cleared passwordHash n st) (hn : n < 3) :
    value (clearBit st.1 st.2 n).1 = value st.1 + (if value st.1 / 2 ^ n % 2 = 1 then value st.2 else 0) ∧
      value (clearBit st.1 st.2 n).2 = 2 * value st.2 ∧
      (clearBit st.1 st.2 n).1.length = 32 ∧ (clearBit st.1 st.2 n).2.length = 32 := by
  have hfits := groupOrder_fits
  have hlt := h.scalar_lt
  have hval := h.order_value
  -- the largest multiple that is doubled is four times the order
  have hfour : 2 ^ n * groupOrder ≤ 4 * groupOrder :=
    Nat.mul_le_mul_right _ (Nat.pow_le_pow_right (by decide) (by omega : n ≤ 2))
  exact clearBit_spec (by omega) h.scalar_length h.order_length (by omega) (by omega)

theorem Cleared.round {passwordHash : Bytes} {n : ℕ} {st : Bytes × Bytes} (h : Cleared passwordHash n st) (hn : n < 3) :
    Cleared passwordHash (n + 1) (clearBit st.1 st.2 n) := by
  obtain ⟨hscalar, horder, hlen, holen⟩ := h.exact hn
  have hlt := h.scalar_lt
  rw [h.order_value] at hscalar horder
  refine ⟨hlen, holen, ?_, ?_, ?_, ?_⟩
  · rw [horder, pow_succ]
    ring
  · rw [hscalar, pow_succ, mul_comm _ 2, mul_assoc]
    split_ifs <;> omega
  · rw [hscalar, ← h.scalar_mod]
    split_ifs
    · rw [Nat.add_mul_mod_self_right]
    · rw [Nat.add_zero]
  · rw [hscalar]
    exact dvd_add_of_bit h.scalar_dvd (by have := groupOrder_mod; omega)

theorem cleared_rounds (passwordHash : Bytes) {n : ℕ} (hn : n ≤ 3) :
    Cleared passwordHash n (passwordRounds passwordHash n) := by
  have h0 := Cleared.init passwordHash
  have h1 := h0.round (by decide)
  have h2 := h1.round (by decide)
  have h3 := h2.round (by decide)
  interval_cases n
  · exact h0
  · exact h1
  · exact h2
  · exact h3

/-- `left_shift_3` of any 32 bytes below the order. -/
theorem leftShift3_eq {k : ℕ} (hk : k < groupOrder) : leftShift3 (ofNat 32 k) = ofNat 32 (8 * k) := by
  have hfits := groupOrder_fits
  have hval : value (leftShift3 (ofNat 32 k)) = 8 * k := by
    rw [leftShift3, value_shiftLoop _ _ (by decide), value_ofNat_of_lt (by omega), length_ofNat]
    show (8 * k + 0) % 256 ^ 32 = _
    rw [Nat.add_zero, Nat.mod_eq_of_lt (by omega)]
  have hlen : (leftShift3 (ofNat 32 k)).length = 32 := by
    rw [leftShift3, length_shiftLoop, length_ofNat]
  have hbytes := ofNat_value (leftShift3 (ofNat 32 k))
  rw [hlen, hval] at hbytes
  exact hbytes.symm

/-- **The password scalar is the hash, cleared of the cofactor**: no carry is lost in any round, nor in the shift that
makes a private key. -/
theorem password_scalar_clears_cofactor (passwordHash : Bytes) :
    groupOrder = 2 ^ 252 + 27742317777372353535851937790883648493 ∧
      (passwordScalar passwordHash).length = 32 ∧
      value (passwordScalar passwordHash) ≡ value passwordHash [MOD groupOrder] ∧
      8 ∣ value (passwordScalar passwordHash) ∧
      value (passwordScalar passwordHash) < 8 * groupOrder ∧
      value (passwordScalar passwordHash) < 2 ^ 256 ∧
      (∀ bit < 3,
        let st := passwordRounds passwordHash bit
        let next := clearBit st.1 st.2 bit
        passwordRounds passwordHash (bit + 1) = next ∧
          value next.1 = value st.1 + (if value st.1 / 2 ^ bit % 2 = 1 then value st.2 else 0) ∧
          value next.2 = 2 * value st.2) ∧
      passwordScalar passwordHash = (passwordRounds passwordHash 3).1 ∧
      ∀ k < groupOrder, leftShift3 (ofNat 32 k) = ofNat 32 (8 * k) := by
  have hlast : Cleared passwordHash 3 (passwordRounds passwordHash 3) := cleared_rounds passwordHash le_rfl
  have hfits := groupOrder_fits
  have hlt : value (passwordScalar passwordHash) < 8 * groupOrder := hlast.scalar_lt
  refine ⟨by decide +kernel, hlast.scalar_length, hlast.scalar_mod, hlast.scalar_dvd, hlt, ?_, ?_, rfl,
    fun k hk => leftShift3_eq hk⟩
  · exact hlt.trans (hfits.trans_eq (by norm_num))
  · intro bit hbit
    have hround := (cleared_rounds passwordHash hbit.le).exact hbit
    refine ⟨?_, hround.1, hround.2.1⟩
    interval_cases bit <;> rfl

/-! ## A curve to run it on -/

instance : NeZero (8 * groupOrder) := ⟨by have := groupOrder_pos; omega⟩

/-- The residues modulo eight times the order, whose points compress to their numbers, with a hash that adds up. -/
def residues : Primitives (ZMod (8 * groupOrder)) where
  base := (8 : ℕ)
  order_nsmul_base := by
    rw [nsmul_eq_mul, ← Nat.cast_mul, mul_comm groupOrder 8]
    exact ZMod.natCast_self _
  compress p := ofNat 32 p.val
  decompress bytes := if value bytes < 8 * groupOrder then some (value bytes : ℕ) else none
  decompress_compress p := by
    have hlt := ZMod.val_lt p
    have hfits := groupOrder_fits
    rw [value_ofNat_of_lt (by omega), if_pos hlt, ZMod.natCast_zmod_val]
  maskM := (value mBytes : ℕ)
  maskN := (value nBytes : ℕ)
  decompress_m := if_pos (by decide +kernel)
  decompress_n := if_pos (by decide +kernel)
  sha512 bytes := ofNat 64 (bytes.foldl (fun sum b => 257 * sum + b.toNat) 1)
  length_sha512 _ := length_ofNat _ _

/-- Neither mask is lost: the password's number does not kill it. -/
theorem residues_masked (role : Role) (mine theirs wide : Bytes) :
    mulRaw residues.maskM (Spake2.new residues role mine theirs [49, 50] wide).passwordScalar ≠ 0 ∧
      mulRaw residues.maskN (Spake2.new residues role mine theirs [49, 50] wide).passwordScalar ≠ 0 := by
  have hmask : ∀ bytes scalar : Bytes, ¬ 8 * groupOrder ∣ value scalar * value bytes →
      mulRaw ((value bytes : ℕ) : ZMod (8 * groupOrder)) scalar ≠ 0 := by
    intro bytes scalar hnot hzero
    rw [mulRaw_eq, nsmul_eq_mul, ← Nat.cast_mul, ZMod.natCast_eq_zero_iff] at hzero
    exact hnot hzero
  rw [Spake2.new_passwordScalar]
  exact ⟨hmask mBytes _ (by decide +kernel), hmask nBytes _ (by decide +kernel)⟩

/-- An exchange over the residues, with messages that are masked. -/
theorem spake2_agreement_residues :
    let alice := Spake2.new residues .alice [97] [98] [49, 50] (List.replicate 64 3)
    let bob := Spake2.new residues .bob [98] [97] [49, 50] (List.replicate 64 5)
    (mulRaw residues.maskM alice.passwordScalar ≠ 0 ∧ mulRaw residues.maskN bob.passwordScalar ≠ 0) ∧
      ∃ key, alice.finish residues bob.myMsg = .ok key ∧ bob.finish residues alice.myMsg = .ok key ∧ key.length = 64 := by
  intro alice bob
  exact ⟨⟨(residues_masked _ _ _ _).1, (residues_masked _ _ _ _).2⟩,
    spake2_agreement residues [49, 50] [97] [98] (List.replicate 64 3) (List.replicate 64 5)⟩

end LibAdb
