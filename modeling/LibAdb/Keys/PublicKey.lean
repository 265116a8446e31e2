import LibAdb.Keys.Record
import LibAdb.Lib.LeBytes
import LibAdb.Lib.Slices
import Mathlib.Data.Nat.Size
import Mathlib.Data.UInt

/-!
# LibAdb.Keys.PublicKey — the public key as the device reads it

`keys/pubkey.rs`, and the AUTH payload that `AdbKey::from_private_key` makes of it.  A big integer is a natural number:
`toBytesLe` are the bytes the library gives for one.

The Montgomery constant comes from four Newton steps.  A step squares the error `1 - n0 * inv` (`newtonStep_error`), the
first error is a multiple of 8, and `8 ^ 16` is nothing in 32 bits (`negInverse_spec`).
-/

namespace LibAdb.Keys

open LeBytes Slices

/-! ## The mincrypt struct -/

/-- `MODULUS_SIZE` -/
def modulusSize : ℕ := 256

/-- `MODULUS_WORDS` -/
def modulusWords : UInt32 := UInt32.ofNat (modulusSize / 4)

/-- `ENCODED_SIZE` -/
def encodedSize : ℕ := 4 + 4 + modulusSize + modulusSize + 4

/-- `PREFIX_LEN`: the blob in base 64, and a space. -/
def prefixLen : ℕ := (encodedSize + 2) / 3 * 4 + 1

/-- `BigUint::to_bytes_le`: as many bytes as the number has, one for zero. -/
def toBytesLe (n : ℕ) : Bytes := ofNat (max 1 ((Nat.size n + 7) / 8)) n

/-- `Vec::resize` with zeros. -/
def resize (bytes : Bytes) (len : ℕ) : Bytes := bytes.take len ++ List.replicate (len - bytes.length) 0

/-- One Newton step of `neg_inverse_mod_2_32`. -/
def newtonStep (n0 inv : UInt32) : UInt32 := inv * (2 - n0 * inv)

/-- `neg_inverse_mod_2_32` -/
def negInverseMod2Pow32 (n0 : UInt32) : UInt32 := 0 - (newtonStep n0)^[4] n0

/-- `mincrypt_struct` -/
def mincryptStruct (n e : ℕ) : Except KeyError Bytes :=
  let bits := Nat.size n
  if bits ≠ modulusSize * 8 then .error (.unsupportedModulus bits)
  else
    let nLe := resize (toBytesLe n) modulusSize
    let n0 := u32At nLe 0
    if n0 % 2 = 0 then .error .evenModulus
    else
      let n0inv := negInverseMod2Pow32 n0
      let rrLe := resize (toBytesLe (2 ^ (modulusSize * 16) % n)) modulusSize
      let eLe := toBytesLe e
      if 4 < eLe.length then .error .unsupportedExponent
      else
        let eBytes := resize eLe 4
        let exponent := u32At eBytes 0
        if exponent < 3 ∨ exponent % 2 = 0 then .error .unsupportedExponent
        else .ok (toLeBytes modulusWords ++ toLeBytes n0inv ++ nLe ++ rrLe ++ eBytes)

/-! ## The line -/

/-- `base64ct::Base64`, as far as it is documented: four symbols for every three bytes or the rest of them, and no symbol
is a NUL. -/
structure Base64 where
  encodeString : Bytes → Bytes
  length_encodeString : ∀ bytes, (encodeString bytes).length = (bytes.length + 2) / 3 * 4
  clean : ∀ bytes, 0 ∉ encodeString bytes

/-- `KeyName`: what a public-key line can carry. -/
structure KeyName where
  name : Bytes
  clean : ∀ b ∈ name, b ≠ 0 ∧ b ≠ 13 ∧ b ≠ 10
  short : name.length ≤ maxPayloadConst - prefixLen - 1

/-- `KeyName::new` -/
def KeyName.new (name : Bytes) : Except KeyError KeyName :=
  if hclean : ∃ b ∈ name, b = 0 ∨ b = 13 ∨ b = 10 then .error .invalidName
  else if hlong : maxPayloadConst - prefixLen - 1 < name.length then .error (.nameTooLong name.length)
  else .ok ⟨name, fun b hb => ⟨fun h => hclean ⟨b, hb, .inl h⟩, fun h => hclean ⟨b, hb, .inr (.inl h)⟩,
    fun h => hclean ⟨b, hb, .inr (.inr h)⟩⟩, not_lt.mp hlong⟩

/-- `encode_public_key` -/
def encodePublicKey (base64 : Base64) (n e : ℕ) (name : KeyName) : Except KeyError Bytes := do
  let blob ← mincryptStruct n e
  let out := base64.encodeString blob
  if name.name = [] then pure out else pure (out ++ [32] ++ name.name)

/-- The AUTH payload of `AdbKey::from_private_key`. -/
def publicKeyWire (base64 : Base64) (n e : ℕ) (name : KeyName) : Except KeyError Bytes := do
  let line ← encodePublicKey base64 n e name
  pure (line ++ [0])

/-! ## Bytes of numbers -/

theorem length_toBytesLe_le {n len : ℕ} (hlen : 1 ≤ len) : (toBytesLe n).length ≤ len ↔ n < 2 ^ (8 * len) := by
  rw [toBytesLe, length_ofNat, ← Nat.size_le]
  omega

/-- Resizing pads the number with zeros. -/
theorem resize_toBytesLe {n len : ℕ} (hlen : 1 ≤ len) (h : n < 2 ^ (8 * len)) :
    resize (toBytesLe n) len = ofNat len n := by
  have hle := (length_toBytesLe_le hlen).mpr h
  have hown : n < 256 ^ (toBytesLe n).length := by
    have hsize := (@length_toBytesLe_le n (toBytesLe n).length (by simp [toBytesLe])).mp le_rfl
    rwa [pow_mul] at hsize
  have hpad := ofNat_add (len - (toBytesLe n).length) hown
  rw [Nat.add_sub_of_le hle] at hpad
  rw [resize, List.take_of_length_le hle, hpad]
  congr 1
  rw [toBytesLe, length_ofNat]

/-- The lowest word. -/
theorem u32At_ofNat (len n : ℕ) : u32At (ofNat (len + 4) n) 0 = UInt32.ofNat n := by
  apply UInt32.toNat.inj
  simp only [ofNat, u32At, ofLeBytes, List.getD_cons_zero, List.getD_cons_succ, Nat.zero_add, UInt32.toNat_ofNat',
    UInt8.toNat_ofNat']
  omega

/-! ## The Montgomery constant -/

section Newton

open scoped UInt32.CommRing

/-- A step squares the error. -/
theorem newtonStep_error (n0 inv : UInt32) : 1 - n0 * newtonStep n0 inv = (1 - n0 * inv) ^ 2 := by
  unfold newtonStep
  ring

/-- Four steps from `n0` itself. -/
theorem newton_error (n0 : UInt32) : 1 - n0 * (newtonStep n0)^[4] n0 = (1 - n0 * n0) ^ 16 := by
  simp only [Function.iterate_succ, Function.iterate_zero, Function.comp_apply, id_eq, newtonStep_error]
  ring

/-- The square of an odd word is one more than a multiple of eight. -/
theorem sq_odd {n0 : UInt32} (h : n0.toNat % 2 = 1) : ∃ q : UInt32, 1 - n0 * n0 = 8 * q := by
  obtain ⟨k, hk⟩ : ∃ k, n0.toNat * n0.toNat = 1 + 8 * k := by
    obtain ⟨m, hm⟩ : ∃ m, n0.toNat = 2 * m + 1 := ⟨n0.toNat / 2, by omega⟩
    obtain ⟨j, hj⟩ := Nat.even_mul_succ_self m
    refine ⟨j, ?_⟩
    rw [hm]
    nlinarith
  have hsq : n0 * n0 = 1 + 8 * UInt32.ofNat k := by
    apply UInt32.toNat.inj
    rw [UInt32.toNat_mul, hk]
    simp only [UInt32.toNat_add, UInt32.toNat_mul, UInt32.toNat_ofNat', UInt32.toNat_ofNat]
    omega
  exact ⟨-UInt32.ofNat k, by rw [hsq]; ring⟩

/-- **The constant is minus the inverse.** -/
theorem negInverse_spec {n0 : UInt32} (h : n0.toNat % 2 = 1) : n0 * negInverseMod2Pow32 n0 + 1 = 0 := by
  obtain ⟨q, hq⟩ := sq_odd h
  have hpow : (8 : UInt32) ^ 16 = 0 := by decide
  have herror : 1 - n0 * (newtonStep n0)^[4] n0 = 0 := by
    rw [newton_error, hq, mul_pow, hpow, zero_mul]
  calc n0 * negInverseMod2Pow32 n0 + 1 = 1 - n0 * (newtonStep n0)^[4] n0 := by
        unfold negInverseMod2Pow32
        ring
    _ = 0 := herror

end Newton

/-! ## The fields of the struct -/

/-- A modulus and an exponent the format can carry. -/
structure Carried (n e : ℕ) : Prop where
  bits : 2 ^ 2047 ≤ n ∧ n < 2 ^ 2048
  odd : n % 2 = 1
  exponent : 3 ≤ e ∧ e < 2 ^ 32
  exponent_odd : e % 2 = 1

theorem size_eq_2048 (n : ℕ) : Nat.size n = modulusSize * 8 ↔ 2 ^ 2047 ≤ n ∧ n < 2 ^ 2048 := by
  rw [← Nat.lt_size, ← Nat.size_le]
  show Nat.size n = 2048 ↔ _
  omega

/-- The number of the modulus fits its field. -/
theorem Carried.fits {n e : ℕ} (h : Carried n e) : n < 256 ^ modulusSize := by
  rw [show (256 : ℕ) = 2 ^ 8 from rfl, ← pow_mul, show 8 * modulusSize = 2048 from rfl]
  exact h.bits.2

/-- What the struct is made of. -/
def blob (n e : ℕ) : Bytes :=
  toLeBytes modulusWords ++ toLeBytes (negInverseMod2Pow32 (UInt32.ofNat n)) ++ ofNat modulusSize n ++
    ofNat modulusSize (2 ^ (modulusSize * 16) % n) ++ ofNat 4 e

theorem toNat_ofNat_mod_two (n : ℕ) : (UInt32.ofNat n).toNat % 2 = n % 2 := by
  rw [UInt32.toNat_ofNat']
  omega

/-- The test for an even word. -/
theorem mod_two_eq_zero (w : UInt32) : w % 2 = 0 ↔ w.toNat % 2 = 0 := by
  rw [← UInt32.toNat_inj, UInt32.toNat_mod]
  rfl

/-- **`mincrypt_struct` succeeds exactly for what the format can carry.** -/
theorem mincryptStruct_eq (n e : ℕ) :
    (Carried n e → mincryptStruct n e = .ok (blob n e)) ∧ (¬ Carried n e → ∃ err, mincryptStruct n e = .error err) := by
  unfold mincryptStruct
  dsimp only
  by_cases hbits : Nat.size n = modulusSize * 8
  swap
  · rw [if_pos hbits]
    exact ⟨fun h => absurd ((size_eq_2048 n).mpr h.bits) hbits, fun _ => ⟨_, rfl⟩⟩
  rw [if_neg (not_not.mpr hbits)]
  have hrange := (size_eq_2048 n).mp hbits
  have hbound : n < 2 ^ (8 * modulusSize) := by
    rw [show 8 * modulusSize = 2048 from rfl]
    exact hrange.2
  have hnLe : resize (toBytesLe n) modulusSize = ofNat modulusSize n := resize_toBytesLe (by decide) hbound
  have hn0 : u32At (ofNat modulusSize n) 0 = UInt32.ofNat n := u32At_ofNat 252 n
  rw [hnLe, hn0]
  by_cases hodd : n % 2 = 1
  swap
  · rw [if_pos ((mod_two_eq_zero _).mpr (by rw [toNat_ofNat_mod_two]; omega))]
    exact ⟨fun h => absurd h.odd hodd, fun _ => ⟨_, rfl⟩⟩
  rw [if_neg fun h => by rw [mod_two_eq_zero, toNat_ofNat_mod_two] at h; omega]
  have hrrLe : resize (toBytesLe (2 ^ (modulusSize * 16) % n)) modulusSize =
      ofNat modulusSize (2 ^ (modulusSize * 16) % n) :=
    resize_toBytesLe (by decide) ((Nat.mod_lt _ (by omega)).trans hbound)
  rw [hrrLe]
  by_cases hlong : 4 < (toBytesLe e).length
  · rw [if_pos hlong]
    refine ⟨fun h => ?_, fun _ => ⟨_, rfl⟩⟩
    have := (@length_toBytesLe_le _ 4 (by decide)).mpr h.exponent.2
    omega
  rw [if_neg hlong]
  have he32 : e < 2 ^ 32 := (@length_toBytesLe_le _ 4 (by decide)).mp (not_lt.mp hlong)
  have heLe : resize (toBytesLe e) 4 = ofNat 4 e := resize_toBytesLe (by decide) he32
  have hword : u32At (ofNat 4 e) 0 = UInt32.ofNat e := u32At_ofNat 0 e
  have hnat : (UInt32.ofNat e).toNat = e := by rw [UInt32.toNat_ofNat', Nat.mod_eq_of_lt he32]
  have hrefused : UInt32.ofNat e < 3 ∨ UInt32.ofNat e % 2 = 0 ↔ e < 3 ∨ e % 2 = 0 := by
    rw [mod_two_eq_zero, UInt32.lt_iff_toNat_lt, hnat]
    rfl
  rw [heLe, hword]
  by_cases hexp : e < 3 ∨ e % 2 = 0
  · rw [if_pos (hrefused.mpr hexp)]
    refine ⟨fun h => ?_, fun _ => ⟨_, rfl⟩⟩
    have := h.exponent
    have := h.exponent_odd
    omega
  · rw [if_neg (mt hrefused.mp hexp)]
    exact ⟨fun _ => rfl, fun h => absurd ⟨hrange, hodd, ⟨by omega, he32⟩, by omega⟩ h⟩

theorem length_blob (n e : ℕ) : (blob n e).length = encodedSize := by
  simp only [blob, List.length_append, length_toLeBytes, length_ofNat]
  rfl

/-- A field between two others. -/
theorem slice_append_middle {α : Type*} (front field back : List α) {a b : ℕ} (ha : front.length = a)
    (hb : a + field.length = b) : slice (front ++ field ++ back) a b = field := by
  rw [slice, ← hb, ← ha, ← List.length_append, List.take_left, List.drop_left]

/-- The fields, read back. -/
theorem blob_fields (n e : ℕ) :
    u32At (blob n e) 0 = modulusWords ∧ u32At (blob n e) 4 = negInverseMod2Pow32 (UInt32.ofNat n) ∧
      slice (blob n e) 8 (8 + modulusSize) = ofNat modulusSize n ∧
      slice (blob n e) (8 + modulusSize) (8 + 2 * modulusSize) = ofNat modulusSize (2 ^ (modulusSize * 16) % n) ∧
      u32At (blob n e) (8 + 2 * modulusSize) = UInt32.ofNat e := by
  unfold blob
  set words := toLeBytes modulusWords with hwords
  set inverse := toLeBytes (negInverseMod2Pow32 (UInt32.ofNat n)) with hinverse
  set nLe := ofNat modulusSize n with hnLe
  set rrLe := ofNat modulusSize (2 ^ (modulusSize * 16) % n) with hrrLe
  have hlen : (words ++ inverse).length = 8 := rfl
  have hnlen : nLe.length = modulusSize := length_ofNat _ _
  have hrrlen : rrLe.length = modulusSize := length_ofNat _ _
  refine ⟨?_, ?_, ?_, ?_, ?_⟩
  · rw [List.append_assoc, List.append_assoc, List.append_assoc]
    exact ofLeBytes_toLeBytes _ _
  · have := u32At_append_right words (inverse ++ (nLe ++ (rrLe ++ ofNat 4 e))) 0
    rw [hinverse, ofLeBytes_toLeBytes, ← hinverse] at this
    simp only [List.append_assoc]
    exact this
  · rw [List.append_assoc (words ++ inverse ++ nLe)]
    exact slice_append_middle _ _ _ hlen (by rw [hnlen])
  · refine slice_append_middle _ _ _ ?_ (by rw [hrrlen]; rfl)
    rw [List.length_append, hlen, hnlen]
  · have := u32At_append_right (words ++ inverse ++ nLe ++ rrLe) (ofNat 4 e) 0
    rw [u32At_ofNat 0 e] at this
    rwa [List.length_append, List.length_append, hlen, hnlen, hrrlen] at this

/-- The constant, against the whole modulus. -/
theorem n0inv_mul {n : ℕ} (hodd : n % 2 = 1) :
    ((negInverseMod2Pow32 (UInt32.ofNat n)).toNat * n + 1) % 2 ^ 32 = 0 := by
  have hspec := @negInverse_spec (UInt32.ofNat n) (by rw [toNat_ofNat_mod_two]; exact hodd)
  have hnat := congrArg UInt32.toNat hspec
  rw [UInt32.toNat_add, UInt32.toNat_mul, UInt32.toNat_ofNat'] at hnat
  have hone : UInt32.toNat 1 = 1 := rfl
  rw [hone, Nat.mod_add_mod, Nat.add_mod, Nat.mul_mod, Nat.mod_mod, ← Nat.mul_mod, ← Nat.add_mod, mul_comm] at hnat
  exact hnat

/-! ## The length of the line -/

/-- The accepted names: no NUL and no line end, and short enough for one packet. -/
theorem keyName_new_eq_ok (given : Bytes) :
    (∃ name, KeyName.new given = .ok name ∧ name.name = given) ↔
      (∀ b ∈ given, b ≠ 0 ∧ b ≠ 13 ∧ b ≠ 10) ∧ given.length ≤ maxPayloadConst - prefixLen - 1 := by
  constructor
  · rintro ⟨name, -, rfl⟩
    exact ⟨name.clean, name.short⟩
  · rintro ⟨hclean, hshort⟩
    refine ⟨⟨given, hclean, hshort⟩, ?_, rfl⟩
    rw [KeyName.new, dif_neg (by simpa only [not_exists, not_and, not_or] using hclean), dif_neg (not_lt.mpr hshort)]

theorem keyName_new_name {given : Bytes} {name : KeyName} (h : KeyName.new given = .ok name) : name.name = given := by
  unfold KeyName.new at h
  split_ifs at h
  obtain rfl : _ = name := by injection h
  rfl

/-- The line of a key: the struct in base 64, and the name behind a space. -/
def keyLine (base64 : Base64) (out name : Bytes) : Bytes :=
  base64.encodeString out ++ if name = [] then [] else 32 :: name

theorem publicKeyWire_eq (base64 : Base64) (n e : ℕ) (name : KeyName) :
    publicKeyWire base64 n e name = (mincryptStruct n e).map fun out => keyLine base64 out name.name ++ [0] := by
  unfold publicKeyWire encodePublicKey keyLine
  cases mincryptStruct n e with
  | error err => rfl
  | ok out =>
    simp only [bind, Except.bind, pure, Except.pure, Except.map]
    split_ifs
    · rw [List.append_nil]
    · rw [List.append_assoc (base64.encodeString out), List.singleton_append]

/-- The payload is one packet, and its only NUL is the last byte. -/
theorem keyLine_fits (base64 : Base64) {out : Bytes} (hlen : out.length = encodedSize) (name : KeyName) :
    (keyLine base64 out name.name ++ [0]).length ≤ maxPayloadConst ∧ 0 ∉ keyLine base64 out name.name := by
  have hsymbols : (base64.encodeString out).length = 700 := by
    rw [base64.length_encodeString, hlen]
    rfl
  have hshort : name.name.length ≤ 1048576 - 701 - 1 := name.short
  unfold keyLine
  split_ifs with hname
  · rw [List.append_nil]
    refine ⟨?_, base64.clean out⟩
    rw [List.length_append, hsymbols]
    decide
  · refine ⟨?_, ?_⟩
    · simp only [List.length_append, List.length_cons, hsymbols, List.length_nil]
      show _ ≤ 1048576
      omega
    · intro hmem
      rcases List.mem_append.mp hmem with hfront | hback
      · exact base64.clean out hfront
      · rcases List.mem_cons.mp hback with hspace | hback
        · exact absurd hspace (by decide)
        · exact (name.clean 0 hback).1 rfl

theorem mincryptStruct_length {n e : ℕ} {out : Bytes} (h : mincryptStruct n e = .ok out) : out.length = encodedSize := by
  by_cases hc : Carried n e
  · rw [(mincryptStruct_eq n e).1 hc] at h
    obtain rfl : blob n e = out := by injection h
    exact length_blob n e
  · obtain ⟨err, herr⟩ := (mincryptStruct_eq n e).2 hc
    rw [herr] at h
    cases h

/-- **The public key blob is a valid mincrypt key**, for exactly the keys the format can carry, and the AUTH payload made
of it and an accepted name is one NUL-terminated packet. -/
theorem public_key_is_mincrypt (base64 : Base64) :
    (∀ n e, Carried n e → ∃ out, mincryptStruct n e = .ok out ∧ out.length = encodedSize ∧
      u32At out 0 = modulusWords ∧
      ((u32At out 4).toNat * n + 1) % 2 ^ 32 = 0 ∧
      value (slice out 8 (8 + modulusSize)) = n ∧
      value (slice out (8 + modulusSize) (8 + 2 * modulusSize)) = 2 ^ 4096 % n ∧
      (u32At out (8 + 2 * modulusSize)).toNat = e) ∧
    (∀ n e, ¬ Carried n e → ∃ err, mincryptStruct n e = .error err) ∧
    (∀ given, (∃ name, KeyName.new given = .ok name) ↔
      (∀ b ∈ given, b ≠ 0 ∧ b ≠ 13 ∧ b ≠ 10) ∧ given.length ≤ maxPayloadConst - prefixLen - 1) ∧
    ∀ (given : Bytes) (name : KeyName), KeyName.new given = .ok name → ∀ n e,
      (∀ err, mincryptStruct n e = .error err → publicKeyWire base64 n e name = .error err) ∧
      ∀ out, mincryptStruct n e = .ok out → ∃ line, publicKeyWire base64 n e name = .ok (line ++ [0]) ∧
        line = base64.encodeString out ++ (if given = [] then [] else 32 :: given) ∧
        (line ++ [0]).length ≤ maxPayloadConst ∧ 0 ∉ line := by
  refine ⟨fun n e hc => ?_, fun n e => (mincryptStruct_eq n e).2, fun given => ?_, ?_⟩
  · obtain ⟨hwords, hinverse, hn, hrr, he⟩ := blob_fields n e
    refine ⟨blob n e, (mincryptStruct_eq n e).1 hc, length_blob n e, hwords, ?_, ?_, ?_, ?_⟩
    · rw [hinverse]
      exact n0inv_mul hc.odd
    · rw [hn, value_ofNat_of_lt hc.fits]
    · rw [hrr, value_ofNat_of_lt ((Nat.mod_lt _ (by have := hc.odd; omega)).trans hc.fits),
        show modulusSize * 16 = 4096 from rfl]
    · rw [he, UInt32.toNat_ofNat', Nat.mod_eq_of_lt hc.exponent.2]
  · rw [← keyName_new_eq_ok]
    exact ⟨fun ⟨name, hname⟩ => ⟨name, hname, keyName_new_name hname⟩, fun ⟨name, hname, _⟩ => ⟨name, hname⟩⟩
  · intro given name hname n e
    obtain rfl := keyName_new_name hname
    rw [publicKeyWire_eq]
    refine ⟨fun err herr => by rw [herr]; rfl, fun out hout => ?_⟩
    obtain ⟨hfits, hclean⟩ := keyLine_fits base64 (mincryptStruct_length hout) name
    exact ⟨keyLine base64 out name.name, by rw [hout]; rfl, rfl, hfits, hclean⟩

/-- An encoder with the documented lengths: the bytes, with a one for a zero, filled up with `=`. -/
def Base64.filled : Base64 where
  encodeString bytes := bytes.map (fun b => if b = 0 then 1 else b) ++
    List.replicate ((bytes.length + 2) / 3 * 4 - bytes.length) 61
  length_encodeString bytes := by
    rw [List.length_append, List.length_map, List.length_replicate]
    omega
  clean bytes := by
    simp only [List.mem_append, List.mem_map, List.mem_replicate, not_or, not_exists, not_and]
    refine ⟨fun b _ h => ?_, fun _ h => absurd h (by decide)⟩
    split_ifs at h with hb
    · exact absurd h (by decide)
    · exact hb h

/-- The smallest modulus, with the smallest exponent and a name. -/
theorem public_key_is_mincrypt_smallest :
    ∃ out line, mincryptStruct (2 ^ 2047 + 1) 3 = .ok out ∧ value (slice out 8 (8 + modulusSize)) = 2 ^ 2047 + 1 ∧
      publicKeyWire .filled (2 ^ 2047 + 1) 3 ⟨[109, 101], by decide +kernel, by decide +kernel⟩ = .ok (line ++ [0]) ∧ 0 ∉ line := by
  obtain ⟨hstruct, -, -, hwire⟩ := public_key_is_mincrypt .filled
  obtain ⟨out, hout, -, -, -, hn, -⟩ := hstruct (2 ^ 2047 + 1) 3
    ⟨by decide +kernel, by decide +kernel, by decide, by decide⟩
  obtain ⟨line, hline, -, -, hclean⟩ := (hwire [109, 101] ⟨[109, 101], by decide +kernel, by decide +kernel⟩ rfl _ _).2 out hout
  exact ⟨out, line, hout, hn, hline, hclean⟩

end LibAdb.Keys
