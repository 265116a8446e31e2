import LibAdb.Base.Banner
import LibAdb.Lib.Slices

/-!
# LibAdb.Base.Protobuf — walking over a protobuf message

`base/protobuf.rs`.  An index past the end of a slice is a panic in the source, so it is one here (`Outcome`): that
there is none is something to prove (`decodeFields_safe`).

`Varint`, `Tag` and `Payload` are what protobuf says about the bytes of a field, longer spellings of a number included.
Each reader returns what they say and how many bytes it took; `decodeVarint_eq` says what `decode_varint` does on any
bytes.  A message is walked over field by field (`Fields`, `decodeFields_fields`).
-/

namespace LibAdb.Protobuf

open Slices

/-- How a decoder ends. -/
inductive Outcome (α : Type) where
  | ok (a : α)
  | fail (e : DecodeError)
  | panic
  deriving DecidableEq, Repr

namespace Outcome

variable {α β : Type}

instance : Monad Outcome where
  pure := .ok
  bind m f := match m with
    | .ok a => f a
    | .fail e => .fail e
    | .panic => .panic

@[simp] theorem ok_bind (a : α) (f : α → Outcome β) : (Outcome.ok a >>= f) = f a := rfl

/-- There was no panic. -/
def Safe : Outcome α → Prop
  | .panic => False
  | _ => True

/-- The result of a decoder that does not panic. -/
def get : (o : Outcome α) → o.Safe → Except DecodeError α
  | .ok a, _ => .ok a
  | .fail e, _ => .error e

/-- There was no panic, and no more than `limit` bytes were taken. -/
def Takes (limit : ℕ) : Outcome (α × ℕ) → Prop
  | .ok p => p.2 ≤ limit
  | .fail _ => True
  | .panic => False

/-- `Option::ok_or` -/
def ofOption (e : DecodeError) : Option α → Outcome α
  | some a => .ok a
  | none => .fail e

end Outcome

/-- `&buf[pos..]` -/
def suffix (buf : Bytes) (pos : ℕ) : Outcome Bytes := if pos ≤ buf.length then .ok (buf.drop pos) else .panic

/-- `&buf[start..stop]` -/
def between (buf : Bytes) (start stop : ℕ) : Outcome Bytes :=
  if start ≤ stop ∧ stop ≤ buf.length then .ok (slice buf start stop) else .panic

/-! ## The readers -/

/-- The loop of `decode_varint`. -/
def varintLoop : Bytes → ℕ → UInt64 → ℕ → Option (UInt64 × ℕ)
  | [], _, _, _ => none
  | b :: rest, i, value, shift =>
    if 64 ≤ shift then none
    else
      let value := value ||| (b &&& 0x7F).toUInt64 <<< UInt64.ofNat shift
      if b &&& 0x80 = 0 then some (value, i + 1) else varintLoop rest (i + 1) value (shift + 7)

/-- `decode_varint` -/
def decodeVarint (buf : Bytes) : Option (UInt64 × ℕ) := varintLoop buf 0 0 0

section Readers

variable [Usize]

/-- The end of a length-delimited field behind a length of `c` bytes: `usize::try_from` and `checked_add`. -/
def delimitedEnd (len : UInt64) (c : ℕ) : Option ℕ :=
  if usizeMax < len.toNat then none else if usizeMax < c + len.toNat then none else some (c + len.toNat)

/-- `skip_field` -/
def skipField (buf : Bytes) (wireType : UInt64) : Option ℕ :=
  if wireType = 0 then (decodeVarint buf).map Prod.snd
  else if wireType = 1 then if 8 ≤ buf.length then some 8 else none
  else if wireType = 2 then do
    let (len, c) ← decodeVarint buf
    let total ← delimitedEnd len c
    if total ≤ buf.length then some total else none
  else if wireType = 5 then if 4 ≤ buf.length then some 4 else none
  else none

/-- `read_bytes` -/
def readBytes (buf : Bytes) : Outcome (Bytes × ℕ) := do
  let (len, c) ← Outcome.ofOption .invalidProtobuf (decodeVarint buf)
  let stop ← Outcome.ofOption .invalidProtobuf (delimitedEnd len c)
  if buf.length < stop then .fail .invalidProtobuf
  else do
    let bytes ← between buf c stop
    pure (bytes, stop)

/-- `read_string` and `read_str` -/
def readString (buf : Bytes) : Outcome (Bytes × ℕ) := do
  let (bytes, consumed) ← readBytes buf
  if validUtf8 bytes then pure (bytes, consumed) else .fail .invalidUtf8

end Readers

/-- `read_varint` -/
def readVarint (buf : Bytes) : Outcome (UInt64 × ℕ) := Outcome.ofOption .invalidProtobuf (decodeVarint buf)

/-- `read_tag` -/
def readTag (buf : Bytes) : Outcome (UInt64 × UInt64 × ℕ) := do
  let (tag, consumed) ← Outcome.ofOption .invalidProtobuf (decodeVarint buf)
  pure (tag >>> 3, tag &&& 0x07, consumed)

section Walking

variable {σ : Type}

/-- The loop over the fields of a message that `decode_repeated_field1` and `decode_process_entry` share: `handle` gets
the field, its wire type and the bytes behind the tag, and says how many of them it took.  Every round takes a byte. -/
def fieldLoop (handle : UInt64 → UInt64 → Bytes → σ → Outcome (σ × ℕ)) (buf : Bytes) : ℕ → ℕ → σ → Outcome σ
  | 0, pos, st => if pos < buf.length then .panic else .ok st
  | fuel + 1, pos, st =>
    if pos < buf.length then do
      let field ← suffix buf pos
      let (field, wire, c) ← readTag field
      let pos := pos + c
      let rest ← suffix buf pos
      let (st, c) ← handle field wire rest st
      fieldLoop handle buf fuel (pos + c) st
    else .ok st

def decodeFields (handle : UInt64 → UInt64 → Bytes → σ → Outcome (σ × ℕ)) (buf : Bytes) (st : σ) : Outcome σ :=
  fieldLoop handle buf buf.length 0 st

/-- A field that is not read. -/
def skipHandle [Usize] (wire : UInt64) (rest : Bytes) (st : σ) : Outcome (σ × ℕ) := do
  let skipped ← Outcome.ofOption .invalidProtobuf (skipField rest wire)
  pure (st, skipped)

/-- `decode_repeated_field1` -/
def decodeRepeatedField1 [Usize] (buf : Bytes) (decodeEntry : Bytes → Outcome σ) : Outcome (List σ) :=
  decodeFields (fun field wire rest entries =>
    if field = 1 ∧ wire = 2 then do
      let (data, c) ← readBytes rest
      let entry ← decodeEntry data
      pure (entries ++ [entry], c)
    else skipHandle wire rest entries) buf []

end Walking

/-! ## Numbers -/

/-- Seven bits a byte, the lowest first. -/
def base128 : Bytes → ℕ
  | [] => 0
  | b :: bs => b.toNat % 128 + 128 * base128 bs

/-- A byte with the top bit clear ends a number. -/
def isLast (b : Byte) : Bool := b.toNat < 128

theorem and_0x80 (b : Byte) : b &&& 0x80 = 0 ↔ isLast b = true := by
  have hall : ∀ n < 256, UInt8.ofNat n &&& 0x80 = 0 ↔ isLast (UInt8.ofNat n) = true := by decide +kernel
  have := hall b.toNat b.toNat_lt
  rwa [UInt8.ofNat_toNat] at this

theorem toNat_and_0x7F (b : Byte) : (b &&& 0x7F).toNat = b.toNat % 128 := by
  rw [UInt8.toNat_and]
  exact Nat.and_two_pow_sub_one_eq_mod b.toNat 7

/-- Seven more bits, those past the top falling off. -/
theorem or_shift (acc : ℕ) (b : Byte) {i : ℕ} (hi : i < 10) (hacc : acc < 2 ^ (7 * i)) :
    UInt64.ofNat acc ||| (b &&& 0x7F).toUInt64 <<< UInt64.ofNat (7 * i) =
      UInt64.ofNat (acc + 2 ^ (7 * i) * (b.toNat % 128)) := by
  have hshift : (UInt64.ofNat (7 * i)).toNat % 64 = 7 * i := by
    rw [UInt64.toNat_ofNat']
    omega
  have hsmall : acc < 2 ^ 64 := hacc.trans_le (Nat.pow_le_pow_right (by decide) (by omega))
  have hpow : 2 ^ 64 = 2 ^ (7 * i) * 2 ^ (64 - 7 * i) := by
    rw [← pow_add]
    congr 1
    omega
  apply UInt64.toNat.inj
  rw [UInt64.toNat_or, UInt64.toNat_shiftLeft, hshift, UInt8.toNat_toUInt64, toNat_and_0x7F, Nat.shiftLeft_eq,
    UInt64.toNat_ofNat', UInt64.toNat_ofNat', Nat.mod_eq_of_lt hsmall, mul_comm (b.toNat % 128), hpow,
    Nat.mul_mod_mul_left, Nat.or_comm, ← Nat.two_pow_add_eq_or_of_lt hacc, Nat.add_comm acc]
  -- the carry-less sum stays below the top
  have hlt : 2 ^ (7 * i) * (b.toNat % 128 % 2 ^ (64 - 7 * i)) + acc < 2 ^ (7 * i) * 2 ^ (64 - 7 * i) := by
    have hbits := Nat.mod_lt (b.toNat % 128) (Nat.two_pow_pos (64 - 7 * i))
    calc 2 ^ (7 * i) * (b.toNat % 128 % 2 ^ (64 - 7 * i)) + acc
        < 2 ^ (7 * i) * (b.toNat % 128 % 2 ^ (64 - 7 * i)) + 2 ^ (7 * i) := by omega
      _ = 2 ^ (7 * i) * (b.toNat % 128 % 2 ^ (64 - 7 * i) + 1) := by ring
      _ ≤ 2 ^ (7 * i) * 2 ^ (64 - 7 * i) := Nat.mul_le_mul_left _ hbits
  rw [← Nat.mod_eq_of_lt hlt, Nat.add_mod, Nat.mul_mod_mul_left, Nat.mod_mod, ← Nat.mul_mod_mul_left, ← Nat.add_mod]

/-- What the loop makes of the bytes it has still to look at. -/
theorem varintLoop_eq (rest : Bytes) {i acc : ℕ} (hi : i ≤ 10) (hacc : acc < 2 ^ (7 * i)) :
    varintLoop rest i (UInt64.ofNat acc) (7 * i) =
      ((rest.take (10 - i)).findIdx? isLast).map fun j =>
        (UInt64.ofNat (acc + 2 ^ (7 * i) * base128 (rest.take (j + 1))), i + j + 1) := by
  induction rest generalizing i acc with
  | nil => simp [varintLoop]
  | cons b rest ih =>
    unfold varintLoop
    by_cases hten : i = 10
    · subst hten
      simp
    · have hlt : i < 10 := by omega
      obtain ⟨k, hk⟩ : ∃ k, 10 - i = k + 1 := ⟨9 - i, by omega⟩
      have hk' : 10 - (i + 1) = k := by omega
      rw [if_neg (by omega), hk, List.take_succ_cons, List.findIdx?_cons]
      dsimp only
      rw [or_shift acc b hlt hacc]
      by_cases hlast : isLast b = true
      · rw [if_pos ((and_0x80 b).mpr hlast), if_pos hlast]
        simp [base128]
      · rw [if_neg (mt (and_0x80 b).mp hlast), if_neg hlast]
        have hacc' : acc + 2 ^ (7 * i) * (b.toNat % 128) < 2 ^ (7 * (i + 1)) := by
          have hpow : 2 ^ (7 * (i + 1)) = 2 ^ (7 * i) * 128 := by rw [mul_add, pow_add]; rfl
          have hmod := Nat.mod_lt b.toNat (show 128 > 0 by decide)
          rw [hpow]
          nlinarith
        have hnext := ih (i := i + 1) (by omega) hacc'
        rw [hk', mul_add, mul_one] at hnext
        rw [hnext]
        cases hfind : (rest.take k).findIdx? isLast with
        | none => simp
        | some j =>
          simp only [Option.map_some, List.take_succ_cons, base128, Option.some.injEq, Prod.mk.injEq]
          refine ⟨?_, by omega⟩
          congr 1
          rw [pow_add]
          ring

/-- **`decode_varint`** on any bytes: the number the first ten end in, or none. -/
theorem decodeVarint_eq (buf : Bytes) :
    decodeVarint buf =
      ((buf.take 10).findIdx? isLast).map fun i => (UInt64.ofNat (base128 (buf.take (i + 1))), i + 1) := by
  have h := @varintLoop_eq buf 0 0 (by decide) (by decide)
  simp only [Nat.mul_zero, pow_zero, one_mul, Nat.zero_add, Nat.sub_zero] at h
  exact h

/-- A spelling of a number: up to ten bytes, and only the last has its top bit clear.  The same number has longer ones,
and bits past the sixty-fourth do not count. -/
structure Varint (bytes : Bytes) (v : UInt64) : Prop where
  value : v = UInt64.ofNat (base128 bytes)
  short : bytes.length ≤ 10
  ends : ∃ front last, bytes = front ++ [last] ∧ (∀ b ∈ front, isLast b = false) ∧ isLast last = true

theorem Varint.pos {bytes : Bytes} {v : UInt64} (h : Varint bytes v) : 1 ≤ bytes.length := by
  obtain ⟨front, last, rfl, -, -⟩ := h.ends
  rw [List.length_append]
  exact Nat.le_add_left _ _

/-- A spelling is read as its number. -/
theorem decodeVarint_append {bytes : Bytes} {v : UInt64} (h : Varint bytes v) (rest : Bytes) :
    decodeVarint (bytes ++ rest) = some (v, bytes.length) := by
  have hshort := h.short
  have hvalue := h.value
  obtain ⟨front, last, rfl, hfront, hlast⟩ := h.ends
  rw [List.length_append, List.length_singleton] at hshort ⊢
  have hfind : ((front ++ [last] ++ rest).take 10).findIdx? isLast = some front.length := by
    obtain ⟨k, hk⟩ : ∃ k, 10 = front.length + (k + 1) := ⟨9 - front.length, by omega⟩
    rw [hk, List.append_assoc, List.take_length_add_append, List.singleton_append, List.take_succ_cons,
      List.findIdx?_append, List.findIdx?_eq_none_iff.mpr hfront, List.findIdx?_cons, if_pos hlast]
    simp
  have htake : (front ++ [last] ++ rest).take (front.length + 1) = front ++ [last] := by
    rw [← List.length_singleton (a := last), ← List.length_append, List.take_left]
  rw [decodeVarint_eq, hfind, Option.map_some, htake, ← hvalue]

/-- A number takes at least a byte, and no more than there are. -/
theorem decodeVarint_consumed {buf : Bytes} {v : UInt64} {c : ℕ} (h : decodeVarint buf = some (v, c)) :
    1 ≤ c ∧ c ≤ buf.length := by
  rw [decodeVarint_eq, Option.map_eq_some_iff] at h
  obtain ⟨i, hi, heq⟩ := h
  obtain ⟨hlt, -, -⟩ := List.findIdx?_eq_some_iff_getElem.mp hi
  rw [List.length_take] at hlt
  have hc : i + 1 = c := (Prod.mk.inj heq).2
  omega

/-! ## Fields -/

/-- The tag of a field. -/
structure Tag (bytes : Bytes) (field wire : UInt64) : Prop where
  tag : ∃ v, Varint bytes v ∧ v >>> 3 = field ∧ v &&& 0x07 = wire

theorem Tag.pos {bytes : Bytes} {field wire : UInt64} (h : Tag bytes field wire) : 1 ≤ bytes.length := by
  obtain ⟨v, hv, -⟩ := h.tag
  exact hv.pos

theorem readTag_append {bytes : Bytes} {field wire : UInt64} (h : Tag bytes field wire) (rest : Bytes) :
    readTag (bytes ++ rest) = .ok (field, wire, bytes.length) := by
  obtain ⟨v, hv, rfl, rfl⟩ := h.tag
  rw [readTag, decodeVarint_append hv]
  rfl

/-- What stands behind the tag of a field: a number, eight bytes, a length and as many bytes, or four bytes. -/
inductive Payload : UInt64 → Bytes → Prop
  | varint {bytes : Bytes} {v : UInt64} (h : Varint bytes v) : Payload 0 bytes
  | fixed64 {bytes : Bytes} (h : bytes.length = 8) : Payload 1 bytes
  | delimited {lenBytes data : Bytes} {len : UInt64} (h : Varint lenBytes len) (hlen : len.toNat = data.length) :
      Payload 2 (lenBytes ++ data)
  | fixed32 {bytes : Bytes} (h : bytes.length = 4) : Payload 5 bytes

section Readers

variable [Usize]

/-- Lengths of what is in memory are `usize`. -/
theorem delimitedEnd_eq {lenBytes data rest : Bytes} {len : UInt64} (hlen : len.toNat = data.length)
    (hsize : (lenBytes ++ data ++ rest).length ≤ usizeMax) :
    delimitedEnd len lenBytes.length = some (lenBytes.length + data.length) := by
  rw [List.length_append, List.length_append] at hsize
  rw [delimitedEnd, hlen, if_neg (by omega), if_neg (by omega)]

theorem readBytes_append {lenBytes data : Bytes} {len : UInt64} (h : Varint lenBytes len)
    (hlen : len.toNat = data.length) (rest : Bytes) (hsize : (lenBytes ++ data ++ rest).length ≤ usizeMax) :
    readBytes (lenBytes ++ data ++ rest) = .ok (data, lenBytes.length + data.length) := by
  have hstop := delimitedEnd_eq hlen hsize
  have hvarint : decodeVarint (lenBytes ++ data ++ rest) = some (len, lenBytes.length) := by
    rw [List.append_assoc]
    exact decodeVarint_append h _
  have hslice : slice (lenBytes ++ data ++ rest) lenBytes.length (lenBytes.length + data.length) = data := by
    rw [slice, ← List.length_append, List.take_left, List.drop_left]
  have hlong : lenBytes.length + data.length ≤ (lenBytes ++ data ++ rest).length := by
    rw [List.length_append, List.length_append]
    omega
  simp only [readBytes, hvarint, Outcome.ofOption, Outcome.ok_bind, hstop]
  rw [if_neg (by omega), between, if_pos ⟨by omega, hlong⟩, hslice]
  rfl

theorem readString_append {lenBytes data : Bytes} {len : UInt64} (h : Varint lenBytes len)
    (hlen : len.toNat = data.length) (hutf8 : validUtf8 data = true) (rest : Bytes)
    (hsize : (lenBytes ++ data ++ rest).length ≤ usizeMax) :
    readString (lenBytes ++ data ++ rest) = .ok (data, lenBytes.length + data.length) := by
  rw [readString, readBytes_append h hlen rest hsize, Outcome.ok_bind]
  exact if_pos hutf8

theorem skipField_append {wire : UInt64} {bytes : Bytes} (h : Payload wire bytes) (rest : Bytes)
    (hsize : (bytes ++ rest).length ≤ usizeMax) : skipField (bytes ++ rest) wire = some bytes.length := by
  cases h with
  | varint h => rw [skipField, if_pos rfl, decodeVarint_append h]; rfl
  | fixed64 h =>
    rw [skipField, if_neg (by decide), if_pos rfl, if_pos (by rw [List.length_append]; omega), h]
  | delimited h hlen =>
    rename_i lenBytes data len
    have hvarint : decodeVarint (lenBytes ++ data ++ rest) = some (len, lenBytes.length) := by
      rw [List.append_assoc]
      exact decodeVarint_append h _
    rw [skipField, if_neg (by decide), if_neg (by decide), if_pos rfl, hvarint]
    simp only [Option.bind_eq_bind, Option.bind_some, delimitedEnd_eq hlen hsize]
    rw [if_pos (by rw [List.length_append, List.length_append]; omega), List.length_append]
  | fixed32 h =>
    rw [skipField, if_neg (by decide), if_neg (by decide), if_neg (by decide), if_pos rfl,
      if_pos (by rw [List.length_append]; omega), h]

/-! ## No reader leaves the buffer -/

theorem skipField_le {buf : Bytes} {wire : UInt64} {c : ℕ} (h : skipField buf wire = some c) : c ≤ buf.length := by
  unfold skipField at h
  split_ifs at h with h0 h1 h8 h2 h5 h4
  · obtain ⟨⟨v, c'⟩, hv, rfl⟩ := Option.map_eq_some_iff.mp h
    exact (decodeVarint_consumed hv).2
  · obtain rfl : 8 = c := Option.some.inj h
    exact h8
  · simp only [Option.bind_eq_bind, Option.bind_eq_some_iff] at h
    obtain ⟨-, -, total, -, h⟩ := h
    split_ifs at h with hle
    obtain rfl : total = c := Option.some.inj h
    exact hle
  · obtain rfl : 4 = c := Option.some.inj h
    exact h4

/-- A reader that cannot panic, and takes no more than there is. -/
def Inside {α : Type} (read : Bytes → Outcome (α × ℕ)) : Prop := ∀ buf, (read buf).Takes buf.length

omit [Usize] in
theorem inside_readVarint : Inside readVarint := by
  intro buf
  unfold readVarint
  cases h : decodeVarint buf with
  | none => trivial
  | some p => exact (decodeVarint_consumed h).2

theorem inside_readBytes : Inside readBytes := by
  intro buf
  unfold readBytes
  cases h : decodeVarint buf with
  | none => trivial
  | some p =>
    obtain ⟨len, c⟩ := p
    simp only [Outcome.ofOption, Outcome.ok_bind]
    cases hstop : delimitedEnd len c with
    | none => trivial
    | some stop =>
      have hc : c ≤ stop := by
        unfold delimitedEnd at hstop
        split_ifs at hstop
        have := Option.some.inj hstop
        omega
      simp only [Outcome.ok_bind]
      split_ifs with hlong
      · trivial
      · rw [between, if_pos ⟨hc, not_lt.mp hlong⟩]
        exact not_lt.mp hlong

theorem inside_readString : Inside readString := by
  intro buf
  have hle := inside_readBytes buf
  unfold readString
  cases h : readBytes buf with
  | panic => rw [h] at hle; exact hle
  | fail e => trivial
  | ok p =>
    rw [h] at hle
    rw [Outcome.ok_bind]
    dsimp only
    split_ifs
    · exact hle
    · trivial

omit [Usize] in
/-- What is done with the value of a field does not matter. -/
theorem Inside.then {α β γ : Type} {read : Bytes → Outcome (α × ℕ)} (h : Inside read) {f : α → Outcome β} {g : β → γ}
    (hf : ∀ a, (f a).Safe) : Inside fun buf => read buf >>= fun p => f p.1 >>= fun b => .ok (g b, p.2) := by
  intro buf
  have hle := h buf
  dsimp only
  cases hread : read buf with
  | panic => rw [hread] at hle; exact hle
  | fail e => trivial
  | ok p =>
    rw [hread] at hle
    rw [Outcome.ok_bind]
    have hsafe := hf p.1
    cases hfa : f p.1 with
    | panic => rw [hfa] at hsafe; exact hsafe
    | fail e => trivial
    | ok b => exact hle

omit [Usize] in
theorem Inside.ite {α : Type} {f g : Bytes → Outcome (α × ℕ)} {p : Prop} [Decidable p] (hf : Inside f) (hg : Inside g) :
    Inside fun buf => if p then f buf else g buf := by
  intro buf
  by_cases hp : p
  · simpa only [if_pos hp] using hf buf
  · simpa only [if_neg hp] using hg buf

theorem inside_skipHandle {σ : Type} (wire : UInt64) (st : σ) : Inside fun rest => skipHandle wire rest st := by
  intro buf
  dsimp only
  unfold skipHandle
  cases h : skipField buf wire with
  | none => trivial
  | some skipped => exact skipField_le h

end Readers

/-! ## Whole messages -/

section Walking

variable {σ : Type} {handle : UInt64 → UInt64 → Bytes → σ → Outcome (σ × ℕ)} {buf : Bytes}

theorem inside_readTag {buf : Bytes} {field wire : UInt64} {c : ℕ} (h : readTag buf = .ok (field, wire, c)) :
    1 ≤ c ∧ c ≤ buf.length := by
  unfold readTag at h
  cases hv : decodeVarint buf with
  | none => rw [hv] at h; cases h
  | some p =>
    rw [hv] at h
    cases h
    exact decodeVarint_consumed hv

theorem readTag_safe (buf : Bytes) : (readTag buf).Safe := by
  unfold readTag
  cases decodeVarint buf with
  | none => trivial
  | some p => trivial

/-- **Decoding ends, inside the message**, for any bytes. -/
theorem decodeFields_safe (h : ∀ field wire st, Inside fun rest => handle field wire rest st) (st : σ) :
    (decodeFields handle buf st).Safe := by
  have hloop : ∀ fuel pos st, pos ≤ buf.length → buf.length - pos ≤ fuel → (fieldLoop handle buf fuel pos st).Safe := by
    intro fuel
    induction fuel with
    | zero =>
      intro pos st _ hfuel
      rw [fieldLoop, if_neg (by omega)]
      trivial
    | succ fuel ih =>
      intro pos st hpos hfuel
      unfold fieldLoop
      split_ifs with hmore
      · have hsafe := readTag_safe (buf.drop pos)
        rw [suffix, if_pos hpos, Outcome.ok_bind]
        cases hread : readTag (buf.drop pos) with
        | panic => rw [hread] at hsafe; exact hsafe
        | fail e => trivial
        | ok p =>
          obtain ⟨field, wire, c⟩ := p
          obtain ⟨hone, hle⟩ := inside_readTag hread
          rw [List.length_drop] at hle
          rw [Outcome.ok_bind]
          dsimp only
          rw [suffix, if_pos (by omega), Outcome.ok_bind]
          have htakes := h field wire st (buf.drop (pos + c))
          dsimp only at htakes
          cases hhandle : handle field wire (buf.drop (pos + c)) st with
          | panic => rw [hhandle] at htakes; exact htakes
          | fail e => trivial
          | ok q =>
            rw [hhandle] at htakes
            have htook : q.2 ≤ (buf.drop (pos + c)).length := htakes
            rw [List.length_drop] at htook
            exact ih _ _ (by omega) (by omega)
      · trivial
  exact hloop buf.length 0 st (Nat.zero_le _) le_rfl

/-- From `st`, the fields of a message lead to a state: `Field` says what the bytes of one field do. -/
inductive Fields (Field : Bytes → σ → σ → Prop) : σ → Bytes → σ → Prop
  | nil (st : σ) : Fields Field st [] st
  | cons {st st' st'' : σ} {bytes rest : Bytes} (h : Field bytes st st') (hrest : Fields Field st' rest st'') :
      Fields Field st (bytes ++ rest) st''

/-- A field that the handler reads as it is meant. -/
def Handles (handle : UInt64 → UInt64 → Bytes → σ → Outcome (σ × ℕ)) (limit : ℕ) (bytes : Bytes) (st st' : σ) : Prop :=
  ∃ tag body field wire, bytes = tag ++ body ∧ Tag tag field wire ∧
    ∀ rest, (body ++ rest).length ≤ limit → handle field wire (body ++ rest) st = .ok (st', body.length)

/-- **Fields are read in their order.** -/
theorem decodeFields_fields {Field : Bytes → σ → σ → Prop}
    (h : ∀ bytes st st', Field bytes st st' → Handles handle buf.length bytes st st') {st st' : σ}
    (hfields : Fields Field st buf st') : decodeFields handle buf st = .ok st' := by
  have hloop : ∀ {st rest st'}, Fields Field st rest st' → ∀ fuel pos, buf.drop pos = rest → pos ≤ buf.length →
      rest.length ≤ fuel → fieldLoop handle buf fuel pos st = .ok st' := by
    intro st rest st' hrest
    induction hrest with
    | nil st =>
      intro fuel pos hdrop hpos _
      have hend : ¬ pos < buf.length := by
        have := congrArg List.length hdrop
        rw [List.length_drop, List.length_nil] at this
        omega
      cases fuel with
      | zero => rw [fieldLoop, if_neg hend]
      | succ fuel => rw [fieldLoop, if_neg hend]
    | cons hfield hrest ih =>
      rename_i st st1 st2 bytes rest
      intro fuel pos hdrop hpos hfuel
      obtain ⟨tag, body, field, wire, rfl, htag, hhandle⟩ := h _ _ _ hfield
      have htagPos := htag.pos
      have hlen := congrArg List.length hdrop
      rw [List.length_drop, List.length_append, List.length_append] at hlen
      rw [List.length_append, List.length_append] at hfuel
      have hdrop1 : buf.drop (pos + tag.length) = body ++ rest := by
        rw [← List.drop_drop, hdrop, List.append_assoc, List.drop_left]
      have hdrop2 : buf.drop (pos + tag.length + body.length) = rest := by
        rw [← List.drop_drop, hdrop1, List.drop_left]
      cases fuel with
      | zero => omega
      | succ fuel =>
        rw [fieldLoop, if_pos (by omega), suffix, if_pos hpos, Outcome.ok_bind, hdrop, List.append_assoc,
          readTag_append htag, Outcome.ok_bind]
        dsimp only
        rw [suffix, if_pos (by omega), Outcome.ok_bind, hdrop1,
          hhandle rest (by rw [List.length_append]; omega), Outcome.ok_bind]
        exact ih fuel _ hdrop2 (by omega) (by omega)
  exact hloop hfields buf.length 0 List.drop_zero (Nat.zero_le _) le_rfl

end Walking

/-! ## The length in front of a message -/

def hexDigit (b : Byte) : Option UInt32 :=
  if 0x30 ≤ b ∧ b ≤ 0x39 then some (b - 0x30).toUInt32
  else if 0x61 ≤ b ∧ b ≤ 0x66 then some (b - 0x61 + 10).toUInt32
  else if 0x41 ≤ b ∧ b ≤ 0x46 then some (b - 0x41 + 10).toUInt32
  else none

/-- `parse_hex4` -/
def parseHex4 (buf : Bytes) : Option UInt32 :=
  if buf.length < 4 then none
  else (buf.take 4).foldlM (fun value b => (hexDigit b).map fun digit => value * 16 + digit) 0

/-- The value of a hex digit, in either case. -/
def hexValue (b : Byte) : Option ℕ :=
  ((ascii "0123456789abcdef").findIdx? (· = b)).or ((ascii "0123456789ABCDEF").findIdx? (· = b))

/-- The number that digits spell, the highest first. -/
def hexNumber (digits : Bytes) : Option ℕ :=
  digits.foldlM (fun n b => (hexValue b).map fun digit => 16 * n + digit) 0

theorem hexDigit_eq (b : Byte) : hexDigit b = (hexValue b).map UInt32.ofNat ∧ ∀ d ∈ hexValue b, d < 16 := by
  have hlower : ascii "0123456789abcdef" = [48, 49, 50, 51, 52, 53, 54, 55, 56, 57, 97, 98, 99, 100, 101, 102] := rfl
  have hupper : ascii "0123456789ABCDEF" = [48, 49, 50, 51, 52, 53, 54, 55, 56, 57, 65, 66, 67, 68, 69, 70] := rfl
  have hall : ∀ n < 256, hexDigit (UInt8.ofNat n) = (hexValue (UInt8.ofNat n)).map UInt32.ofNat ∧
      ∀ d ∈ hexValue (UInt8.ofNat n), d < 16 := by
    simp only [hexValue, hlower, hupper]
    decide +kernel
  have := hall b.toNat b.toNat_lt
  rwa [UInt8.ofNat_toNat] at this

/-- Four digits are read for the number they spell. -/
theorem parseHex4_eq {digits : Bytes} (h : digits.length = 4) :
    (parseHex4 digits).map UInt32.toNat = hexNumber digits := by
  obtain ⟨a, l, rfl⟩ := List.exists_cons_of_length_eq_add_one h
  obtain ⟨b, l, rfl⟩ := List.exists_cons_of_length_eq_add_one (Nat.succ.inj h)
  obtain ⟨c, l, rfl⟩ := List.exists_cons_of_length_eq_add_one (Nat.succ.inj (Nat.succ.inj h))
  obtain ⟨d, rfl⟩ := List.length_eq_one_iff.mp (Nat.succ.inj (Nat.succ.inj (Nat.succ.inj h)))
  have ha := hexDigit_eq a
  have hb := hexDigit_eq b
  have hc := hexDigit_eq c
  have hd := hexDigit_eq d
  rw [parseHex4, hexNumber, if_neg h.not_lt, List.take_of_length_le h.le]
  simp only [List.foldlM_cons, List.foldlM_nil, ha.1, hb.1, hc.1, hd.1]
  cases hxa : hexValue a with
  | none => rfl
  | some x =>
  cases hxb : hexValue b with
  | none => rfl
  | some y =>
  cases hxc : hexValue c with
  | none => rfl
  | some z =>
  cases hxd : hexValue d with
  | none => rfl
  | some w =>
  have hx := ha.2 x hxa
  have hy := hb.2 y hxb
  have hz := hc.2 z hxc
  have hw := hd.2 w hxd
  refine congrArg some ?_
  simp only [UInt32.toNat_add, UInt32.toNat_mul, UInt32.toNat_ofNat']
  show _ = 16 * (16 * (16 * (16 * 0 + x) + y) + z) + w
  simp
  omega

end LibAdb.Protobuf
