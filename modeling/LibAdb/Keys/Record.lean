import LibAdb.Base.Codec
import LibAdb.Lib.Crc

/-!
# LibAdb.Keys.Record — a private key on a medium with no filesystem

`keys/record.rs`: a magic, the length of the DER and its CRC-32, then the DER.  `decodeKeyRecord` finds again what
`encodeKeyRecord` wrote, whatever stands behind it, and reports nothing when up to four bytes in a row of the DER were
changed: `crc32` is a check of `Lib.Crc`, and its polynomial has the top bit.
-/

namespace LibAdb.Keys

/-- `KeyError`, as far as records and public keys report it. -/
inductive KeyError where
  | invalidName
  | nameTooLong (len : ℕ)
  | unsupportedModulus (bits : ℕ)
  | evenModulus
  | unsupportedExponent
  | payloadTooLarge (len : ℕ)
  deriving DecidableEq, Repr

/-- `MAGIC`: `ADBKEY`, a NUL and the version. -/
def magic : Bytes := (['A', 'D', 'B', 'K', 'E', 'Y'].map fun c => UInt8.ofNat c.toNat) ++ [0, 2]

/-- `HEADER_LEN` -/
def headerLen : ℕ := magic.length + 4 + 4

/-- One round of the inner loop of `crc32`. -/
def crcBit (crc : UInt32) : UInt32 :=
  let mask := 0 - (crc &&& 1)
  (crc >>> 1) ^^^ (0xEDB88320 &&& mask)

/-- One round of the outer loop of `crc32`. -/
def crcByte (crc : UInt32) (b : Byte) : UInt32 := crcBit^[8] (crc ^^^ b.toUInt32)

/-- `crc32` -/
def crc32 (bytes : Bytes) : UInt32 := ~~~ bytes.foldl crcByte 0xFFFFFFFF

/-- `header` -/
def header (payloadLen : ℕ) (crc : UInt32) : Except KeyError Bytes :=
  if 2 ^ 32 ≤ payloadLen then .error (.payloadTooLarge payloadLen)
  else .ok (magic ++ toLeBytes (UInt32.ofNat payloadLen) ++ toLeBytes crc)

/-- `encode_key_record` -/
def encodeKeyRecord (der : Bytes) : Except KeyError Bytes := do
  let header ← header der.length (crc32 der)
  pure (header ++ der)

/-- `decode_key_record`; a `u32` always fits a `usize`. -/
def decodeKeyRecord (bytes : Bytes) : Option Bytes :=
  if bytes.length < headerLen ∨ bytes.take magic.length ≠ magic then none
  else
    let len := u32At bytes magic.length
    let want := u32At bytes (magic.length + 4)
    let rest := bytes.drop headerLen
    if rest.length < len.toNat then none
    else
      let der := rest.take len.toNat
      if crc32 der = want then some der else none

/-- The loops of `crc32` are those of a check with the polynomial `0xEDB88320`. -/
theorem crc32_eq (bytes : Bytes) : crc32 bytes = ~~~ Crc.run 0xEDB88320 0xFFFFFFFF bytes := rfl

/-- What `decode_key_record` makes of a header and what stands behind it. -/
theorem decodeKeyRecord_header (len crc : UInt32) (rest : Bytes) :
    decodeKeyRecord (magic ++ toLeBytes len ++ toLeBytes crc ++ rest) =
      if rest.length < len.toNat then none
      else if crc32 (rest.take len.toNat) = crc then some (rest.take len.toNat) else none := by
  have hmagic : magic.length = 8 := rfl
  have hlen : (magic ++ toLeBytes len ++ toLeBytes crc).length = headerLen := rfl
  have hlenAt : u32At (magic ++ toLeBytes len ++ toLeBytes crc ++ rest) magic.length = len := by
    have := u32At_append_right magic (toLeBytes len ++ (toLeBytes crc ++ rest)) 0
    rwa [ofLeBytes_toLeBytes, Nat.add_zero, ← List.append_assoc, ← List.append_assoc] at this
  have hcrcAt : u32At (magic ++ toLeBytes len ++ toLeBytes crc ++ rest) (magic.length + 4) = crc := by
    have := u32At_append_right (magic ++ toLeBytes len) (toLeBytes crc ++ rest) 0
    rwa [ofLeBytes_toLeBytes, Nat.add_zero, ← List.append_assoc, List.length_append, length_toLeBytes] at this
  have htake : (magic ++ toLeBytes len ++ toLeBytes crc ++ rest).take magic.length = magic := by
    rw [List.append_assoc, List.append_assoc, List.take_left]
  have hdrop : (magic ++ toLeBytes len ++ toLeBytes crc ++ rest).drop headerLen = rest := by
    rw [← hlen, List.drop_left]
  have hlong : ¬ (magic ++ toLeBytes len ++ toLeBytes crc ++ rest).length < headerLen := by
    rw [List.length_append, hlen]
    omega
  unfold decodeKeyRecord
  rw [if_neg (by rintro (h | h) <;> contradiction)]
  simp only [hlenAt, hcrcAt, hdrop]

/-- A list that is another's outside of four places in a row. -/
theorem burst_split {α : Type*} {l m : List α} {start : ℕ}
    (h : ∀ i, i < start ∨ start + 4 ≤ i → l[i]? = m[i]?) :
    l = m.take start ++ (l.drop start).take 4 ++ m.drop (start + 4) := by
  have hfront : l.take start = m.take start := by
    apply List.ext_getElem?
    intro i
    rw [List.getElem?_take, List.getElem?_take]
    split_ifs with hi
    · exact h i (.inl hi)
    · rfl
  have hback : l.drop (start + 4) = m.drop (start + 4) := by
    apply List.ext_getElem?
    intro i
    rw [List.getElem?_drop, List.getElem?_drop]
    exact h _ (.inr (by omega))
  rw [← hfront, ← hback, List.append_assoc, ← List.drop_drop, List.take_append_drop, List.take_append_drop]

/-- A change within four bytes shows in the check. -/
theorem crc32_burst {der payload : Bytes} {start : ℕ} (hlen : payload.length = der.length)
    (h : ∀ i, i < start ∨ start + 4 ≤ i → payload[i]? = der[i]?) (hcrc : crc32 payload = crc32 der) :
    payload = der := by
  have hpayload := burst_split h
  have hder : der = der.take start ++ (der.drop start).take 4 ++ der.drop (start + 4) :=
    burst_split fun i _ => rfl
  have hmiddle : (payload.drop start).take 4 = (der.drop start).take 4 := by
    have hrun : Crc.run 0xEDB88320 0xFFFFFFFF payload = Crc.run 0xEDB88320 0xFFFFFFFF der :=
      UInt32.not_inj.mp hcrc
    rw [hpayload, congrArg (Crc.run _ _) hder] at hrun
    refine Crc.run_burst (by decide) ?_ ?_ hrun
    · simp only [List.length_take, List.length_drop, hlen]
    · rw [List.length_take]
      omega
  rw [hpayload, hmiddle, ← hder]

/-- **Records**: what was stored is found again, and a burst of up to four changed bytes is noticed. -/
theorem key_record_found_again (der trailing : Bytes) (hlen : der.length < 2 ^ 32) :
    ∃ record, encodeKeyRecord der = .ok record ∧ record.drop headerLen = der ∧
      decodeKeyRecord (record ++ trailing) = some der ∧
      ∀ payload : Bytes, payload.length = der.length → payload ≠ der →
        (∃ start, ∀ i, i < start ∨ start + 4 ≤ i → payload[i]? = der[i]?) →
          decodeKeyRecord (record.take headerLen ++ payload ++ trailing) = none := by
  set front := magic ++ toLeBytes (UInt32.ofNat der.length) ++ toLeBytes (crc32 der) with hfront
  have hfrontLen : front.length = headerLen := rfl
  have hnat : (UInt32.ofNat der.length).toNat = der.length := by
    rw [UInt32.toNat_ofNat', Nat.mod_eq_of_lt hlen]
  -- any payload of the stored length, behind the stored header
  have hdecode : ∀ payload : Bytes, payload.length = der.length →
      decodeKeyRecord (front ++ payload ++ trailing) = if crc32 payload = crc32 der then some payload else none := by
    intro payload hpayload
    rw [List.append_assoc, hfront, decodeKeyRecord_header, hnat, if_neg (by rw [List.length_append]; omega), ← hpayload,
      List.take_left]
  refine ⟨front ++ der, ?_, ?_, ?_, ?_⟩
  · simp only [encodeKeyRecord, header, if_neg (not_le.mpr hlen)]
    rfl
  · rw [← hfrontLen, List.drop_left]
  · rw [hdecode der rfl, if_pos rfl]
  · rintro payload hpayload hne ⟨start, hburst⟩
    rw [← hfrontLen, List.take_left, hdecode payload hpayload,
      if_neg fun hcrc => hne (crc32_burst hpayload hburst hcrc)]

/-- Three bytes of DER behind them an erased byte, and the middle one changed. -/
theorem key_record_found_again_three :
    ∃ record, encodeKeyRecord [48, 1, 0] = .ok record ∧ decodeKeyRecord (record ++ [255]) = some [48, 1, 0] ∧
      decodeKeyRecord (record.take headerLen ++ [48, 9, 0] ++ [255]) = none := by
  obtain ⟨record, hencode, -, hfound, hburst⟩ := key_record_found_again [48, 1, 0] [255] (by decide)
  refine ⟨record, hencode, hfound, hburst [48, 9, 0] rfl (by decide) ⟨1, fun i hi => ?_⟩⟩
  rcases i with _ | _ | _ | i
  · rfl
  · omega
  · omega
  · rfl

end LibAdb.Keys
