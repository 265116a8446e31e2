import LibAdb.Base.Protocol
import Mathlib.Data.List.GetD

/-!
# LibAdb.Base.Codec — a packet and its bytes

`Packet::decode` and `Packet::missing` of `base/protocol/packet.rs` and `encode_header` of `base/wire.rs`.

`decode` returns what it found and the buffer it leaves: the packet is split off, a packet with a wrong checksum is
split off too, and every other error leaves the buffer alone.  Two facts carry the rest of the development:

* `decode_append`: once `decode` has an answer, bytes behind it change nothing;
* `decode_frame`: what `encodeHeader` writes is what `decode` reads.
-/

namespace LibAdb

/-! ## Words in a buffer -/

/-- The little-endian word at offset `i`. -/
def u32At (buf : Bytes) (i : ℕ) : UInt32 :=
  ofLeBytes (buf.getD i 0) (buf.getD (i + 1) 0) (buf.getD (i + 2) 0) (buf.getD (i + 3) 0)

theorem u32At_append {buf : Bytes} {i : ℕ} (rest : Bytes) (h : i + 4 ≤ buf.length) :
    u32At (buf ++ rest) i = u32At buf i := by
  have key : ∀ j, j < buf.length → (buf ++ rest).getD j 0 = buf.getD j 0 := fun j hj => by
    rw [List.getD_append _ _ _ _ hj]
  simp only [u32At]
  rw [key i (by omega), key (i + 1) (by omega), key (i + 2) (by omega), key (i + 3) (by omega)]

theorem u32At_append_right (buf rest : Bytes) (i : ℕ) : u32At (buf ++ rest) (buf.length + i) = u32At rest i := by
  have key : ∀ j, (buf ++ rest).getD (buf.length + j) 0 = rest.getD j 0 := fun j => by
    rw [List.getD_append_right _ _ _ _ (by omega), Nat.add_sub_cancel_left]
  simp only [u32At, Nat.add_assoc, key]

theorem ofLeBytes_toLeBytes (n : UInt32) (rest : Bytes) : u32At (toLeBytes n ++ rest) 0 = n := by
  have hn := n.toNat_lt
  apply UInt32.toNat.inj
  simp only [u32At, toLeBytes, ofLeBytes, List.cons_append, List.nil_append, Nat.zero_add,
    List.getD_cons_zero, List.getD_cons_succ, UInt32.toNat_ofNat', UInt8.toNat_ofNat']
  omega

/-! ## Headers -/

/-- `Message`: the six words of a header. -/
structure Message where
  command : UInt32
  arg0 : UInt32
  arg1 : UInt32
  dataLength : UInt32
  dataCheck : UInt32
  magic : UInt32
  deriving DecidableEq, Repr

/-- The header at the front of a buffer. -/
def Message.read (buf : Bytes) : Message :=
  ⟨u32At buf 0, u32At buf 4, u32At buf 8, u32At buf 12, u32At buf 16, u32At buf 20⟩

theorem Message.read_append {buf : Bytes} (rest : Bytes) (h : messageSize ≤ buf.length) :
    Message.read (buf ++ rest) = Message.read buf := by
  unfold messageSize at h
  simp only [Message.read]
  rw [u32At_append rest (by omega), u32At_append rest (by omega), u32At_append rest (by omega),
    u32At_append rest (by omega), u32At_append rest (by omega), u32At_append rest (by omega)]

def Message.bytes (m : Message) : Bytes :=
  toLeBytes m.command ++ toLeBytes m.arg0 ++ toLeBytes m.arg1 ++ toLeBytes m.dataLength ++
    toLeBytes m.dataCheck ++ toLeBytes m.magic

@[simp] theorem Message.length_bytes (m : Message) : m.bytes.length = messageSize := rfl

theorem Message.read_bytes (m : Message) (rest : Bytes) : Message.read (m.bytes ++ rest) = m := by
  have word : ∀ (front : Bytes) (n : UInt32) (back : Bytes),
      u32At (front ++ (toLeBytes n ++ back)) front.length = n := fun front n back => by
    have := u32At_append_right front (toLeBytes n ++ back) 0
    rwa [Nat.add_zero, ofLeBytes_toLeBytes] at this
  obtain ⟨c, a0, a1, l, k, g⟩ := m
  simp only [Message.read, Message.bytes, List.append_assoc, Message.mk.injEq]
  refine ⟨word [] c _, word (toLeBytes c) a0 _, ?_, ?_, ?_, ?_⟩
  · simpa using word (toLeBytes c ++ toLeBytes a0) a1 _
  · simpa using word (toLeBytes c ++ toLeBytes a0 ++ toLeBytes a1) l _
  · simpa using word (toLeBytes c ++ toLeBytes a0 ++ toLeBytes a1 ++ toLeBytes l) k _
  · simpa using word (toLeBytes c ++ toLeBytes a0 ++ toLeBytes a1 ++ toLeBytes l ++ toLeBytes k) g _

/-! ## Decoding -/

namespace Packet

/-- `Packet::decode`: the answer and the buffer left behind. -/
def decode (maxPayload : UInt32) (buf : Bytes) : Except ProtocolError (Option Packet) × Bytes :=
  if buf.length < messageSize then (.ok none, buf)
  else
    let m := Message.read buf
    match Command.tryFrom m.command with
    | none => (.error (.invalidCommand m.command), buf)
    | some command =>
      if m.magic ≠ command.magic then (.error .invalidMagic, buf)
      else if min maxPayload.toNat maxPayloadConst < m.dataLength.toNat then (.error .payloadTooLarge, buf)
      else
        let totalLen := messageSize + m.dataLength.toNat
        if buf.length < totalLen then (.ok none, buf)
        else
          let data := (buf.take totalLen).drop messageSize
          if m.dataCheck ≠ 0 ∧ payloadChecksum data ≠ m.dataCheck then
            (.error .invalidChecksum, buf.drop totalLen)
          else (.ok (some ⟨command, m.arg0, m.arg1, data⟩), buf.drop totalLen)

/-- The length of the packet whose header stands at the front of a buffer. -/
def announced (buf : Bytes) : ℕ := messageSize + (Message.read buf).dataLength.toNat

theorem announced_append {buf : Bytes} (rest : Bytes) (h : messageSize ≤ buf.length) :
    announced (buf ++ rest) = announced buf := by
  rw [announced, Message.read_append rest h, announced]

/-- `Packet::missing`; `MESSAGE_SIZE + data_length` is a sum of `usize`. -/
def missing [Usize] (buf : Bytes) : ℕ :=
  if buf.length < messageSize then messageSize - buf.length
  else announced buf % 2 ^ Usize.bits - buf.length

/-- Every way `decode` can end. -/
inductive DecodeCases (maxPayload : UInt32) (buf : Bytes) : Except ProtocolError (Option Packet) × Bytes → Prop
  | short (h : buf.length < messageSize) : DecodeCases maxPayload buf (.ok none, buf)
  | bad (e : ProtocolError) (he : e ≠ .invalidChecksum) (h : messageSize ≤ buf.length) :
      DecodeCases maxPayload buf (.error e, buf)
  | partialPayload (h : messageSize ≤ buf.length) (hlen : announced buf ≤ messageSize + maxPayloadConst)
      (hshort : buf.length < announced buf) : DecodeCases maxPayload buf (.ok none, buf)
  | checksum (h : announced buf ≤ buf.length) :
      DecodeCases maxPayload buf (.error .invalidChecksum, buf.drop (announced buf))
  | packet (pkt : Packet) (h : announced buf ≤ buf.length) :
      DecodeCases maxPayload buf (.ok (some pkt), buf.drop (announced buf))

theorem decode_cases (maxPayload : UInt32) (buf : Bytes) :
    DecodeCases maxPayload buf (decode maxPayload buf) := by
  unfold decode
  by_cases h : buf.length < messageSize
  · rw [if_pos h]
    exact .short h
  rw [if_neg h]
  have hge := not_lt.mp h
  dsimp only
  split
  · exact .bad _ nofun hge
  · split_ifs with hm hl ht hc
    · exact .bad _ nofun hge
    · exact .bad _ nofun hge
    · exact .partialPayload hge (by unfold announced; omega) ht
    · exact .checksum (not_lt.mp ht)
    · exact .packet _ (not_lt.mp ht)

/-- `decode` only ever takes bytes off the front. -/
theorem decode_suffix (maxPayload : UInt32) (buf : Bytes) :
    ∃ front, buf = front ++ (decode maxPayload buf).2 := by
  have hc := decode_cases maxPayload buf
  generalize decode maxPayload buf = r at hc
  cases hc with
  | short _ => exact ⟨[], rfl⟩
  | bad _ _ _ => exact ⟨[], rfl⟩
  | partialPayload _ _ _ => exact ⟨[], rfl⟩
  | checksum _ => exact ⟨_, (List.take_append_drop _ _).symm⟩
  | packet _ _ => exact ⟨_, (List.take_append_drop _ _).symm⟩

/-- Once `decode` has an answer, what arrives later only lengthens what it leaves behind. -/
theorem decode_append {maxPayload : UInt32} {buf left : Bytes} {r : Except ProtocolError (Option Packet)}
    (h : decode maxPayload buf = (r, left)) (hr : r ≠ .ok none) (rest : Bytes) :
    decode maxPayload (buf ++ rest) = (r, left ++ rest) := by
  unfold decode at h ⊢
  by_cases hs : buf.length < messageSize
  · rw [if_pos hs] at h
    cases h
    exact absurd rfl hr
  rw [if_neg hs] at h
  rw [if_neg (by rw [List.length_append]; omega), Message.read_append rest (not_lt.mp hs)]
  dsimp only at h ⊢
  split at h
  · cases h
    rfl
  · -- the whole packet is there, so neither its payload nor its end moves
    have htake : ∀ {n}, ¬ buf.length < n → (buf ++ rest).take n = buf.take n := fun hn =>
      List.take_append_of_le_length (not_lt.mp hn)
    have hdrop : ∀ {n}, ¬ buf.length < n → (buf ++ rest).drop n = buf.drop n ++ rest := fun hn =>
      List.drop_append_of_le_length (not_lt.mp hn)
    split_ifs at h with hm hl ht hc
    · cases h
      rw [if_pos hm]
    · cases h
      rw [if_neg hm, if_pos hl]
    · cases h
      exact absurd rfl hr
    · cases h
      rw [if_neg hm, if_neg hl, if_neg (by rw [List.length_append]; omega), htake ht, if_pos hc, hdrop ht]
    · cases h
      rw [if_neg hm, if_neg hl, if_neg (by rw [List.length_append]; omega), htake ht, if_neg hc, hdrop ht]

/-- `decode` says `None` only where bytes are missing, and `missing` then asks for some of them. -/
theorem missing_pos [u : Usize] {maxPayload : UInt32} {buf left : Bytes}
    (h : decode maxPayload buf = (.ok none, left)) : left = buf ∧ 0 < missing buf := by
  have hc := decode_cases maxPayload buf
  rw [h] at hc
  cases hc with
  | short hs => exact ⟨rfl, by rw [missing, if_pos hs]; omega⟩
  | partialPayload hs hlen hshort =>
    refine ⟨rfl, ?_⟩
    have hbig : announced buf < 2 ^ u.bits := by
      have h32 : 2 ^ 32 ≤ 2 ^ u.bits := by
        rcases u.supported with hb | hb <;> rw [hb]
        norm_num
      unfold messageSize maxPayloadConst at hlen
      omega
    rw [missing, if_neg (not_lt.mpr hs), Nat.mod_eq_of_lt hbig]
    omega

end Packet

/-! ## Encoding -/

/-- `encode_header` -/
def encodeHeader (command : Command) (arg0 arg1 : UInt32) (payload : Bytes) (checksum : Checksum) :
    Except ProtocolError Bytes :=
  if maxPayloadConst < payload.length then .error .payloadTooLarge
  else .ok (Message.bytes
    ⟨command.toU32, arg0, arg1, UInt32.ofNat payload.length, checksum.of payload, command.magic⟩)

/-- The bytes of a packet: header, then payload. -/
def Packet.frame (pkt : Packet) (checksum : Checksum) : Bytes :=
  Message.bytes ⟨pkt.command.toU32, pkt.arg0, pkt.arg1, UInt32.ofNat pkt.data.length, checksum.of pkt.data,
    pkt.command.magic⟩ ++ pkt.data

theorem Command.tryFrom_toU32 (c : Command) : Command.tryFrom c.toU32 = some c := by
  cases c <;> decide

/-- **What is encoded is decoded**, as long as the receiver takes packets of that size. -/
theorem Packet.decode_frame {maxPayload : UInt32} (pkt : Packet) (checksum : Checksum) (rest : Bytes)
    (hmax : pkt.data.length ≤ maxPayload.toNat) (hconst : pkt.data.length ≤ maxPayloadConst) :
    decode maxPayload (pkt.frame checksum ++ rest) = (.ok (some pkt), rest) := by
  have hlen : (UInt32.ofNat pkt.data.length).toNat = pkt.data.length := by
    rw [UInt32.toNat_ofNat']
    apply Nat.mod_eq_of_lt
    unfold maxPayloadConst at hconst
    omega
  have hsum : ¬ (checksum.of pkt.data ≠ 0 ∧ payloadChecksum pkt.data ≠ checksum.of pkt.data) := by
    cases checksum with
    | compute => exact fun h => h.2 rfl
    | skip => exact fun h => h.1 rfl
  have htotal : (pkt.frame checksum).length = messageSize + pkt.data.length := by
    rw [frame, List.length_append, Message.length_bytes]
  have hread : Message.read (pkt.frame checksum ++ rest) = ⟨pkt.command.toU32, pkt.arg0, pkt.arg1,
      UInt32.ofNat pkt.data.length, checksum.of pkt.data, pkt.command.magic⟩ := by
    rw [frame, List.append_assoc, Message.read_bytes]
  have hdata : ((pkt.frame checksum ++ rest).take (messageSize + pkt.data.length)).drop messageSize = pkt.data := by
    rw [List.take_append_of_le_length htotal.ge, List.take_of_length_le htotal.le, frame,
      List.drop_left' (Message.length_bytes _)]
  unfold decode
  rw [if_neg (by rw [List.length_append, htotal]; omega), hread]
  simp only [Command.tryFrom_toU32, hlen, hdata]
  rw [if_neg (not_not.mpr rfl), if_neg (by omega), if_neg (by rw [List.length_append, htotal]; omega),
    if_neg hsum, List.drop_left' htotal]

/-! ## What is decoded re-encodes -/

theorem Command.toU32_of_tryFrom {v : UInt32} {c : Command} (h : Command.tryFrom v = some c) : c.toU32 = v := by
  unfold Command.tryFrom at h
  split_ifs at h with h1 h2 h3 h4 h5 h6 h7 h8
  all_goals
    rw [Option.some.injEq] at h
    subst h
    first
      | exact h1.symm | exact h2.symm | exact h3.symm | exact h4.symm
      | exact h5.symm | exact h6.symm | exact h7.symm | exact h8.symm

/-- Writing the word that was read gives its four bytes back. -/
theorem toLeBytes_ofLeBytes (b0 b1 b2 b3 : Byte) : toLeBytes (ofLeBytes b0 b1 b2 b3) = [b0, b1, b2, b3] := by
  have h0 := b0.toNat_lt
  have h1 := b1.toNat_lt
  have h2 := b2.toNat_lt
  have h3 := b3.toNat_lt
  have byte : ∀ (b : Byte) (n : ℕ), n % 2 ^ 8 = b.toNat → UInt8.ofNat n = b := by
    intro b n hn
    apply UInt8.toNat.inj
    rw [UInt8.toNat_ofNat', hn]
  simp only [toLeBytes, ofLeBytes, UInt32.toNat_ofNat']
  rw [byte b0 _ (by omega), byte b1 _ (by omega), byte b2 _ (by omega), byte b3 _ (by omega)]

theorem toLeBytes_u32At {buf : Bytes} {i : ℕ} (h : i + 4 ≤ buf.length) :
    toLeBytes (u32At buf i) = (buf.drop i).take 4 := by
  rw [u32At, toLeBytes_ofLeBytes]
  apply List.ext_getElem
  · simp only [List.length_cons, List.length_nil, List.length_take, List.length_drop]
    omega
  · intro j hj hj'
    have hj4 : j < 4 := hj
    rw [List.getElem_take, List.getElem_drop]
    have h0 : i < buf.length := by omega
    have h1 : i + 1 < buf.length := by omega
    have h2 : i + 2 < buf.length := by omega
    have h3 : i + 3 < buf.length := by omega
    interval_cases j <;> simp [h0, h1, h2, h3]

theorem Message.bytes_read {buf : Bytes} (h : messageSize ≤ buf.length) :
    (Message.read buf).bytes = buf.take messageSize := by
  unfold messageSize at h
  simp only [Message.bytes, Message.read]
  rw [toLeBytes_u32At (by omega), toLeBytes_u32At (by omega), toLeBytes_u32At (by omega),
    toLeBytes_u32At (by omega), toLeBytes_u32At (by omega), toLeBytes_u32At (by omega), List.drop_zero]
  simp only [← List.take_add]
  rfl

/-- The checksum is the byte sum modulo `2^32`. -/
theorem payloadChecksum_toNat (payload : Bytes) :
    (payloadChecksum payload).toNat = (payload.map UInt8.toNat).sum % 2 ^ 32 := by
  have go : ∀ (bs : Bytes) (sum : UInt32), (bs.foldl (fun sum b => sum + b.toUInt32) sum).toNat =
      (sum.toNat + (bs.map UInt8.toNat).sum) % 2 ^ 32 := by
    intro bs
    induction bs with
    | nil =>
      intro sum
      exact (Nat.mod_eq_of_lt sum.toNat_lt).symm
    | cons b bs ih =>
      intro sum
      rw [List.foldl_cons, ih, List.map_cons, List.sum_cons, UInt32.toNat_add, UInt8.toNat_toUInt32]
      omega
  rw [payloadChecksum, go payload 0, UInt32.toNat_zero, Nat.zero_add]

/-- **A packet is decoded from its own bytes only**: the header it was read from is the one `encodeHeader` builds,
with the checksum field empty or filled in. -/
theorem Packet.frame_of_decode {maxPayload : UInt32} {buf left : Bytes} {pkt : Packet}
    (h : decode maxPayload buf = (.ok (some pkt), left)) :
    pkt.data.length ≤ min maxPayload.toNat maxPayloadConst ∧
      ∃ checksum : Checksum, buf = pkt.frame checksum ++ left ∧
        (Message.read buf).dataCheck = checksum.of pkt.data := by
  unfold decode at h
  by_cases hs : buf.length < messageSize
  · rw [if_pos hs] at h
    cases h
  rw [if_neg hs] at h
  dsimp only at h
  split at h
  · cases h
  · rename_i command hcommand
    split_ifs at h with hm hl ht hc <;> try cases h
    -- every refusal is gone: the rest is the packet that was split off
    have hmagic : (Message.read buf).magic = command.magic := not_not.mp hm
    generalize hdata : (buf.take (messageSize + (Message.read buf).dataLength.toNat)).drop messageSize = data at hc
    have hlen : data.length = (Message.read buf).dataLength.toNat := by
      rw [← hdata, List.length_drop, List.length_take]
      omega
    have hword : UInt32.ofNat data.length = (Message.read buf).dataLength := by
      rw [hlen]
      exact UInt32.ofNat_toNat
    have hsplit : buf = (Message.read buf).bytes ++ data ++
        buf.drop (messageSize + (Message.read buf).dataLength.toNat) := by
      rw [Message.bytes_read (not_lt.mp hs), ← hdata, List.drop_take, Nat.add_sub_cancel_left, ← List.take_add,
        List.take_append_drop]
    have hframe : ∀ checksum : Checksum, (Message.read buf).dataCheck = checksum.of data →
        buf = Packet.frame ⟨command, (Message.read buf).arg0, (Message.read buf).arg1, data⟩ checksum ++
          buf.drop (messageSize + (Message.read buf).dataLength.toNat) := by
      intro checksum hsum
      rw [Packet.frame, ← hsum, hword, Command.toU32_of_tryFrom hcommand, ← hmagic]
      exact hsplit
    refine ⟨by dsimp only; omega, ?_⟩
    by_cases hzero : (Message.read buf).dataCheck = 0
    · exact ⟨.skip, hframe .skip hzero, hzero⟩
    · have hsum : (Message.read buf).dataCheck = payloadChecksum data := by
        by_contra hne
        exact hc ⟨hzero, fun he => hne he.symm⟩
      exact ⟨.compute, hframe .compute hsum, hsum⟩

/-- **The codec is a round trip both ways.** -/
theorem codec_round_trip (maxPayload : UInt32) :
    (∀ (command : Command) (arg0 arg1 : UInt32) (payload rest : Bytes) (checksum : Checksum),
      payload.length ≤ min maxPayload.toNat maxPayloadConst →
        ∃ header, encodeHeader command arg0 arg1 payload checksum = .ok header ∧
          Packet.decode maxPayload (header ++ payload ++ rest) = (.ok (some ⟨command, arg0, arg1, payload⟩), rest)) ∧
    (∀ (buf left : Bytes) (pkt : Packet), Packet.decode maxPayload buf = (.ok (some pkt), left) →
      ∃ (checksum : Checksum) (header : Bytes),
        encodeHeader pkt.command pkt.arg0 pkt.arg1 pkt.data checksum = .ok header ∧
        buf = header ++ pkt.data ++ left ∧
        ((Message.read buf).dataCheck.toNat = 0 ∨
          (Message.read buf).dataCheck.toNat = (pkt.data.map UInt8.toNat).sum % 2 ^ 32)) := by
  refine ⟨?_, ?_⟩
  · intro command arg0 arg1 payload rest checksum hlen
    refine ⟨_, if_neg (by omega), ?_⟩
    exact Packet.decode_frame ⟨command, arg0, arg1, payload⟩ checksum rest (by dsimp only; omega)
      (by dsimp only; omega)
  · intro buf left pkt h
    obtain ⟨hlen, checksum, hbuf, hsum⟩ := Packet.frame_of_decode h
    refine ⟨checksum, _, if_neg (by omega), hbuf, ?_⟩
    rw [hsum]
    cases checksum with
    | skip => exact .inl rfl
    | compute => exact .inr (payloadChecksum_toNat pkt.data)

end LibAdb
