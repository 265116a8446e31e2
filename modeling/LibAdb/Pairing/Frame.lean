import LibAdb.Base.Banner
import LibAdb.Pairing.Spake2

/-!
# LibAdb.Pairing.Frame — what pairing sends: packets, `PeerInfo` blocks and how they are sealed

`pairing/frame.rs`, `pairing/peer_info.rs` and `pairing/aead.rs`.  HKDF and AES-128-GCM are assumed, as `Aead`: what is
sealed under a key and a nonce opens under them, and is longer by the tag.
-/

namespace LibAdb.Pairing

open LeBytes

/-! ## Packets -/

def headerLen : ℕ := 6

def version : Byte := 1

def maxPayload : ℕ := 16384

inductive PacketType where
  | spake2Msg
  | peerInfo
  deriving DecidableEq, Repr

def PacketType.code : PacketType → Byte
  | .spake2Msg => 0
  | .peerInfo => 1

def PacketType.fromCode (code : Byte) : Option PacketType :=
  if code = 0 then some .spake2Msg else if code = 1 then some .peerInfo else none

theorem PacketType.fromCode_eq_some {code : Byte} {kind : PacketType} :
    fromCode code = some kind ↔ code = kind.code := by
  unfold fromCode
  split_ifs with h0 h1
  · subst h0
    cases kind <;> simp [PacketType.code]
  · subst h1
    cases kind <;> simp [PacketType.code]
  · cases kind <;> simp [PacketType.code, h0, h1]

inductive FrameError where
  | version (v : Byte)
  | kind (k : Byte)
  | length (n : ℕ)
  | unexpected (got expected : PacketType)
  deriving DecidableEq, Repr

namespace Frame

/-- `u32::to_be_bytes` of the length, which is cut to 32 bits. -/
def lengthBytes (n : ℕ) : Bytes := (ofNat 4 n).reverse

def encode (kind : PacketType) (payload : Bytes) : Bytes :=
  [version, kind.code] ++ lengthBytes payload.length ++ payload

/-- `decode`, of the six bytes of a header. -/
def decode (header : Bytes) : Except FrameError (PacketType × ℕ) :=
  if header.getD 0 0 ≠ version then .error (.version (header.getD 0 0))
  else match PacketType.fromCode (header.getD 1 0) with
    | none => .error (.kind (header.getD 1 0))
    | some kind =>
      let len := value (header.drop 2).reverse
      if len = 0 ∨ maxPayload < len then .error (.length len) else .ok (kind, len)

@[simp] theorem length_lengthBytes (n : ℕ) : (lengthBytes n).length = 4 := by
  simp [lengthBytes]

@[simp] theorem length_encode (kind : PacketType) (payload : Bytes) :
    (encode kind payload).length = headerLen + payload.length := by
  simp [encode, headerLen]
  omega

/-- A header that is accepted is the one `encode` writes. -/
theorem decode_eq_ok {header : Bytes} (h : header.length = headerLen) {kind : PacketType} {len : ℕ} :
    decode header = .ok (kind, len) ↔ header = [version, kind.code] ++ lengthBytes len ∧ 0 < len ∧ len ≤ maxPayload := by
  rcases header with _ | ⟨v, _ | ⟨k, _ | ⟨b2, _ | ⟨b3, _ | ⟨b4, _ | ⟨b5, _ | ⟨b6, rest⟩⟩⟩⟩⟩⟩⟩ <;>
    simp only [headerLen, List.length_cons, List.length_nil] at h <;> try omega
  have hfour : ∀ n, lengthBytes n = [b2, b3, b4, b5] ↔ ofNat 4 n = [b5, b4, b3, b2] := by
    intro n
    rw [lengthBytes, List.reverse_eq_iff]
    rfl
  simp only [decode, List.getD_cons_zero, List.getD_cons_succ, List.drop_succ_cons, List.drop_zero,
    List.reverse_cons, List.reverse_nil, List.nil_append, List.cons_append]
  constructor
  · intro hok
    by_cases hv : v = version
    · rw [if_neg (not_not.mpr hv)] at hok
      cases hkind : PacketType.fromCode k with
      | none =>
        rw [hkind] at hok
        cases hok
      | some kind' =>
        rw [hkind] at hok
        dsimp only at hok
        split_ifs at hok with hlen
        cases hok
        have hbytes := (hfour _).mpr (ofNat_value [b5, b4, b3, b2])
        refine ⟨?_, by omega, by omega⟩
        rw [hbytes, hv, PacketType.fromCode_eq_some.mp hkind]
    · rw [if_pos hv] at hok
      cases hok
  · rintro ⟨heq, hpos, hmax⟩
    simp only [List.cons.injEq] at heq
    obtain ⟨rfl, rfl, hbytes⟩ := heq
    have hvalue : value [b5, b4, b3, b2] = len := by
      rw [← (hfour len).mp hbytes.symm]
      exact value_ofNat_of_lt (by unfold maxPayload at hmax; omega)
    rw [if_neg (not_not.mpr rfl), PacketType.fromCode_eq_some.mpr rfl]
    simp only [hvalue]
    rw [if_neg (by omega)]

/-- A packet's header and its payload. -/
theorem take_encode (kind : PacketType) (payload rest : Bytes) :
    (encode kind payload ++ rest).take headerLen = [version, kind.code] ++ lengthBytes payload.length := by
  rw [encode, List.append_assoc, List.take_left' (by simp [headerLen])]

theorem drop_encode (kind : PacketType) (payload rest : Bytes) :
    (encode kind payload ++ rest).drop headerLen = payload ++ rest := by
  rw [encode, List.append_assoc, List.drop_left' (by simp [headerLen])]

theorem decode_encode (kind : PacketType) {payload : Bytes} (hpos : payload ≠ []) (hmax : payload.length ≤ maxPayload) :
    decode ([version, kind.code] ++ lengthBytes payload.length) = .ok (kind, payload.length) :=
  (decode_eq_ok (by simp [headerLen])).mpr ⟨rfl, List.length_pos_iff.mpr hpos, hmax⟩

end Frame

/-! ## `PeerInfo` -/

namespace PeerInfo

def size : ℕ := 8192

end PeerInfo

inductive PeerInfoType where
  | rsaPublicKey
  | deviceGuid
  deriving DecidableEq, Repr

def PeerInfoType.code : PeerInfoType → Byte
  | .rsaPublicKey => 0
  | .deviceGuid => 1

def PeerInfoType.fromCode (code : Byte) : Option PeerInfoType :=
  if code = 0 then some .rsaPublicKey else if code = 1 then some .deviceGuid else none

theorem PeerInfoType.fromCode_code (kind : PeerInfoType) : fromCode kind.code = some kind := by
  cases kind <;> rfl

inductive PeerInfoError where
  | size (n : ℕ)
  | kind (k : Byte)
  | unexpected (t : PeerInfoType)
  | notUtf8
  | unterminated
  | tooLong (n : ℕ)
  deriving DecidableEq, Repr

namespace PeerInfo

/-- The block is as long as it is whatever it carries; the zeroes end the payload. -/
def encode (kind : PeerInfoType) (payload : Bytes) : Except PeerInfoError Bytes :=
  if size - 2 < payload.length then .error (.tooLong payload.length)
  else .ok (kind.code :: payload ++ List.replicate (size - 1 - payload.length) 0)

def decode (block : Bytes) : Except PeerInfoError (PeerInfoType × Bytes) :=
  if block.length ≠ size then .error (.size block.length)
  else match PeerInfoType.fromCode (block.getD 0 0) with
    | none => .error (.kind (block.getD 0 0))
    | some kind =>
      let data := block.drop 1
      match data.findIdx? (· = 0) with
      | none => .error .unterminated
      | some «end» =>
        let text := data.take «end»
        if validUtf8 text then .ok (kind, text) else .error .notUtf8

/-- What a block carries without loss. -/
structure Carried (payload : Bytes) : Prop where
  fits : payload.length ≤ size - 2
  noNul : (0 : Byte) ∉ payload
  utf8 : validUtf8 payload = true

theorem encode_ok {payload : Bytes} (h : payload.length ≤ size - 2) (kind : PeerInfoType) :
    encode kind payload = .ok (kind.code :: payload ++ List.replicate (size - 1 - payload.length) 0) :=
  if_neg (by omega)

theorem length_of_encode {kind : PeerInfoType} {payload block : Bytes} (h : encode kind payload = .ok block) :
    block.length = size := by
  unfold encode at h
  split_ifs at h with hlong
  cases h
  simp [size] at *
  omega

/-- **A block gives back what it carries.** -/
theorem decode_of_encode {kind : PeerInfoType} {payload block : Bytes} (hc : Carried payload)
    (h : encode kind payload = .ok block) : decode block = .ok (kind, payload) := by
  have hlen := length_of_encode h
  rw [encode_ok hc.fits] at h
  cases h
  obtain ⟨n, hn⟩ : ∃ n, size - 1 - payload.length = n + 1 := by
    have := hc.fits
    exact ⟨size - 2 - payload.length, by unfold size at *; omega⟩
  have hfind : (payload ++ List.replicate (size - 1 - payload.length) (0 : Byte)).findIdx? (· = 0) =
      some payload.length := by
    have hnone : payload.findIdx? (· = (0 : Byte)) = none := by
      refine List.findIdx?_eq_none_iff.mpr fun b hb => decide_eq_false fun heq => hc.noNul ?_
      rwa [heq] at hb
    rw [hn, List.findIdx?_append, hnone, List.replicate_succ, List.findIdx?_cons]
    simp
  unfold decode
  rw [if_neg (not_not.mpr hlen)]
  simp only [List.cons_append, List.getD_cons_zero, PeerInfoType.fromCode_code, List.drop_succ_cons, List.drop_zero,
    hfind, List.take_left, hc.utf8, if_true]

end PeerInfo

/-! ## Sealing -/

def tagLen : ℕ := 16

/-- What is assumed of HKDF-SHA256 and AES-128-GCM. -/
structure Aead where
  /-- The key that is expanded from the key material, with `HKDF_INFO`. -/
  expand : Bytes → Bytes
  encrypt : Bytes → Bytes → Bytes → Bytes
  decrypt : Bytes → Bytes → Bytes → Option Bytes
  decrypt_encrypt : ∀ key nonce msg, decrypt key nonce (encrypt key nonce msg) = some msg
  length_encrypt : ∀ key nonce msg, (encrypt key nonce msg).length = msg.length + tagLen

structure Cipher where
  key : Bytes
  encryptCounter : ℕ
  decryptCounter : ℕ
  deriving DecidableEq, Repr

namespace Cipher

variable (a : Aead)

def new (keyMaterial : Bytes) : Cipher := ⟨a.expand keyMaterial, 0, 0⟩

/-- Twelve bytes, the counter in the first eight. -/
def nonce (counter : ℕ) : Bytes := ofNat 8 counter ++ List.replicate 4 0

def «seal» (c : Cipher) (plaintext : Bytes) : Bytes × Cipher :=
  (a.encrypt c.key (nonce c.encryptCounter) plaintext, { c with encryptCounter := c.encryptCounter + 1 })

/-- One that fails does not count. -/
def «open» (c : Cipher) (ciphertext : Bytes) : Option (Bytes × Cipher) :=
  (a.decrypt c.key (nonce c.decryptCounter) ciphertext).map fun opened =>
    (opened, { c with decryptCounter := c.decryptCounter + 1 })

end Cipher

end LibAdb.Pairing
