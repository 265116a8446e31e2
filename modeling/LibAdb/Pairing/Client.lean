import LibAdb.Lib.Stops
import LibAdb.Pairing.Frame

/-!
# LibAdb.Pairing.Client — pairing a host with a device

`pairing/client.rs`, over the TLS session it starts.  The session is a byte stream each way: `incoming` is what the
device sends, as a whole; `sent` is what the session has taken.  `write_all`, `flush` and `read_exact` are the
session's own: a script says what becomes of each call of them, and one that has run out is a call dropped there.

`Sent` is what can have left the host wherever an exchange ends, and `Device` a device that plays its part.
-/

namespace LibAdb.Pairing

open Stops

/-! ## The transport -/

/-- How a call of the session is cut short; `write_all` panics on a write that takes nothing. -/
inductive Cut (ε : Type) where
  | err (e : ε)
  | dropped
  | panicked

/-- `MaybeTls`, with `ε` its `TlsError`.  A call that does all it was asked for is `none` in the scripts; with one that
is cut short stands how many bytes it came to. -/
structure Transport (ε : Type) where
  /-- What becomes of `start_tls`; `none` is a call dropped in it. -/
  start : Option (Except ε Unit)
  /-- What `export_keying_material` gives for `EXPORTER_LABEL`. -/
  exporter : Except ε Bytes
  incoming : Bytes
  reads : List (Option (ℕ × Cut ε))
  writes : List (Option (ℕ × Cut ε))
  flushes : List (Option (Cut ε))
  sent : Bytes

inductive PairingError (ε : Type) where
  | transport (e : ε)
  | closed
  | frame (e : FrameError)
  | spake2 (e : Spake2Error)
  | wrongCode
  | peerInfo (e : PeerInfoError)

/-- How a call ends that returns no value. -/
inductive Stop (ε : Type) where
  | failed (e : PairingError ε)
  | dropped
  | panicked

abbrev PairM (ε α : Type) : Type := StopM (Transport ε) (Stop ε) α

variable {ε : Type}

def Cut.stop : Cut ε → Stop ε
  | .err e => .failed (.transport e)
  | .dropped => .dropped
  | .panicked => .panicked

def startTls : PairM ε Unit := fun s =>
  match s.start with
  | none => (.error .dropped, s)
  | some (.error e) => (.error (.failed (.transport e)), s)
  | some (.ok ()) => (.ok (), s)

def exportKeyingMaterial : PairM ε Bytes := fun s => ofExcept (fun e => .failed (.transport e)) s.exporter s

/-- `write_all`: all of the buffer is taken, or a part of it. -/
def writeAll (buf : Bytes) : PairM ε Unit := fun s =>
  match s.writes with
  | [] => (.error .dropped, s)
  | none :: writes => (.ok (), { s with writes, sent := s.sent ++ buf })
  | some (n, cut) :: writes => (.error cut.stop, { s with writes, sent := s.sent ++ buf.take n })

def flush : PairM ε Unit := fun s =>
  match s.flushes with
  | [] => (.error .dropped, s)
  | none :: flushes => (.ok (), { s with flushes })
  | some cut :: flushes => (.error cut.stop, { s with flushes })

/-- `read_exact`: the next `n` bytes, unless the device has closed before them. -/
def readExact (n : ℕ) : PairM ε Bytes := fun s =>
  match s.reads with
  | [] => (.error .dropped, s)
  | none :: reads =>
    if n ≤ s.incoming.length then (.ok (s.incoming.take n), { s with reads, incoming := s.incoming.drop n })
    else (.error (.failed .closed), { s with reads, incoming := [] })
  | some (k, cut) :: reads => (.error cut.stop, { s with reads, incoming := s.incoming.drop (min k n) })

/-! ## The client -/

def clientName : Bytes := ascii "adb pair client" ++ [0]

def serverName : Bytes := ascii "adb pair server" ++ [0]

structure Paired where
  guid : Bytes
  deriving DecidableEq, Repr

def send (kind : PacketType) (payload : Bytes) : PairM ε Unit := do
  writeAll (Frame.encode kind payload)
  flush

def recv (expected : PacketType) : PairM ε Bytes := do
  let header ← readExact headerLen
  let (kind, len) ← ofExcept (fun e => .failed (.frame e)) (Frame.decode header)
  if kind ≠ expected then stop (.failed (.frame (.unexpected kind expected)))
  else readExact len

/-- `<&[u8; 32]>::try_from` of the device's message. -/
def messageOf (theirs : Bytes) : Except (PairingError ε) Bytes :=
  if theirs.length = 32 then .ok theirs else .error (.spake2 (.messageLength theirs.length))

section Pair

variable {G : Type} [AddCommGroup G] (c : Primitives G) (a : Aead)

/-- The device's half, from the packet to its GUID. -/
def readAnswer (cipher : Cipher) (answer : Bytes) : Except (PairingError ε) Paired :=
  if answer.length ≠ PeerInfo.size + tagLen then .error (.peerInfo (.size (answer.length - tagLen)))
  else match cipher.open a answer with
    | none => .error .wrongCode
    | some (opened, _) => match PeerInfo.decode opened with
      | .error e => .error (.peerInfo e)
      | .ok (kind, guid) => if kind ≠ .deviceGuid then .error (.peerInfo (.unexpected kind)) else .ok ⟨guid⟩

/-- `pair`, with `line` the host's public key line and `wide` what `rng` gives. -/
def pair (line code wide : Bytes) : PairM ε Paired := do
  startTls
  let exported ← exportKeyingMaterial
  let spake2 := Spake2.new c .alice clientName serverName (code ++ exported) wide
  send .spake2Msg spake2.myMsg
  let theirs ← recv .spake2Msg
  let theirs ← ofExcept .failed (messageOf theirs)
  let keyMaterial ← ofExcept (fun e => .failed (.spake2 e)) (spake2.finish c theirs)
  let cipher := Cipher.new a keyMaterial
  let mine ← ofExcept (fun e => .failed (.peerInfo e)) (PeerInfo.encode .rsaPublicKey line)
  let (sealed, cipher) := cipher.seal a mine
  send .peerInfo sealed
  let answer ← recv .peerInfo
  ofExcept .failed (readAnswer a cipher answer)

end Pair

/-! ## What the pieces do -/

theorem Cut.stop_ne (cut : Cut ε) : cut.stop ≠ .failed .wrongCode := by
  cases cut <;> simp [stop]

variable {s : Transport ε}

theorem startTls_ends : Ends (startTls : PairM ε Unit) s (fun _ t => t = s)
    (fun k t => t = s ∧ k ≠ .failed .wrongCode) := by
  unfold startTls
  refine ⟨fun r t h => ?_, fun k t h => ?_⟩ <;> split at h <;> cases h
  · rfl
  · exact ⟨rfl, by simp⟩
  · exact ⟨rfl, by simp⟩

theorem export_ends : Ends (exportKeyingMaterial : PairM ε Bytes) s
    (fun exported t => t = s ∧ s.exporter = .ok exported) (fun k t => t = s ∧ k ≠ .failed .wrongCode) := by
  have h : Ends (ofExcept (fun e => Stop.failed (.transport e)) s.exporter : PairM ε Bytes) s
      (fun exported t => t = s ∧ s.exporter = .ok exported) (fun k t => t = s ∧ k ≠ .failed .wrongCode) :=
    .ofExcept (fun b hb => ⟨rfl, hb⟩) fun e _ => ⟨rfl, by simp⟩
  exact ⟨h.returned, h.stopped⟩

theorem writeAll_ends (buf : Bytes) : Ends (writeAll buf : PairM ε Unit) s
    (fun _ t => t.incoming = s.incoming ∧ t.sent = s.sent ++ buf)
    (fun k t => (∃ p, p <+: buf ∧ t.sent = s.sent ++ p) ∧ k ≠ .failed .wrongCode) := by
  unfold writeAll
  refine ⟨fun r t h => ?_, fun k t h => ?_⟩ <;> split at h <;> cases h
  · exact ⟨rfl, rfl⟩
  · exact ⟨⟨[], List.nil_prefix, (List.append_nil _).symm⟩, by simp⟩
  · exact ⟨⟨_, List.take_prefix _ _, rfl⟩, Cut.stop_ne _⟩

theorem flush_ends : Ends (flush : PairM ε Unit) s (fun _ t => t.incoming = s.incoming ∧ t.sent = s.sent)
    (fun k t => t.sent = s.sent ∧ k ≠ .failed .wrongCode) := by
  unfold flush
  refine ⟨fun r t h => ?_, fun k t h => ?_⟩ <;> split at h <;> cases h
  · exact ⟨rfl, rfl⟩
  · exact ⟨rfl, by simp⟩
  · exact ⟨rfl, Cut.stop_ne _⟩

theorem send_ends (kind : PacketType) (payload : Bytes) : Ends (send kind payload : PairM ε Unit) s
    (fun _ t => t.incoming = s.incoming ∧ t.sent = s.sent ++ Frame.encode kind payload)
    (fun k t => (∃ p, p <+: Frame.encode kind payload ∧ t.sent = s.sent ++ p) ∧ k ≠ .failed .wrongCode) := by
  refine (writeAll_ends _).bind (fun _ t h => ?_) fun k t h => h
  refine ⟨fun r u hr => ?_, fun k u hk => ?_⟩
  · obtain ⟨hin, hsent⟩ := flush_ends.returned r u hr
    exact ⟨hin.trans h.1, hsent.trans h.2⟩
  · obtain ⟨hsent, hcode⟩ := flush_ends.stopped k u hk
    exact ⟨⟨_, List.prefix_rfl, hsent.trans h.2⟩, hcode⟩

theorem readExact_ends (n : ℕ) : Ends (readExact n : PairM ε Bytes) s
    (fun data t => data.length = n ∧ s.incoming = data ++ t.incoming ∧ t.sent = s.sent)
    (fun k t => t.sent = s.sent ∧ k ≠ .failed .wrongCode) := by
  unfold readExact
  refine ⟨fun r t h => ?_, fun k t h => ?_⟩ <;> split at h
  · cases h
  · split_ifs at h with hn <;> cases h
    exact ⟨List.length_take_of_le hn, (List.take_append_drop n _).symm, rfl⟩
  · cases h
  · cases h
    exact ⟨rfl, by simp⟩
  · split_ifs at h <;> cases h
    exact ⟨rfl, by simp⟩
  · cases h
    exact ⟨rfl, Cut.stop_ne _⟩

/-- A packet that is received is what the device has sent next, byte for byte. -/
theorem recv_ends (expected : PacketType) : Ends (recv expected : PairM ε Bytes) s
    (fun payload t => s.incoming = Frame.encode expected payload ++ t.incoming ∧ t.sent = s.sent)
    (fun k t => t.sent = s.sent ∧ k ≠ .failed .wrongCode) := by
  refine (readExact_ends headerLen).bind (fun header t ⟨hlen, hin, hsent⟩ => ?_) fun k t h => h
  refine .ofExcept_bind ?_ fun e _ => ⟨hsent, by simp⟩
  rintro ⟨kind, len⟩ hdecode
  obtain ⟨hheader, -, -⟩ := (Frame.decode_eq_ok hlen).mp hdecode
  dsimp only
  split_ifs with hkind
  · exact .stop ⟨hsent, by simp⟩
  · obtain rfl := not_not.mp hkind
    refine ⟨fun payload v hv => ?_, fun k v hk => ?_⟩
    · obtain ⟨hplen, hpin, hpsent⟩ := (readExact_ends len).returned payload v hv
      refine ⟨?_, hpsent.trans hsent⟩
      rw [hin, hpin, hheader, Frame.encode, hplen, List.append_assoc _ payload]
    · obtain ⟨hpsent, hcode⟩ := (readExact_ends len).stopped k v hk
      exact ⟨hpsent.trans hsent, hcode⟩

/-! ## Whatever the device does -/

section Pair

variable {G : Type} [AddCommGroup G] (c : Primitives G) (a : Aead)

/-- The host's side of the exchange. -/
def host (code exported wide : Bytes) : Spake2 := Spake2.new c .alice clientName serverName (code ++ exported) wide

/-- The packet with the host's public key, under a key agreed on. -/
def keyPacket (material mine : Bytes) : Bytes :=
  Frame.encode .peerInfo (a.encrypt (a.expand material) (Cipher.nonce 0) mine)

/-- What has left the host between `s` and `t`. -/
inductive Sent (line code wide : Bytes) (s t : Transport ε) : Prop
  | nothing (h : t.sent = s.sent)
  | greeting (exported p : Bytes) (hex : s.exporter = .ok exported)
      (hp : p <+: Frame.encode .spake2Msg (host c code exported wide).myMsg) (h : t.sent = s.sent ++ p)
  /-- The public key, and only sealed, after a SPAKE2 message of the device that was in order. -/
  | key (exported theirs material mine rest p : Bytes) (hex : s.exporter = .ok exported)
      (hheard : s.incoming = Frame.encode .spake2Msg theirs ++ rest) (hlen : theirs.length = 32)
      (hfinish : (host c code exported wide).finish c theirs = .ok material)
      (hmine : PeerInfo.encode .rsaPublicKey line = .ok mine) (hp : p <+: keyPacket a material mine)
      (h : t.sent = s.sent ++ Frame.encode .spake2Msg (host c code exported wide).myMsg ++ p)

/-- The device's packets came in full, and its half opens to `opened` under the key agreed on. -/
def Answered (code wide : Bytes) (s : Transport ε) (opened : Option Bytes) : Prop :=
  ∃ exported theirs material answer rest, s.exporter = .ok exported ∧ theirs.length = 32 ∧
    (host c code exported wide).finish c theirs = .ok material ∧ answer.length = PeerInfo.size + tagLen ∧
    s.incoming = Frame.encode .spake2Msg theirs ++ (Frame.encode .peerInfo answer ++ rest) ∧
    a.decrypt (a.expand material) (Cipher.nonce 0) answer = opened

/-- All that a host sends. -/
def SentAll (line code wide : Bytes) (s t : Transport ε) : Prop :=
  ∃ exported theirs material mine rest, s.exporter = .ok exported ∧
    s.incoming = Frame.encode .spake2Msg theirs ++ rest ∧
    (host c code exported wide).finish c theirs = .ok material ∧ PeerInfo.encode .rsaPublicKey line = .ok mine ∧
    t.sent = s.sent ++ Frame.encode .spake2Msg (host c code exported wide).myMsg ++ keyPacket a material mine

variable {c a} {line code wide : Bytes} {t : Transport ε}

theorem messageOf_ok {theirs msg : Bytes} (h : (messageOf theirs : Except (PairingError ε) Bytes) = .ok msg) :
    msg = theirs ∧ theirs.length = 32 := by
  unfold messageOf at h
  split_ifs at h with hlen
  cases h
  exact ⟨rfl, hlen⟩

theorem messageOf_error {theirs : Bytes} {e : PairingError ε} (h : messageOf theirs = .error e) : e ≠ .wrongCode := by
  unfold messageOf at h
  split_ifs at h
  cases h
  simp

theorem readAnswer_ok {cipher : Cipher} {answer : Bytes} {p : Paired}
    (h : (readAnswer a cipher answer : Except (PairingError ε) Paired) = .ok p) :
    answer.length = PeerInfo.size + tagLen ∧
      ∃ block, a.decrypt cipher.key (Cipher.nonce cipher.decryptCounter) answer = some block ∧
        PeerInfo.decode block = .ok (.deviceGuid, p.guid) := by
  unfold readAnswer Cipher.open at h
  split_ifs at h with hlen
  refine ⟨not_not.mp hlen, ?_⟩
  cases hdec : a.decrypt cipher.key (Cipher.nonce cipher.decryptCounter) answer with
  | none =>
    rw [hdec] at h
    cases h
  | some block =>
    rw [hdec] at h
    simp only [Option.map_some] at h
    refine ⟨block, rfl, ?_⟩
    split at h
    · cases h
    · rename_i kind guid hblock
      split_ifs at h with hkind
      cases h
      rw [hblock, not_not.mp hkind]

theorem readAnswer_wrongCode {cipher : Cipher} {answer : Bytes}
    (h : (readAnswer a cipher answer : Except (PairingError ε) Paired) = .error .wrongCode) :
    answer.length = PeerInfo.size + tagLen ∧
      a.decrypt cipher.key (Cipher.nonce cipher.decryptCounter) answer = none := by
  unfold readAnswer Cipher.open at h
  split_ifs at h with hlen
  · cases h
  refine ⟨not_not.mp hlen, ?_⟩
  cases hdec : a.decrypt cipher.key (Cipher.nonce cipher.decryptCounter) answer with
  | none => rfl
  | some block =>
    rw [hdec] at h
    simp only [Option.map_some] at h
    split at h
    · cases h
    · split_ifs at h
      cases h

variable (c a line code wide) in
/-- **Whatever the device sends, and wherever the exchange ends**: the public key leaves only sealed, under a key agreed
on; a `Paired` is what the device's own half opened to; and `WrongCode` is one that did not open. -/
theorem pair_tells_only_the_sealed_key (s : Transport ε) : Ends (pair c a line code wide) s
    (fun p t => SentAll c a line code wide s t ∧
      ∃ block, Answered c a code wide s (some block) ∧ PeerInfo.decode block = .ok (.deviceGuid, p.guid))
    (fun k t => Sent c a line code wide s t ∧ (k = .failed .wrongCode → Answered c a code wide s none)) := by
  refine startTls_ends.bind ?_ fun k t ⟨ht, hk⟩ => ⟨.nothing (ht ▸ rfl), fun h => absurd h hk⟩
  rintro - s1 rfl
  refine export_ends.bind ?_ fun k t ⟨ht, hk⟩ => ⟨.nothing (ht ▸ rfl), fun h => absurd h hk⟩
  rintro exported s1 ⟨rfl, hex⟩
  refine (send_ends _ _).bind ?_ fun k t ⟨⟨p, hp, hsent⟩, hk⟩ =>
    ⟨.greeting exported p hex hp hsent, fun h => absurd h hk⟩
  rintro - s2 ⟨hin2, hsent2⟩
  have hgreeted : ∀ t : Transport ε, t.sent = s2.sent → Sent c a line code wide s1 t := fun t ht =>
    .greeting exported _ hex List.prefix_rfl (ht.trans hsent2)
  refine (recv_ends _).bind ?_ fun k t ⟨hsent, hk⟩ => ⟨hgreeted t hsent, fun h => absurd h hk⟩
  rintro theirs s3 ⟨hin3, hsent3⟩
  refine .ofExcept_bind (fun msg hmsg => ?_) fun e he =>
    ⟨hgreeted s3 hsent3, fun heq => absurd (Stop.failed.inj heq) (messageOf_error he)⟩
  obtain ⟨rfl, hlen⟩ := messageOf_ok hmsg
  refine .ofExcept_bind (fun material hfinish => ?_) fun e _ => ⟨hgreeted s3 hsent3, by simp⟩
  refine .ofExcept_bind (fun mine hmine => ?_) fun e _ => ⟨hgreeted s3 hsent3, by simp⟩
  have hheard : s1.incoming = Frame.encode .spake2Msg msg ++ s3.incoming := hin2 ▸ hin3
  have hkey : ∀ (u : Transport ε) (p : Bytes), p <+: keyPacket a material mine → u.sent = s3.sent ++ p →
      Sent c a line code wide s1 u := fun u p hp hu =>
    .key exported msg material mine s3.incoming p hex hheard hlen hfinish hmine hp (by rw [hu, hsent3, hsent2]; rfl)
  refine (send_ends _ _).bind ?_ fun k t ⟨⟨p, hp, hsent⟩, hk⟩ => ⟨hkey t p hp hsent, fun h => absurd h hk⟩
  rintro - s4 ⟨hin4, hsent4⟩
  refine (recv_ends _).bind ?_ fun k t ⟨hsent, hk⟩ =>
    ⟨hkey t _ List.prefix_rfl (hsent.trans hsent4), fun h => absurd h hk⟩
  rintro answer s5 ⟨hin5, hsent5⟩
  have hall : s1.incoming = Frame.encode .spake2Msg msg ++ (Frame.encode .peerInfo answer ++ s5.incoming) := by
    rw [hheard, ← hin4, hin5]
  refine .ofExcept (fun p hp => ?_) fun e he => ⟨hkey s5 _ List.prefix_rfl (hsent5.trans hsent4), fun hcode => ?_⟩
  · obtain ⟨hsize, block, hdec, hblock⟩ := readAnswer_ok hp
    refine ⟨⟨exported, msg, material, mine, s3.incoming, hex, hheard, hfinish, hmine, ?_⟩, block,
      ⟨exported, msg, material, answer, s5.incoming, hex, hlen, hfinish, hsize, hall, hdec⟩, hblock⟩
    rw [hsent5, hsent4, hsent3, hsent2]
    rfl
  · cases hcode
    obtain ⟨hsize, hdec⟩ := readAnswer_wrongCode he
    exact ⟨exported, msg, material, answer, s5.incoming, hex, hlen, hfinish, hsize, hall, hdec⟩

end Pair

/-! ## With a device that plays its part -/

/-- The next so many reads, writes and flushes go through. -/
structure Transport.Willing (s : Transport ε) (reads writes flushes : ℕ) : Prop where
  reads : List.replicate reads none <+: s.reads
  writes : List.replicate writes none <+: s.writes
  flushes : List.replicate flushes none <+: s.flushes

variable {r w f : ℕ}

theorem readExact_returns {n : ℕ} (h : s.Willing (r + 1) w f) (hn : n ≤ s.incoming.length) :
    ∃ t, readExact n s = (.ok (s.incoming.take n), t) ∧ t.Willing r w f ∧ t.incoming = s.incoming.drop n ∧
      t.sent = s.sent := by
  obtain ⟨rest, hrest⟩ := h.reads
  refine ⟨{ s with reads := List.replicate r none ++ rest, incoming := s.incoming.drop n }, ?_,
    ⟨List.prefix_append _ _, h.writes, h.flushes⟩, rfl, rfl⟩
  simp only [readExact, ← hrest, List.replicate_succ, List.cons_append, if_pos hn]

theorem send_returns {kind : PacketType} {payload : Bytes} (h : s.Willing r (w + 1) (f + 1)) :
    ∃ t, send kind payload s = (.ok (), t) ∧ t.Willing r w f ∧ t.incoming = s.incoming ∧
      t.sent = s.sent ++ Frame.encode kind payload := by
  obtain ⟨writes, hwrites⟩ := h.writes
  obtain ⟨flushes, hflushes⟩ := h.flushes
  have hwrite : writeAll (Frame.encode kind payload) s =
      (.ok (), { s with writes := List.replicate w none ++ writes, sent := s.sent ++ Frame.encode kind payload }) := by
    simp only [writeAll, ← hwrites, List.replicate_succ, List.cons_append]
  refine ⟨{ s with
    writes := List.replicate w none ++ writes
    sent := s.sent ++ Frame.encode kind payload
    flushes := List.replicate f none ++ flushes }, ?_,
    ⟨h.reads, List.prefix_append _ _, List.prefix_append _ _⟩, rfl, rfl⟩
  rw [send, bind_of_ok hwrite]
  simp only [flush, ← hflushes, List.replicate_succ, List.cons_append]

theorem recv_returns {kind : PacketType} {payload rest : Bytes} (h : s.Willing (r + 2) w f)
    (hin : s.incoming = Frame.encode kind payload ++ rest) (hpos : payload ≠ []) (hmax : payload.length ≤ maxPayload) :
    ∃ t, recv kind s = (.ok payload, t) ∧ t.Willing r w f ∧ t.incoming = rest ∧ t.sent = s.sent := by
  obtain ⟨s1, hread1, hw1, hin1, hsent1⟩ := @readExact_returns ε s (r + 1) w f headerLen h
    (by rw [hin, List.length_append, Frame.length_encode]; omega)
  rw [hin, Frame.take_encode] at hread1
  rw [hin, Frame.drop_encode] at hin1
  obtain ⟨s2, hread2, hw2, hin2, hsent2⟩ := @readExact_returns ε s1 r w f payload.length hw1 (by simp [hin1])
  rw [hin1, List.take_left] at hread2
  rw [hin1, List.drop_left] at hin2
  refine ⟨s2, ?_, hw2, hin2, hsent2.trans hsent1⟩
  rw [recv, bind_of_ok hread1, Frame.decode_encode kind hpos hmax, bind_of_ok (ofExcept_ok _ _ _)]
  simp only [ne_eq, not_true_eq_false, if_false]
  exact hread2

/-- A device with a code on its screen. -/
structure Device where
  code : Bytes
  exported : Bytes
  wide : Bytes
  guid : Bytes
  deriving DecidableEq, Repr

/-- The packet at the front, and what is behind it. -/
def Frame.split (stream : Bytes) : Option (PacketType × Bytes × Bytes) :=
  match Frame.decode (stream.take headerLen) with
  | .error _ => none
  | .ok (kind, len) =>
    if len ≤ (stream.drop headerLen).length then
      some (kind, (stream.drop headerLen).take len, (stream.drop headerLen).drop len)
    else none

theorem Frame.split_encode (kind : PacketType) {payload : Bytes} (rest : Bytes) (hpos : payload ≠ [])
    (hmax : payload.length ≤ maxPayload) :
    Frame.split (Frame.encode kind payload ++ rest) = some (kind, payload, rest) := by
  unfold Frame.split
  rw [Frame.take_encode, Frame.drop_encode, Frame.decode_encode kind hpos hmax]
  simp

namespace Device

variable {G : Type} [AddCommGroup G] (c : Primitives G) (a : Aead)

/-- The device's side of the exchange. -/
def spake2 (d : Device) : Spake2 := Spake2.new c .bob serverName clientName (d.code ++ d.exported) d.wide

/-- What it sends to a host that has sent `theirs`: its message, and its GUID. -/
def stream (d : Device) (theirs : Bytes) : Option Bytes :=
  match (d.spake2 c).finish c theirs, PeerInfo.encode .deviceGuid d.guid with
  | .ok material, .ok block => some (Frame.encode .spake2Msg (d.spake2 c).myMsg ++
      Frame.encode .peerInfo ((Cipher.new a material).seal a block).1)
  | _, _ => none

/-- The public key it learns from what a host has sent. -/
def learns (d : Device) (sent : Bytes) : Option Bytes :=
  match Frame.split sent with
  | some (.spake2Msg, theirs, rest) =>
    match (d.spake2 c).finish c theirs, Frame.split rest with
    | .ok material, some (.peerInfo, sealed, _) =>
      match (Cipher.new a material).open a sealed with
      | some (block, _) =>
        match PeerInfo.decode block with
        | .ok (.rsaPublicKey, line) => some line
        | _ => none
      | none => none
    | _, _ => none
  | _ => none

end Device

section Agreement

variable {G : Type} [AddCommGroup G] (c : Primitives G) (a : Aead)

/-- With one code and in one session, the host and the device come to the same key material. -/
theorem host_device_agree (d : Device) (wide : Bytes) :
    ∃ material, (host c d.code d.exported wide).finish c (d.spake2 c).myMsg = .ok material ∧
      (d.spake2 c).finish c (host c d.code d.exported wide).myMsg = .ok material := by
  obtain ⟨transcript, hhost, hdevice⟩ := finish_agrees c (d.code ++ d.exported) clientName serverName wide d.wide
  exact ⟨c.sha512 transcript, hhost, hdevice⟩

theorem ne_nil_of_length {b : Bytes} {n : ℕ} (h : b.length = n + 1) : b ≠ [] :=
  List.length_pos_iff.mp (h ▸ n.succ_pos)

/-- The host, await by await, with a device that has the same code. -/
theorem pair_returns (hcurve : ∀ p, (c.compress p).length = 32) (d : Device) (line wide : Bytes)
    (hline : PeerInfo.Carried line) (hguid : PeerInfo.Carried d.guid) (s : Transport ε)
    (hstart : s.start = some (.ok ())) (hex : s.exporter = .ok d.exported)
    (hin : d.stream c a (host c d.code d.exported wide).myMsg = some s.incoming) (hwilling : s.Willing 4 2 2) :
    ∃ material mine t, (d.spake2 c).finish c (host c d.code d.exported wide).myMsg = .ok material ∧
      PeerInfo.encode .rsaPublicKey line = .ok mine ∧ pair c a line d.code wide s = (.ok ⟨d.guid⟩, t) ∧
      t.sent = s.sent ++ Frame.encode .spake2Msg (host c d.code d.exported wide).myMsg ++ keyPacket a material mine := by
  obtain ⟨material, hmine, htheirs⟩ := host_device_agree c d wide
  obtain ⟨block, hblock⟩ : ∃ block, PeerInfo.encode .deviceGuid d.guid = .ok block :=
    ⟨_, PeerInfo.encode_ok hguid.fits _⟩
  obtain ⟨mine, hkey⟩ : ∃ mine, PeerInfo.encode .rsaPublicKey line = .ok mine := ⟨_, PeerInfo.encode_ok hline.fits _⟩
  let key := a.expand material
  let answer := a.encrypt key (Cipher.nonce 0) block
  let theirs := (d.spake2 c).myMsg
  have htheirsLen : theirs.length = 32 := hcurve _
  have hanswer : answer.length = 8208 := by rw [a.length_encrypt, PeerInfo.length_of_encode hblock]; rfl
  have hstream : s.incoming = Frame.encode .spake2Msg theirs ++ (Frame.encode .peerInfo answer ++ []) := by
    simp only [Device.stream, htheirs, hblock, Option.some.injEq] at hin
    rw [← hin, List.append_nil]
    rfl
  obtain ⟨s1, hrun1, hw1, hin1, hsent1⟩ := @send_returns ε s 4 1 1 .spake2Msg
    (host c d.code d.exported wide).myMsg hwilling
  obtain ⟨s2, hrun2, hw2, hin2, hsent2⟩ := @recv_returns ε s1 2 1 1 .spake2Msg theirs
    (Frame.encode .peerInfo answer ++ []) hw1 (hin1.trans hstream) (ne_nil_of_length htheirsLen)
    (by rw [htheirsLen]; decide)
  obtain ⟨s3, hrun3, hw3, hin3, hsent3⟩ := @send_returns ε s2 2 0 0 .peerInfo (a.encrypt key (Cipher.nonce 0) mine) hw2
  obtain ⟨s4, hrun4, -, -, hsent4⟩ := @recv_returns ε s3 0 0 0 .peerInfo answer [] hw3
    (hin3.trans hin2) (ne_nil_of_length hanswer) (by rw [hanswer]; decide)
  refine ⟨material, mine, s4, htheirs, hkey, ?_, by rw [hsent4, hsent3, hsent2, hsent1]; rfl⟩
  · have hstarted : startTls s = (.ok (), s) := by simp only [startTls, hstart]
    have hexported : exportKeyingMaterial s = (.ok d.exported, s) := by
      simp only [exportKeyingMaterial, hex, ofExcept_ok]
    have hmsg : (messageOf theirs : Except (PairingError ε) Bytes) = .ok theirs := if_pos htheirsLen
    have hread : (readAnswer a ⟨key, 1, 0⟩ answer : Except (PairingError ε) Paired) = .ok ⟨d.guid⟩ := by
      have hopen : Cipher.open a ⟨key, 1, 0⟩ answer = some (block, ⟨key, 1, 1⟩) := by
        simp only [Cipher.open, answer, a.decrypt_encrypt, Option.map_some]
      have hsize : answer.length = PeerInfo.size + tagLen := hanswer
      rw [readAnswer, if_neg (not_not.mpr hsize), hopen]
      simp [PeerInfo.decode_of_encode hguid hblock]
    refine (bind_of_ok hstarted).trans ((bind_of_ok hexported).trans ((bind_of_ok hrun1).trans
      ((bind_of_ok hrun2).trans ?_)))
    rw [hmsg]
    refine (bind_of_ok (ofExcept_ok _ _ _)).trans ?_
    rw [show Spake2.finish c (Spake2.new c .alice _ _ _ _) theirs = .ok material from hmine]
    refine (bind_of_ok (ofExcept_ok _ _ _)).trans ?_
    rw [hkey]
    refine (bind_of_ok (ofExcept_ok _ _ _)).trans ((bind_of_ok hrun3).trans ((bind_of_ok hrun4).trans ?_))
    exact congrArg (fun r => ofExcept Stop.failed r s4) hread

/-- **Pairing goes through** with a device that has the same code: the host gets the device's GUID, and the device the
host's public key. -/
theorem pair_agrees_with_device (hcurve : ∀ p, (c.compress p).length = 32) (d : Device) (line wide : Bytes)
    (hline : PeerInfo.Carried line) (hguid : PeerInfo.Carried d.guid) (s : Transport ε)
    (hstart : s.start = some (.ok ())) (hex : s.exporter = .ok d.exported)
    (hin : d.stream c a (host c d.code d.exported wide).myMsg = some s.incoming) (hsent : s.sent = [])
    (hwilling : s.Willing 4 2 2) :
    ∃ t, pair c a line d.code wide s = (.ok ⟨d.guid⟩, t) ∧ d.learns c a t.sent = some line := by
  obtain ⟨material, mine, t, htheirs, hkey, hpair, hall⟩ :=
    pair_returns c a hcurve d line wide hline hguid s hstart hex hin hwilling
  refine ⟨t, hpair, ?_⟩
  let sealed := a.encrypt (a.expand material) (Cipher.nonce 0) mine
  have hours : (host c d.code d.exported wide).myMsg.length = 32 := hcurve _
  have hsealed : sealed.length = 8208 := by rw [a.length_encrypt, PeerInfo.length_of_encode hkey]; rfl
  have hopen : (Cipher.new a material).open a sealed = some (mine, ⟨a.expand material, 0, 1⟩) := by
    simp only [Cipher.open, Cipher.new, sealed, a.decrypt_encrypt, Option.map_some]
  rw [hsent, List.nil_append, keyPacket, ← List.append_nil (Frame.encode .peerInfo _)] at hall
  unfold Device.learns
  rw [hall, Frame.split_encode .spake2Msg _ (ne_nil_of_length hours) (by rw [hours]; decide)]
  dsimp only
  rw [htheirs, Frame.split_encode .peerInfo _ (ne_nil_of_length hsealed) (by rw [hsealed]; decide)]
  dsimp only
  rw [hopen]
  dsimp only
  rw [PeerInfo.decode_of_encode hline hkey]

end Agreement

/-! ### A session to pair in -/

/-- Sealing that only adds a tag. -/
def plainAead : Aead where
  expand := id
  encrypt _ _ msg := msg ++ List.replicate tagLen 0
  decrypt _ _ ciphertext := some (ciphertext.take (ciphertext.length - tagLen))
  decrypt_encrypt _ _ msg := by simp
  length_encrypt _ _ msg := by simp

/-- A device with the code 12, in a session without keying material. -/
def sampleDevice : Device := ⟨[49, 50], [], List.replicate 64 5, [103]⟩

/-- A session in which every call goes through. -/
def sampleSession (incoming : Bytes) : Transport Unit :=
  ⟨some (.ok ()), .ok [], incoming, List.replicate 4 none, List.replicate 2 none, List.replicate 2 none, []⟩

theorem sampleSession_willing (incoming : Bytes) : (sampleSession incoming).Willing 4 2 2 :=
  ⟨List.prefix_rfl, List.prefix_rfl, List.prefix_rfl⟩

/-- The host's public key and the device's GUID fit their blocks. -/
theorem sample_carried : PeerInfo.Carried [107] ∧ PeerInfo.Carried sampleDevice.guid :=
  ⟨⟨by decide, by decide, by decide⟩, ⟨by decide, by decide, by decide⟩⟩

theorem sampleDevice_speaks (theirs material : Bytes)
    (h : (sampleDevice.spake2 residues).finish residues theirs = .ok material) :
    ∃ incoming, sampleDevice.stream residues plainAead theirs = some incoming := by
  obtain ⟨block, hblock⟩ : ∃ block, PeerInfo.encode .deviceGuid sampleDevice.guid = .ok block :=
    ⟨_, PeerInfo.encode_ok (by decide) _⟩
  rw [Device.stream, h, hblock]
  exact ⟨_, rfl⟩

/-- The pairing over the residues. -/
theorem pair_agrees_with_device_residues :
    ∃ incoming t, pair residues plainAead [107] sampleDevice.code (List.replicate 64 3) (sampleSession incoming) =
      (.ok ⟨sampleDevice.guid⟩, t) ∧ sampleDevice.learns residues plainAead t.sent = some [107] := by
  obtain ⟨material, -, htheirs⟩ := host_device_agree residues sampleDevice (List.replicate 64 3)
  obtain ⟨incoming, hin⟩ := sampleDevice_speaks _ material htheirs
  exact ⟨incoming, pair_agrees_with_device residues plainAead (fun p => LeBytes.length_ofNat _ _) sampleDevice [107]
    (List.replicate 64 3) sample_carried.1 sample_carried.2 (sampleSession incoming) rfl rfl hin rfl
    (sampleSession_willing incoming)⟩

/-- The same session, and what it tells the device. -/
theorem pair_tells_only_the_sealed_key_residues :
    ∃ incoming t, pair residues plainAead [107] sampleDevice.code (List.replicate 64 3) (sampleSession incoming) =
      (.ok ⟨sampleDevice.guid⟩, t) ∧
      SentAll residues plainAead [107] sampleDevice.code (List.replicate 64 3) (sampleSession incoming) t := by
  obtain ⟨material, -, htheirs⟩ := host_device_agree residues sampleDevice (List.replicate 64 3)
  obtain ⟨incoming, hin⟩ := sampleDevice_speaks _ material htheirs
  obtain ⟨-, -, t, -, -, hpair, -⟩ := pair_returns residues plainAead (fun p => LeBytes.length_ofNat _ _) sampleDevice
    [107] (List.replicate 64 3) sample_carried.1 sample_carried.2 (sampleSession incoming) rfl rfl hin
    (sampleSession_willing incoming)
  exact ⟨incoming, t, hpair, ((pair_tells_only_the_sealed_key residues plainAead [107] sampleDevice.code
    (List.replicate 64 3) (sampleSession incoming)).returned _ _ hpair).1⟩

end LibAdb.Pairing
