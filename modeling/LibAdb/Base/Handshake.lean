import LibAdb.Base.Banner
import LibAdb.Base.Wire.Recv
import LibAdb.Base.Wire.Send

/-!
# LibAdb.Base.Handshake — CNXN, AUTH and STLS

`base/connection/handshake.rs` and `base/connection/tls.rs`.  A handshake runs in a `World` that says what the device
sends, how its bytes are cut, how each write ends, what the authenticator answers and whether TLS comes up; a script
that runs out is a handshake that is dropped there.  The world keeps a log of what the handshake did.

`Phase` is the specification: an automaton that reads the log and gets stuck at a signature or a key that the device
did not have to be given, and at TLS started over bytes that are already buffered.  `handshake_discloses_little`: no
handshake gets it stuck.
-/

namespace LibAdb

open Incremental

/-! ## The world of a handshake -/

/-- `AUTH_TOKEN_LEN` -/
def authTokenLen : ℕ := 20

/-- `STLS_VERSION` -/
def stlsVersion : UInt32 := 0x01000000

inductive AuthKind where
  | token
  | signature
  | publicKey
  deriving DecidableEq, Repr

/-- `TryFrom<u32> for AuthKind` -/
def AuthKind.tryFrom (v : UInt32) : Option AuthKind :=
  if v = 1 then some .token else if v = 2 then some .signature else if v = 3 then some .publicKey else none

/-- `Packet::auth_signature` -/
def Packet.authSignature (signature : Bytes) : Packet := ⟨.auth, 2, 0, signature⟩

/-- `Packet::auth_public_key` -/
def Packet.authPublicKey (key : Bytes) : Packet := ⟨.auth, 3, 0, key⟩

/-- An AUTH packet of the given kind. -/
def Packet.isAuth (pkt : Packet) (kind : AuthKind) : Prop :=
  pkt.command = .auth ∧ AuthKind.tryFrom pkt.arg0 = some kind

instance (pkt : Packet) (kind : AuthKind) : Decidable (pkt.isAuth kind) := by
  unfold Packet.isAuth
  infer_instance

/-- What a handshake does, in order; `sent` is a send begun, `startTls` carries what is buffered then. -/
inductive HsEvent where
  | sent (pkt : Packet)
  | signed (token : Bytes)
  | received (pkt : Packet)
  /-- `offer_public_key` was asked. -/
  | consulted (offer : Bool)
  | startTls (buffered : Bytes)
  deriving DecidableEq

/-- How a step of a handshake ends. -/
inductive HsResult (α : Type) where
  | ok (a : α)
  | failed (e : Error)
  | dropped

/-- What the caller gives, besides the transport. -/
structure HsParams [Usize] where
  banner : HostBanner
  config : ConnectionConfig
  maxBannerProperties : ℕ
  /-- `T::is_key_rejected` -/
  keyRejected : ErrorKind → Bool

/-- Everything a handshake meets, and its log.  `stream` is all the current stream brings, before TLS or inside it, and
`items` what was decoded from it. -/
structure World where
  inbound : Inbound
  secure : Bytes
  outbound : Outbound
  reads : List (List (Option Got))
  writes : List Io
  signs : List (Except String Bytes)
  /-- What `offer_public_key` and `public_key` answer, call by call. -/
  offers : List Bool
  keys : List Bytes
  tls : Option (Except ErrorKind Unit)
  log : List HsEvent
  stream : Bytes
  items : List Item

def World.note (w : World) (e : HsEvent) : World := { w with log := w.log ++ [e] }

/-- `?` -/
def HsResult.andThen {α β : Type} (r : HsResult α × World) (f : α → World → HsResult β × World) : HsResult β × World :=
  match r with
  | (.ok a, w) => f a w
  | (.failed e, w) => (.failed e, w)
  | (.dropped, w) => (.dropped, w)

/-- `map_err` -/
def HsResult.mapErr {α : Type} (r : HsResult α × World) (f : World → Error → Error) : HsResult α × World :=
  match r with
  | (.failed e, w) => (.failed (f w e), w)
  | r => r

inductive Verdict where
  | connected (pkt : Packet)
  | startTls (pkt : Packet)

/-- `Verdict::of` -/
def Verdict.of (pkt : Packet) : Except Packet Verdict :=
  match pkt.command with
  | .connect => .ok (.connected pkt)
  | .startTls => .ok (.startTls pkt)
  | _ => .error pkt

namespace Handshake

variable [Usize] (hs : HsParams)

/-! ## The handshake -/

/-- The world after a `recv_pkt` that ended with `o`. -/
def afterRecv (w : World) (o : Outcome) (inbound : Inbound) (reads : List (List (Option Got))) : World :=
  { w with
    inbound := inbound
    reads := reads
    items := w.items ++ o.item.toList }

/-- The loop of `Handshake::recv`, one call of `recv_pkt` per script. -/
def recvFrom (maxPayload : UInt32) : List (List (Option Got)) → World → HsResult Packet × World
  | [], w => (.dropped, w)
  | script :: reads, w =>
    match recvPktOr maxPayload true (script.map fun g => ⟨none, g.map fun g => (0, g)⟩) w.inbound with
    | (.packet pkt, inbound) =>
      let w := (afterRecv w (.packet pkt) inbound reads).note (.received pkt)
      match pkt.command with
      | .connect | .auth | .startTls => (.ok pkt, w)
      | .close | .ready | .write | .«open» => recvFrom maxPayload reads w
      | .sync => (.failed (.protocol (.unexpectedCommand .sync)), w)
    | (.failed e, inbound) => (.failed e, afterRecv w (.failed e) inbound reads)
    | (o, inbound) => (.dropped, afterRecv w o inbound reads)

/-- `Handshake::recv` -/
def recv (w : World) : HsResult Packet × World := recvFrom (UInt32.ofNat hs.config.maxPayload) w.reads w

omit [Usize] in
/-- `Handshake::send` -/
def send (pkt : Packet) (w : World) : HsResult Unit × World :=
  let w := w.note (.sent pkt)
  match w.writes with
  | [] => (.dropped, w)
  | io :: writes =>
    match sendPkt pkt .compute io w.outbound with
    | (.ok, o) => (.ok (), { w with writes := writes, outbound := o })
    | (.err e, o) => (.failed e, { w with writes := writes, outbound := o })
    | (.dropped, o) => (.dropped, { w with writes := writes, outbound := o })

omit [Usize] in
/-- `auth.sign(&token)` -/
def sign (token : Bytes) (w : World) : HsResult Bytes × World :=
  let w := w.note (.signed token)
  match w.signs with
  | [] => (.dropped, w)
  | .ok signature :: signs => (.ok signature, { w with signs := signs })
  | .error text :: signs => (.failed (.auth (.signFailed text)), { w with signs := signs })

omit [Usize] in
/-- `auth.offer_public_key()` -/
def offerPublicKey (w : World) : HsResult Bool × World :=
  match w.offers with
  | [] => (.dropped, w)
  | offer :: offers => (.ok offer, { w.note (.consulted offer) with offers := offers })

omit [Usize] in
/-- `auth.public_key()` -/
def publicKey (w : World) : HsResult Bytes × World :=
  match w.keys with
  | [] => (.dropped, w)
  | key :: keys => (.ok key, { w with keys := keys })

/-- `do_auth` -/
def doAuth (token : Bytes) (w : World) : HsResult Verdict × World :=
  if token.length ≠ authTokenLen then (.failed (.protocol (.invalidAuthToken token.length)), w)
  else
    HsResult.andThen (sign token w) fun signature w =>
    HsResult.andThen (send (.authSignature signature) w) fun _ w =>
    HsResult.andThen (recv hs w) fun pkt w =>
    match Verdict.of pkt with
    | .ok verdict => (.ok verdict, w)
    | .error resp =>
      if ¬ resp.isAuth .token then (.failed (.auth .rejected), w)
      else
        HsResult.andThen (offerPublicKey w) fun offer w =>
        if ¬ offer then (.failed (.auth .keyNotTrusted), w)
        else
          HsResult.andThen (publicKey w) fun key w =>
          HsResult.andThen (send (.authPublicKey key) w) fun _ w =>
          HsResult.andThen (recv hs w) fun pkt w =>
          match Verdict.of pkt with
          | .ok verdict => (.ok verdict, w)
          | .error _ => (.failed (.auth .rejected), w)

def hello : Packet := ⟨.connect, adbVersion, UInt32.ofNat hs.config.maxPayload, hs.banner.toBytes⟩

/-- `Handshake::open` -/
def «open» (w : World) : HsResult Verdict × World :=
  HsResult.andThen (send (hello hs) w) fun _ w =>
  HsResult.andThen (recv hs w) fun pkt w =>
  match Verdict.of pkt with
  | .ok verdict => (.ok verdict, w)
  | .error pkt =>
    if pkt.isAuth .token then doAuth hs pkt.data w
    else (.failed (.protocol (.unexpectedCommand pkt.command)), w)

/-- `Handshake::assemble` -/
def assemble (cnxn : Packet) (w : World) : HsResult (Negotiated × DeviceBanner) × World :=
  match Negotiated.new hs.banner.toBytes cnxn hs.config hs.maxBannerProperties with
  | .ok c => (.ok c, w)
  | .error e => (.failed (.protocol e), w)

/-- `Connection::connect` -/
def connect (w : World) : HsResult (Negotiated × DeviceBanner) × World :=
  HsResult.andThen («open» hs w) fun verdict w =>
  match verdict with
  | .connected cnxn => assemble hs cnxn w
  | .startTls _ => (.failed (.protocol .tlsRequired), w)

/-- `classify_before_cnxn` -/
def classifyBeforeCnxn (w : World) : Error → Error
  | .unexpectedEof => if w.inbound.buf = [] then .auth .tlsClosedBeforeConnect else .unexpectedEof
  | .io kind => if hs.keyRejected kind then .auth .tlsKeyNotTrusted else .io kind
  | e => e

omit [Usize] in
/-- `transport.start_tls`: from here on the stream is the one inside TLS; the receive buffer stays. -/
def startTls (w : World) : HsResult Unit × World :=
  let w := { w.note (.startTls w.inbound.buf) with
    inbound := ⟨w.inbound.buf, w.secure⟩
    stream := w.secure
    items := [] }
  match w.tls with
  | none => (.dropped, w)
  | some (.error kind) => (.failed (.io kind), w)
  | some (.ok ()) => (.ok (), w)

/-- `Handshake::upgrade` -/
def upgrade (w : World) : HsResult Packet × World :=
  if w.inbound.buf ≠ [] then (.failed (.protocol .dataAfterStls), w)
  else
    HsResult.andThen (send ⟨.startTls, stlsVersion, 0, []⟩ w) fun _ w =>
    HsResult.andThen (startTls w) fun _ w =>
    HsResult.andThen (HsResult.mapErr (recv hs w) (classifyBeforeCnxn hs)) fun pkt w =>
    if pkt.command = .connect then (.ok pkt, w)
    else if pkt.isAuth .token then
      HsResult.andThen (HsResult.mapErr (doAuth hs pkt.data w) (classifyBeforeCnxn hs)) fun verdict w =>
      match verdict with
      | .connected cnxn => (.ok cnxn, w)
      | .startTls _ => (.failed (.protocol (.unexpectedCommand .startTls)), w)
    else (.failed (.protocol (.unexpectedCommand pkt.command)), w)

/-- `Connection::connect_tls` -/
def connectTls (w : World) : HsResult (Negotiated × DeviceBanner) × World :=
  HsResult.andThen («open» hs w) fun verdict w =>
  HsResult.andThen (match verdict with
    | .connected cnxn => (.ok cnxn, w)
    | .startTls _ => upgrade hs w) fun cnxn w =>
  assemble hs cnxn w

end Handshake

/-! ## The specification -/

/-- Where an authentication phase stands. -/
inductive Phase where
  /-- Nothing asked for. -/
  | idle
  /-- The device sent this TOKEN, of the required length. -/
  | challenged (token : Bytes)
  | signed (token : Bytes)
  /-- The signature is out. -/
  | answered
  /-- The device answered the signature with another TOKEN. -/
  | asked
  /-- The authenticator lets the public key go. -/
  | granted
  /-- The public key is out. -/
  | offered
  deriving DecidableEq

namespace Phase

def onReceived (pkt : Packet) : Phase → Phase
  | .idle => if pkt.isAuth .token ∧ pkt.data.length = authTokenLen then .challenged pkt.data else .idle
  | .answered => if pkt.isAuth .token then .asked else .answered
  | p => p

def onConsulted (offer : Bool) : Phase → Phase
  | .asked => if offer then .granted else .asked
  | p => p

/-- One event; `none` where the handshake must not be. -/
def next (p : Phase) : HsEvent → Option Phase
  | .received pkt => some (p.onReceived pkt)
  | .signed token => if p = .challenged token then some (.signed token) else none
  | .sent pkt =>
    if pkt.isAuth .signature then
      match p with
      | .signed _ => some .answered
      | _ => none
    else if pkt.isAuth .publicKey then
      match p with
      | .granted => some .offered
      | _ => none
    else some p
  | .consulted offer => some (p.onConsulted offer)
  | .startTls buffered => if buffered = [] then some .idle else none

/-- The phase a log leads to. -/
def of (log : List HsEvent) : Option Phase := log.foldlM next .idle

theorem of_note (log : List HsEvent) (e : HsEvent) :
    of (log ++ [e]) = (of log).bind fun p => p.next e := by
  unfold of
  rw [List.foldlM_append]
  cases List.foldlM next idle log with
  | none => rfl
  | some p => simp

/-- A packet that is no AUTH changes no phase. -/
theorem onReceived_other {pkt : Packet} (h : pkt.command ≠ .auth) (p : Phase) : p.onReceived pkt = p := by
  have hno : ∀ kind, ¬ pkt.isAuth kind := fun kind hk => h hk.1
  cases p <;> simp [onReceived, hno]

/-! ### What the automaton's logs look like -/

def isSignature : HsEvent → Bool
  | .sent pkt => pkt.isAuth .signature
  | _ => false

def isPublicKey : HsEvent → Bool
  | .sent pkt => pkt.isAuth .publicKey
  | _ => false

/-- How many signatures, and keys, may still go out. -/
def left : Phase → ℕ × ℕ
  | .idle | .challenged _ | .signed _ => (1, 1)
  | .answered | .asked | .granted => (0, 1)
  | .offered => (0, 0)

theorem left_onReceived (pkt : Packet) (p : Phase) : (p.onReceived pkt).left = p.left := by
  cases p with
  | idle | answered => unfold onReceived; split_ifs <;> rfl
  | _ => rfl

theorem left_onConsulted (offer : Bool) (p : Phase) : (p.onConsulted offer).left = p.left := by
  cases p with
  | asked => cases offer <;> rfl
  | _ => rfl

/-- The three kinds of packet the host sends. -/
theorem next_sent {p p' : Phase} {pkt : Packet} (h : p.next (.sent pkt) = some p') :
    (pkt.isAuth .signature ∧ ¬ pkt.isAuth .publicKey ∧ (∃ token, p = .signed token) ∧ p' = .answered) ∨
      (¬ pkt.isAuth .signature ∧ pkt.isAuth .publicKey ∧ p = .granted ∧ p' = .offered) ∨
      (¬ pkt.isAuth .signature ∧ ¬ pkt.isAuth .publicKey ∧ p' = p) := by
  unfold next at h
  dsimp only at h
  by_cases hsig : pkt.isAuth .signature
  · rw [if_pos hsig] at h
    have hkey : ¬ pkt.isAuth .publicKey := fun hk => nomatch hsig.2.symm.trans hk.2
    cases p <;> cases h
    exact .inl ⟨hsig, hkey, ⟨_, rfl⟩, rfl⟩
  · rw [if_neg hsig] at h
    by_cases hkey : pkt.isAuth .publicKey
    · rw [if_pos hkey] at h
      cases p <;> cases h
      exact .inr (.inl ⟨hsig, hkey, rfl, rfl⟩)
    · rw [if_neg hkey] at h
      cases h
      exact .inr (.inr ⟨hsig, hkey, rfl⟩)

/-- One event uses up what it sends. -/
theorem left_next {p p' : Phase} {e : HsEvent} (h : p.next e = some p')
    (he : ∀ b, e ≠ .startTls b) :
    (isSignature e).toNat + p'.left.1 ≤ p.left.1 ∧ (isPublicKey e).toNat + p'.left.2 ≤ p.left.2 := by
  cases e with
  | received pkt =>
    cases h
    simp [isSignature, isPublicKey, left_onReceived]
  | consulted offer =>
    cases h
    simp [isSignature, isPublicKey, left_onConsulted]
  | signed token =>
    unfold next at h
    dsimp only at h
    split_ifs at h with hp
    cases h
    subst hp
    exact ⟨le_rfl, le_rfl⟩
  | startTls b => exact absurd rfl (he b)
  | sent pkt =>
    obtain ⟨hsig, hkey, ⟨token, rfl⟩, rfl⟩ | ⟨hsig, hkey, rfl, rfl⟩ | ⟨hsig, hkey, rfl⟩ := next_sent h
    · simp [isSignature, isPublicKey, hsig, hkey, left]
    · simp [isSignature, isPublicKey, hsig, hkey, left]
    · simp [isSignature, isPublicKey, hsig, hkey]

/-- **A stretch without TLS being started has at most one signature and one key.** -/
theorem sends_le {l : List HsEvent} (hno : ∀ b, HsEvent.startTls b ∉ l) {p p' : Phase}
    (h : l.foldlM next p = some p') :
    l.countP isSignature + p'.left.1 ≤ p.left.1 ∧ l.countP isPublicKey + p'.left.2 ≤ p.left.2 := by
  induction l generalizing p with
  | nil =>
    cases h
    simp
  | cons e l ih =>
    rw [List.foldlM_cons] at h
    obtain ⟨p1, h1, h2⟩ := Option.bind_eq_some_iff.mp h
    have hstep := left_next h1 fun b hb => hno b (hb ▸ List.mem_cons_self)
    have hrest := ih (fun b hb => hno b (List.mem_cons_of_mem _ hb)) h2
    rw [List.countP_cons, List.countP_cons]
    cases hs : isSignature e <;> cases hk : isPublicKey e <;> simp [hs, hk] at hstep ⊢ <;> omega

theorem left_le (p : Phase) : p.left.1 ≤ 1 ∧ p.left.2 ≤ 1 := by cases p <;> simp [left]

/-- `log` ends in the stretch `last`, in which TLS is not started, with `e` at its front. -/
def Since (log : List HsEvent) (e : HsEvent) : Prop :=
  ∃ before last, log = before ++ e :: last ∧ ∀ b, HsEvent.startTls b ∉ last

theorem Since.note {log : List HsEvent} {e e' : HsEvent} (h : Since log e) (he : ∀ b, e' ≠ .startTls b) :
    Since (log ++ [e']) e := by
  obtain ⟨before, last, rfl, hno⟩ := h
  refine ⟨before, last ++ [e'], by simp, fun b hb => ?_⟩
  rcases List.mem_append.mp hb with hb | hb
  · exact hno b hb
  · exact he b (List.mem_singleton.mp hb).symm

/-- Any event of an accepted log was allowed where it stands. -/
theorem of_split {a b : List HsEvent} {e : HsEvent} {p : Phase} (h : of (a ++ e :: b) = some p) :
    ∃ p1 p2, of a = some p1 ∧ p1.next e = some p2 := by
  unfold of at h
  rw [List.foldlM_append] at h
  obtain ⟨p1, h1, h2⟩ := Option.bind_eq_some_iff.mp h
  rw [List.foldlM_cons] at h2
  obtain ⟨p2, h2, -⟩ := Option.bind_eq_some_iff.mp h2
  exact ⟨p1, p2, h1, h2⟩

/-- What led to a phase. -/
def Earned (log : List HsEvent) : Phase → Prop
  | .challenged token | .signed token =>
    ∃ pkt, Since log (.received pkt) ∧ pkt.isAuth .token ∧ pkt.data = token ∧ token.length = authTokenLen
  | .answered => ∃ sig, Since log (.sent sig) ∧ sig.isAuth .signature
  | .asked => ∃ before sig mid pkt last, log = before ++ .sent sig :: mid ++ .received pkt :: last ∧
      sig.isAuth .signature ∧ pkt.isAuth .token ∧ ∀ b, HsEvent.startTls b ∉ mid ++ last
  | .granted => ∃ before sig mid pkt last, log = before ++ .sent sig :: mid ++ .received pkt :: last ∧
      sig.isAuth .signature ∧ pkt.isAuth .token ∧ .consulted true ∈ last ∧ ∀ b, HsEvent.startTls b ∉ mid ++ last
  | _ => True

theorem Earned.note {log : List HsEvent} {p : Phase} {e : HsEvent} (h : Earned log p) (he : ∀ b, e ≠ .startTls b) :
    Earned (log ++ [e]) p := by
  cases p with
  | idle => trivial
  | offered => trivial
  | challenged token | signed token =>
    obtain ⟨pkt, hsince, hrest⟩ := h
    exact ⟨pkt, hsince.note he, hrest⟩
  | answered =>
    obtain ⟨sig, hsince, hsig⟩ := h
    exact ⟨sig, hsince.note he, hsig⟩
  | asked =>
    obtain ⟨before, sig, mid, pkt, last, rfl, hsig, htoken, hno⟩ := h
    refine ⟨before, sig, mid, pkt, last ++ [e], by simp, hsig, htoken, fun b hb => ?_⟩
    rw [← List.append_assoc] at hb
    rcases List.mem_append.mp hb with hb | hb
    · exact hno b hb
    · exact he b (List.mem_singleton.mp hb).symm
  | granted =>
    obtain ⟨before, sig, mid, pkt, last, rfl, hsig, htoken, hgranted, hno⟩ := h
    refine ⟨before, sig, mid, pkt, last ++ [e], by simp, hsig, htoken, List.mem_append_left _ hgranted, fun b hb => ?_⟩
    rw [← List.append_assoc] at hb
    rcases List.mem_append.mp hb with hb | hb
    · exact hno b hb
    · exact he b (List.mem_singleton.mp hb).symm

theorem Earned.consulted {log : List HsEvent} {p : Phase} (h : Earned log p) (offer : Bool) :
    Earned (log ++ [.consulted offer]) (p.onConsulted offer) := by
  have hkeep : Earned (log ++ [.consulted offer]) p := h.note fun b hb => by cases hb
  cases p with
  | asked =>
    cases offer with
    | false => exact hkeep
    | true =>
      obtain ⟨before, sig, mid, pkt, last, rfl, hsig, htoken, hno⟩ := h
      refine ⟨before, sig, mid, pkt, last ++ [.consulted true], by simp, hsig, htoken, by simp, fun b hb => ?_⟩
      exact hno b (by simpa using hb)
  | _ => exact hkeep

theorem Earned.received {log : List HsEvent} {p : Phase} (h : Earned log p) (pkt : Packet) :
    Earned (log ++ [.received pkt]) (p.onReceived pkt) := by
  have hkeep : Earned (log ++ [.received pkt]) p := h.note fun b hb => by cases hb
  cases p with
  | idle =>
    dsimp only [onReceived]
    split_ifs with htoken
    · exact ⟨pkt, ⟨log, [], rfl, by simp⟩, htoken.1, rfl, htoken.2⟩
    · trivial
  | answered =>
    dsimp only [onReceived]
    split_ifs with htoken
    · obtain ⟨sig, ⟨before, mid, rfl, hno⟩, hsig⟩ := h
      exact ⟨before, sig, mid, pkt, [], by simp, hsig, htoken, by simpa using hno⟩
    · exact hkeep
  | _ => exact hkeep

/-- **Every phase was earned.** -/
theorem earned {log : List HsEvent} {p : Phase} (h : of log = some p) : Earned log p := by
  induction log using List.reverseRecOn generalizing p with
  | nil =>
    cases h
    trivial
  | append_singleton log e ih =>
    rw [of_note] at h
    obtain ⟨p1, h1, hnext⟩ := Option.bind_eq_some_iff.mp h
    have hp1 := ih h1
    cases e with
    | received pkt =>
      cases hnext
      exact hp1.received pkt
    | consulted offer =>
      cases hnext
      exact hp1.consulted offer
    | signed token =>
      unfold next at hnext
      dsimp only at hnext
      split_ifs at hnext with hch
      cases hnext
      subst hch
      have := hp1.note (e := .signed token) fun b hb => by cases hb
      exact this
    | startTls b =>
      unfold next at hnext
      dsimp only at hnext
      split_ifs at hnext
      cases hnext
      trivial
    | sent pkt =>
      obtain ⟨hsig, -, -, rfl⟩ | ⟨-, -, -, rfl⟩ | ⟨-, -, rfl⟩ := next_sent hnext
      · exact ⟨pkt, ⟨log, [], rfl, by simp⟩, hsig⟩
      · trivial
      · exact hp1.note fun b hb => by cases hb

end Phase

/-- The packets received since TLS was started last, or all of them. -/
def receivedSince (log : List HsEvent) : List Packet :=
  log.foldl (fun pkts e =>
    match e with
    | .received pkt => pkts ++ [pkt]
    | .startTls _ => []
    | _ => pkts) []

theorem receivedSince_note (log : List HsEvent) (e : HsEvent) :
    receivedSince (log ++ [e]) =
      match e with
      | .received pkt => receivedSince log ++ [pkt]
      | .startTls _ => []
      | _ => receivedSince log := by
  unfold receivedSince
  rw [List.foldl_append]
  cases e <;> rfl

def Item.packet? : Item → Option Packet
  | .ok pkt => some pkt
  | .error _ => none

namespace Handshake

variable [Usize] {hs : HsParams} {w w' : World} {p : Phase}

variable (hs) in
/-- What holds of a world all along: the log has kept to the specification and stands in phase `p`, and what was
received since TLS was started is what decoding the stream from its beginning gives. -/
structure Inv (w : World) (p : Phase) : Prop where
  phase : Phase.of w.log = some p
  fed : decodeN (nextItem (UInt32.ofNat hs.config.maxPayload)) w.items.length w.stream =
    (w.items, w.inbound.buf ++ w.inbound.rest)
  since : receivedSince w.log = w.items.filterMap Item.packet?

/-- The log only grows, and TLS is not started. -/
structure Stays (w w' : World) : Prop where
  log : ∃ ext, w'.log = w.log ++ ext ∧ ∀ b, HsEvent.startTls b ∉ ext
  stream : w'.stream = w.stream
  secure : w'.secure = w.secure

omit [Usize] in
theorem Stays.refl (w : World) : Stays w w := ⟨⟨[], by simp, by simp⟩, rfl, rfl⟩

omit [Usize] in
theorem Stays.trans {w1 w2 w3 : World} (h : Stays w1 w2) (h' : Stays w2 w3) : Stays w1 w3 := by
  obtain ⟨ext, hext, hno⟩ := h.log
  obtain ⟨ext', hext', hno'⟩ := h'.log
  refine ⟨⟨ext ++ ext', by rw [hext', hext, List.append_assoc], fun b hb => ?_⟩, h'.stream.trans h.stream,
    h'.secure.trans h.secure⟩
  rcases List.mem_append.mp hb with hb | hb
  · exact hno b hb
  · exact hno' b hb

omit [Usize] in
theorem Stays.note {e : HsEvent} (he : ∀ b, e ≠ .startTls b) (hlog : w'.log = w.log ++ [e])
    (hstream : w'.stream = w.stream)
    (hsecure : w'.secure = w.secure) : Stays w w' :=
  ⟨⟨[e], hlog, fun b hb => he b (List.mem_singleton.mp hb).symm⟩, hstream, hsecure⟩

/-- One call of `recv_pkt` takes the next item of the stream, if it returns one. -/
theorem fed_recv (h : Inv hs w p) {rounds : List Round} {o : Outcome} {inbound : Inbound}
    (hrecv : recvPktOr (UInt32.ofNat hs.config.maxPayload) true rounds w.inbound = (o, inbound)) :
    decodeN (nextItem (UInt32.ofNat hs.config.maxPayload)) (w.items ++ o.item.toList).length w.stream =
      (w.items ++ o.item.toList, inbound.buf ++ inbound.rest) := by
  obtain ⟨got, hrest, hfound, hkept⟩ :=
    @recvPktOr_takes _ (UInt32.ofNat hs.config.maxPayload) true rounds w.inbound
  rw [hrecv] at hrest hfound hkept
  have hfed := h.fed
  rw [hrest, ← List.append_assoc] at hfed
  cases ho : o.item with
  | none =>
    rw [hkept ho]
    simpa using hfed
  | some i => exact (nextItem_stable _).snoc hfed (hfound i ho)

/-- The world after a call that returned no packet. -/
theorem Inv.afterRecv (h : Inv hs w p) {rounds : List Round} {o : Outcome} {inbound : Inbound}
    (hrecv : recvPktOr (UInt32.ofNat hs.config.maxPayload) true rounds w.inbound = (o, inbound))
    (ho : o.item.toList.filterMap Item.packet? = []) (reads : List (List (Option Got))) :
    Inv hs (Handshake.afterRecv w o inbound reads) p := by
  refine ⟨h.phase, fed_recv h hrecv, ?_⟩
  show receivedSince w.log = (w.items ++ o.item.toList).filterMap Item.packet?
  rw [List.filterMap_append, ho, List.append_nil]
  exact h.since

/-- The world after a call that returned a packet. -/
theorem Inv.received (h : Inv hs w p) {rounds : List Round} {pkt : Packet} {inbound : Inbound}
    (hrecv : recvPktOr (UInt32.ofNat hs.config.maxPayload) true rounds w.inbound = (.packet pkt, inbound))
    (reads : List (List (Option Got))) :
    Inv hs ((Handshake.afterRecv w (.packet pkt) inbound reads).note (.received pkt)) (p.onReceived pkt) := by
  refine ⟨?_, fed_recv h hrecv, ?_⟩
  · show Phase.of (w.log ++ [.received pkt]) = _
    rw [Phase.of_note, h.phase]
    rfl
  · show receivedSince (w.log ++ [.received pkt]) = (w.items ++ [(Except.ok pkt : Item)]).filterMap Item.packet?
    rw [receivedSince_note, List.filterMap_append, h.since]
    rfl

/-- Receiving: a packet that is no AUTH changes no phase. -/
theorem recvFrom_inv (reads : List (List (Option Got))) (h : Inv hs w p) :
    Stays w (recvFrom (UInt32.ofNat hs.config.maxPayload) reads w).2 ∧
      match (recvFrom (UInt32.ofNat hs.config.maxPayload) reads w) with
      | (.ok pkt, w') => Inv hs w' (p.onReceived pkt) ∧ ∃ before, w'.log = before ++ [.received pkt]
      | (_, w') => Inv hs w' p := by
  induction reads generalizing w with
  | nil => exact ⟨.refl w, h⟩
  | cons script reads ih =>
    rw [recvFrom]
    split
    · rename_i pkt inbound hrecv
      have hinv := h.received hrecv reads
      have hstays : Stays w ((afterRecv w (.packet pkt) inbound reads).note (.received pkt)) :=
        .note (fun _ h => by cases h) rfl rfl rfl
      -- a stale packet is dropped and the loop goes on
      have hloop : pkt.command ≠ .auth → Stays w (recvFrom (UInt32.ofNat hs.config.maxPayload) reads
            ((afterRecv w (.packet pkt) inbound reads).note (.received pkt))).2 ∧
          match (recvFrom (UInt32.ofNat hs.config.maxPayload) reads
            ((afterRecv w (.packet pkt) inbound reads).note (.received pkt))) with
          | (.ok pkt, w') => Inv hs w' (p.onReceived pkt) ∧ ∃ before, w'.log = before ++ [.received pkt]
          | (_, w') => Inv hs w' p := by
        intro hne
        rw [Phase.onReceived_other hne] at hinv
        obtain ⟨h1, h2⟩ := ih hinv
        exact ⟨hstays.trans h1, h2⟩
      dsimp only
      cases hcmd : pkt.command with
      | connect | auth | startTls => exact ⟨hstays, hinv, w.log, rfl⟩
      | close => exact hloop (by rw [hcmd]; decide)
      | ready => exact hloop (by rw [hcmd]; decide)
      | write => exact hloop (by rw [hcmd]; decide)
      | «open» => exact hloop (by rw [hcmd]; decide)
      | sync =>
        rw [Phase.onReceived_other (by rw [hcmd]; decide)] at hinv
        exact ⟨hstays, hinv⟩
    · rename_i e inbound hrecv
      have hstays : Stays w (afterRecv w (.failed e) inbound reads) := ⟨⟨[], by simp [afterRecv], by simp⟩, rfl, rfl⟩
      refine ⟨hstays, h.afterRecv hrecv ?_ reads⟩
      cases e <;> rfl
    · rename_i o inbound hnp hnf hrecv
      have hstays : Stays w (afterRecv w o inbound reads) := ⟨⟨[], by simp [afterRecv], by simp⟩, rfl, rfl⟩
      refine ⟨hstays, h.afterRecv hrecv ?_ reads⟩
      cases o with
      | packet pkt => exact absurd rfl (hnp pkt)
      | failed e => exact absurd rfl (hnf e)
      | interrupted => rfl
      | dropped => rfl

/-! ## Rules for the steps of a handshake -/

variable (hs) in
/-- A step that keeps to the specification without starting TLS, and after which `P` holds if it succeeds. -/
structure Ends {α : Type} (w : World) (r : HsResult α × World) (P : α → World → Prop) : Prop where
  stays : Stays w r.2
  inv : ∃ p, Inv hs r.2 p
  ok : ∀ a, r.1 = .ok a → P a r.2

section Rules

variable {α β : Type} {P : α → World → Prop} {Q : β → World → Prop}

theorem Ends.andThen {r : HsResult α × World} {f : α → World → HsResult β × World} (h : Ends hs w r P)
    (hf : ∀ a w', (∃ p, Inv hs w' p) → P a w' → Ends hs w' (f a w') Q) : Ends hs w (HsResult.andThen r f) Q := by
  obtain ⟨r, w1⟩ := r
  cases r with
  | ok a =>
    have h2 := hf a w1 h.inv (h.ok a rfl)
    exact ⟨h.stays.trans h2.stays, h2.inv, h2.ok⟩
  | failed e => exact ⟨h.stays, h.inv, nofun⟩
  | dropped => exact ⟨h.stays, h.inv, nofun⟩

theorem Ends.mapErr {r : HsResult α × World} (f : World → Error → Error) (h : Ends hs w r P) :
    Ends hs w (HsResult.mapErr r f) P := by
  obtain ⟨r, w1⟩ := r
  cases r with
  | ok a => exact h
  | failed e => exact ⟨h.stays, h.inv, nofun⟩
  | dropped => exact h

theorem Ends.failed (h : Inv hs w p) (e : Error) : Ends hs w (.failed e, w) P := ⟨.refl w, ⟨p, h⟩, nofun⟩

theorem Ends.done (h : Inv hs w p) {a : α} (ha : P a w) : Ends hs w (.ok a, w) P :=
  ⟨.refl w, ⟨p, h⟩, fun b hb => by cases hb; exact ha⟩

end Rules

/-- The packet just received. -/
def JustReceived (w : World) (pkt : Packet) : Prop := ∃ before, w.log = before ++ [.received pkt]

theorem recv_ends (h : Inv hs w p) :
    Ends hs w (recv hs w) fun pkt w' => Inv hs w' (p.onReceived pkt) ∧ JustReceived w' pkt := by
  obtain ⟨hstays, hinv⟩ := recvFrom_inv w.reads h
  unfold recv
  revert hinv hstays
  rcases recvFrom (UInt32.ofNat hs.config.maxPayload) w.reads w with ⟨r, w'⟩
  intro hstays hinv
  cases r with
  | ok pkt => exact ⟨hstays, ⟨_, hinv.1⟩, fun a ha => by cases ha; exact hinv⟩
  | failed e | dropped => exact ⟨hstays, ⟨_, hinv⟩, nofun⟩

/-- An event of the host's that the specification allows. -/
theorem Inv.note (h : Inv hs w p) {e : HsEvent} {p' : Phase} (hnext : p.next e = some p')
    (he : ∀ pkt, e ≠ .received pkt) (htls : ∀ b, e ≠ .startTls b) : Inv hs (w.note e) p' := by
  refine ⟨?_, h.fed, ?_⟩
  · show Phase.of (w.log ++ [e]) = _
    rw [Phase.of_note, h.phase]
    exact hnext
  · show receivedSince (w.log ++ [e]) = _
    rw [receivedSince_note]
    cases e with
    | received pkt => exact absurd rfl (he pkt)
    | startTls b => exact absurd rfl (htls b)
    | sent pkt => exact h.since
    | signed token => exact h.since
    | consulted offer => exact h.since

/-- A step that notes `e` and otherwise touches only its scripts and the transport's sending side. -/
theorem Ends.noted {α : Type} (h : Inv hs w p) {e : HsEvent} {p' : Phase} (hnext : p.next e = some p')
    (he : ∀ pkt, e ≠ .received pkt) (htls : ∀ b, e ≠ .startTls b) {r : HsResult α × World}
    (hlog : r.2.log = w.log ++ [e]) (hinbound : r.2.inbound = w.inbound) (hstream : r.2.stream = w.stream)
    (hitems : r.2.items = w.items) (hsecure : r.2.secure = w.secure) : Ends hs w r fun _ w' => Inv hs w' p' := by
  have hinv := h.note hnext he htls
  have hinv' : Inv hs r.2 p' := by
    refine ⟨?_, ?_, ?_⟩
    · rw [hlog]; exact hinv.phase
    · rw [hitems, hstream, hinbound]; exact hinv.fed
    · rw [hlog, hitems]; exact hinv.since
  exact ⟨.note htls hlog hstream hsecure, ⟨p', hinv'⟩, fun _ _ => hinv'⟩

theorem send_ends (h : Inv hs w p) {pkt : Packet} {p' : Phase}
    (hnext : p.next (.sent pkt) = some p') : Ends hs w (send pkt w) fun _ w' => Inv hs w' p' := by
  unfold send
  dsimp only
  split
  · exact .noted h hnext (by simp) (by simp) rfl rfl rfl rfl rfl
  · split <;> exact .noted h hnext (by simp) (by simp) rfl rfl rfl rfl rfl

theorem sign_ends {token : Bytes} (h : Inv hs w (.challenged token)) :
    Ends hs w (sign token w) fun _ w' => Inv hs w' (.signed token) := by
  have hnext : (Phase.challenged token).next (.signed token) = some (.signed token) := by
    simp [Phase.next]
  unfold sign
  dsimp only
  split <;> exact .noted h hnext (by simp) (by simp) rfl rfl rfl rfl rfl

theorem offerPublicKey_ends (h : Inv hs w .asked) :
    Ends hs w (offerPublicKey w) fun offer w' => Inv hs w' (Phase.asked.onConsulted offer) := by
  unfold offerPublicKey
  split
  · exact ⟨.refl w, ⟨_, h⟩, fun _ hr => by cases hr⟩
  · rename_i offer offers _
    have hends : Ends hs w (HsResult.ok offer, { w.note (.consulted offer) with offers := offers }) fun _ w' =>
        Inv hs w' (Phase.asked.onConsulted offer) :=
      .noted h rfl (by simp) (by simp) rfl rfl rfl rfl rfl
    exact ⟨hends.stays, hends.inv, fun _ hr => by cases hr; exact hends.ok _ rfl⟩

theorem publicKey_ends (h : Inv hs w p) : Ends hs w (publicKey w) fun _ w' => Inv hs w' p := by
  unfold publicKey
  split
  · exact ⟨.refl w, ⟨_, h⟩, fun _ hr => by cases hr⟩
  · have hinv : ∀ keys, Inv hs { w with keys := keys } p := fun _ => ⟨h.phase, h.fed, h.since⟩
    exact ⟨⟨⟨[], by simp, by simp⟩, rfl, rfl⟩, ⟨_, hinv _⟩, fun _ _ => hinv _⟩

/-- What a verdict says: a CNXN is the packet just received. -/
def Verdict.Holds (v : Verdict) (w : World) : Prop :=
  ∀ pkt, v = .connected pkt → pkt.command = .connect ∧ JustReceived w pkt

omit [Usize] in
theorem Verdict.of_holds {pkt : Packet} {v : Verdict} (h : LibAdb.Verdict.of pkt = .ok v) (hw : JustReceived w pkt) :
    Verdict.Holds v w := by
  unfold LibAdb.Verdict.of at h
  split at h
  · rename_i hcmd
    cases h
    intro pkt' heq
    cases heq
    exact ⟨hcmd, hw⟩
  · cases h
    exact nofun
  · cases h

omit [Usize] in
theorem Verdict.of_error {pkt resp : Packet} (h : LibAdb.Verdict.of pkt = .error resp) : resp = pkt := by
  unfold LibAdb.Verdict.of at h
  split at h <;> cases h
  rfl

/-- **One authentication phase.** -/
theorem doAuth_ends {token : Bytes} (hp : Inv hs w p) (h : token.length = authTokenLen → p = .challenged token) :
    Ends hs w (doAuth hs token w) Verdict.Holds := by
  unfold doAuth
  by_cases hlen : token.length ≠ authTokenLen
  · rw [if_pos hlen]
    exact .failed hp _
  · rw [if_neg hlen]
    obtain rfl := h (not_not.mp hlen)
    refine (sign_ends hp).andThen fun signature w1 _ h1 => ?_
    have hsig : (Phase.signed token).next (.sent (.authSignature signature)) = some .answered := by
      simp [Phase.next, Packet.isAuth, Packet.authSignature, AuthKind.tryFrom]
    refine (send_ends h1 hsig).andThen fun _ w2 _ h2 => ?_
    refine (recv_ends h2).andThen fun pkt w3 _ h3 => ?_
    split
    · rename_i verdict hv
      exact .done h3.1 (Verdict.of_holds hv h3.2)
    · rename_i resp hv
      obtain rfl := Verdict.of_error hv
      by_cases htoken : resp.isAuth .token
      swap
      · rw [if_pos htoken]
        exact .failed h3.1 _
      rw [if_neg (not_not.mpr htoken)]
      have hasked : Inv hs w3 .asked := by
        have h4 := h3.1
        rwa [Phase.onReceived, if_pos htoken] at h4
      refine (offerPublicKey_ends hasked).andThen fun offer w4 _ h4 => ?_
      cases offer with
      | false => exact .failed h4 _
      | true =>
        -- the signature was answered by another TOKEN, and the authenticator lets the key go
        refine (publicKey_ends h4).andThen fun key w5 _ h5 => ?_
        have hkey : Phase.granted.next (.sent (.authPublicKey key)) = some .offered := by
          simp [Phase.next, Packet.isAuth, Packet.authPublicKey, AuthKind.tryFrom]
        refine (send_ends h5 hkey).andThen fun _ w6 _ h6 => ?_
        refine (recv_ends h6).andThen fun pkt w7 _ h7 => ?_
        split
        · rename_i verdict hv'
          exact .done h7.1 (Verdict.of_holds hv' h7.2)
        · exact .failed h7.1 _

omit [Usize] in
/-- After an AUTH TOKEN in an idle phase the handshake stands challenged, if the TOKEN has the right length. -/
theorem challenged {pkt : Packet} (htoken : pkt.isAuth .token) (hlen : pkt.data.length = authTokenLen) :
    Phase.idle.onReceived pkt = .challenged pkt.data := by
  rw [Phase.onReceived, if_pos ⟨htoken, hlen⟩]

/-- Sending the host's CNXN. -/
theorem hello_ends (h : Inv hs w .idle) : Ends hs w (send (hello hs) w) fun _ w' => Inv hs w' .idle :=
  send_ends h (by simp [Phase.next, Packet.isAuth, hello])

/-- What follows the host's CNXN. -/
theorem answer_ends (h : Inv hs w .idle) :
    Ends hs w (HsResult.andThen (recv hs w) fun pkt w =>
      match Verdict.of pkt with
      | .ok verdict => (.ok verdict, w)
      | .error pkt =>
        if pkt.isAuth .token then doAuth hs pkt.data w
        else (.failed (.protocol (.unexpectedCommand pkt.command)), w)) Verdict.Holds := by
  refine (recv_ends h).andThen fun pkt w2 _ h2 => ?_
  split
  · rename_i verdict hv
    exact .done h2.1 (Verdict.of_holds hv h2.2)
  · rename_i resp hv
    obtain rfl := Verdict.of_error hv
    split_ifs with htoken
    · exact doAuth_ends h2.1 fun hlen => challenged htoken hlen
    · exact .failed h2.1 _

theorem open_ends (h : Inv hs w .idle) : Ends hs w («open» hs w) Verdict.Holds :=
  (hello_ends h).andThen fun _ _ _ h1 => answer_ends h1

/-! ## TLS -/

def isTls : HsEvent → Bool
  | .startTls _ => true
  | _ => false

omit [Usize] in
theorem Stays.starts (h : Stays w w') : w'.log.countP isTls = w.log.countP isTls := by
  obtain ⟨ext, hext, hno⟩ := h.log
  have hzero : ext.countP isTls = 0 := by
    rw [List.countP_eq_zero]
    intro e he
    cases e with
    | startTls b => exact absurd he (hno b)
    | _ => simp [isTls]
  rw [hext, List.countP_append, hzero, Nat.add_zero]

variable (hs) in
/-- How a handshake may end: within the specification, TLS started at most `n` times, and the packets received since
then decoded from what came through TLS; its log goes on from `base`. -/
structure Closes {α : Type} (base : List HsEvent) (secure : Bytes) (n : ℕ) (r : HsResult α × World)
    (P : α → World → Prop) : Prop where
  grows : base <+: r.2.log
  inv : ∃ p, Inv hs r.2 p
  starts : r.2.log.countP isTls ≤ n
  stream : r.2.log.countP isTls = 0 ∨ r.2.stream = secure
  ok : ∀ a, r.1 = .ok a → P a r.2

section Closing

variable {α β : Type} {P : α → World → Prop} {Q : β → World → Prop} {base : List HsEvent} {secure : Bytes} {n : ℕ}

omit [Usize] in
theorem Stays.grows (h : Stays w w') (hbase : base <+: w.log) : base <+: w'.log := by
  obtain ⟨ext, hext, -⟩ := h.log
  rw [hext]
  exact hbase.trans (List.prefix_append _ _)

theorem Ends.closes {r : HsResult α × World} (h : Ends hs w r P) (hbase : base <+: w.log)
    (hstarts : w.log.countP isTls ≤ n) (hstream : w.log.countP isTls = 0 ∨ w.stream = secure) :
    Closes hs base secure n r P := by
  refine ⟨h.stays.grows hbase, h.inv, h.stays.starts.trans_le hstarts, ?_, h.ok⟩
  rw [h.stays.starts, h.stays.stream]
  exact hstream

theorem Closes.andThen {r : HsResult α × World} {f : α → World → HsResult β × World} (h : Closes hs base secure n r P)
    (hf : ∀ a w', r = (.ok a, w') → P a w' → Closes hs base secure n (f a w') Q) :
    Closes hs base secure n (HsResult.andThen r f) Q := by
  obtain ⟨r, w1⟩ := r
  cases r with
  | ok a => exact hf a w1 rfl (h.ok a rfl)
  | failed e | dropped => exact ⟨h.grows, h.inv, h.starts, h.stream, nofun⟩

end Closing

/-- A CNXN just received. -/
def Answered (pkt : Packet) (w : World) : Prop := pkt.command = .connect ∧ JustReceived w pkt

theorem startTls_closes (h : Inv hs w p) (hbuf : w.inbound.buf = []) (hstarts : w.log.countP isTls = 0)
    {base : List HsEvent} (hbase : base <+: w.log) :
    Closes hs base w.secure 1 (startTls w) fun _ w' =>
      Inv hs w' .idle ∧ w'.log.countP isTls ≤ 1 ∧ w'.stream = w.secure ∧ base <+: w'.log := by
  set w1 : World := { w.note (.startTls w.inbound.buf) with
    inbound := ⟨w.inbound.buf, w.secure⟩
    stream := w.secure
    items := [] } with hw1
  have hinv : Inv hs w1 .idle := by
    refine ⟨?_, ?_, ?_⟩
    · show Phase.of (w.log ++ [.startTls w.inbound.buf]) = _
      rw [Phase.of_note, h.phase, hbuf]
      rfl
    · show decodeN _ 0 w.secure = ([], w.inbound.buf ++ w.secure)
      rw [hbuf]
      rfl
    · show receivedSince (w.log ++ [.startTls w.inbound.buf]) = []
      rw [receivedSince_note]
  have hcount : w1.log.countP isTls ≤ 1 := by
    show (w.log ++ [HsEvent.startTls w.inbound.buf]).countP isTls ≤ 1
    rw [List.countP_append, hstarts]
    exact le_rfl
  have hgrows : base <+: w1.log := hbase.trans (List.prefix_append _ _)
  have hends : ∀ r : HsResult Unit, Closes hs base w.secure 1 (r, w1) fun _ w' =>
      Inv hs w' .idle ∧ w'.log.countP isTls ≤ 1 ∧ w'.stream = w.secure ∧ base <+: w'.log := fun r =>
    ⟨hgrows, ⟨.idle, hinv⟩, hcount, Or.inr rfl, fun _ _ => ⟨hinv, hcount, rfl, hgrows⟩⟩
  unfold startTls
  dsimp only
  rw [← hw1]
  split <;> exact hends _

omit [Usize] in
theorem send_inbound (pkt : Packet) (w : World) : (send pkt w).2.inbound = w.inbound := by
  unfold send
  dsimp only
  split
  · rfl
  · split <;> rfl

theorem upgrade_closes (h : Inv hs w p) (hstarts : w.log.countP isTls = 0) {base : List HsEvent}
    (hbase : base <+: w.log) : Closes hs base w.secure 1 (upgrade hs w) Answered := by
  unfold upgrade
  by_cases hbuf : w.inbound.buf ≠ []
  · rw [if_pos hbuf]
    exact (Ends.failed h _).closes hbase (by omega) (Or.inl hstarts)
  rw [if_neg hbuf]
  have hreply : p.next (.sent ⟨.startTls, stlsVersion, 0, []⟩) = some p := by
    simp [Phase.next, Packet.isAuth]
  have hsend := send_ends h hreply
  refine (hsend.closes hbase (by omega) (Or.inl hstarts)).andThen fun _ w1 hr h1 => ?_
  have hstays : Stays w w1 := by
    have := hsend.stays
    rwa [hr] at this
  have hbuf1 : w1.inbound.buf = [] := by
    have := send_inbound ⟨.startTls, stlsVersion, 0, []⟩ w
    rw [hr] at this
    rw [this]
    exact not_not.mp hbuf
  have hclose := startTls_closes h1 hbuf1 (hstays.starts.trans hstarts) (hstays.grows hbase)
  rw [hstays.secure] at hclose
  refine hclose.andThen fun _ w2 _ h2 => ?_
  refine (((recv_ends h2.1).mapErr (classifyBeforeCnxn hs)).closes h2.2.2.2 h2.2.1 (Or.inr h2.2.2.1)).andThen
    fun pkt w3 hr3 h3 => ?_
  have hstays3 : Stays w2 w3 := by
    have := ((recv_ends h2.1).mapErr (classifyBeforeCnxn hs)).stays
    rwa [hr3] at this
  have hstarts3 : w3.log.countP isTls ≤ 1 := hstays3.starts.trans_le h2.2.1
  have hstream3 : w3.stream = w.secure := hstays3.stream.trans h2.2.2.1
  have hbase3 := hstays3.grows h2.2.2.2
  split_ifs with hcnxn htoken
  · exact (Ends.done h3.1 ⟨hcnxn, h3.2⟩).closes hbase3 hstarts3 (Or.inr hstream3)
  · have hauth : Ends hs w3 (doAuth hs pkt.data w3) Verdict.Holds :=
      doAuth_ends h3.1 fun hlen => challenged htoken hlen
    refine ((hauth.mapErr (classifyBeforeCnxn hs)).andThen fun verdict w4 hinv4 h4 => ?_).closes hbase3 hstarts3
      (Or.inr hstream3)
    obtain ⟨p4, hinv4⟩ := hinv4
    cases verdict with
    | connected cnxn => exact .done hinv4 (h4 cnxn rfl)
    | startTls offer => exact .failed hinv4 _
  · exact (Ends.failed h3.1 _).closes hbase3 hstarts3 (Or.inr hstream3)

/-! ## Whole handshakes -/

variable (hs) in
/-- `connect` or `connect_tls`. -/
def run (tls : Bool) (w : World) : HsResult (Negotiated × DeviceBanner) × World :=
  if tls then connectTls hs w else connect hs w

/-- A world no handshake has begun in. -/
structure Fresh (w : World) : Prop where
  log : w.log = []
  items : w.items = []
  buf : w.inbound.buf = []
  stream : w.stream = w.inbound.rest

variable (hs) in
/-- A connection comes from a CNXN just received. -/
def FromCnxn (c : Negotiated × DeviceBanner) (w : World) : Prop :=
  ∃ cnxn, Answered cnxn w ∧ Negotiated.new hs.banner.toBytes cnxn hs.config hs.maxBannerProperties = .ok c

theorem assemble_closes {base : List HsEvent} {secure : Bytes} {n : ℕ} {cnxn : Packet} (h : Inv hs w p)
    (hw : Answered cnxn w) (hbase : base <+: w.log) (hstarts : w.log.countP isTls ≤ n)
    (hstream : w.log.countP isTls = 0 ∨ w.stream = secure) :
    Closes hs base secure n (assemble hs cnxn w) (FromCnxn hs) := by
  unfold assemble
  split
  · rename_i c hc
    exact ⟨hbase, ⟨p, h⟩, hstarts, hstream, fun a ha => by cases ha; exact ⟨cnxn, hw, hc⟩⟩
  · exact ⟨hbase, ⟨p, h⟩, hstarts, hstream, nofun⟩

theorem Fresh.inv (h : Fresh w) : Inv hs w .idle := by
  refine ⟨by rw [h.log]; rfl, ?_, by rw [h.log, h.items]; rfl⟩
  rw [h.items, h.buf, h.stream]
  rfl

/-- The handshake's first event is its CNXN. -/
theorem open_hello (h : Fresh w) : [.sent (hello hs)] <+: («open» hs w).2.log := by
  have hinv : Inv hs w .idle := h.inv
  have hlog : (send (hello hs) w).2.log = [.sent (hello hs)] := by
    unfold send
    dsimp only
    split
    · exact congrArg (· ++ _) h.log
    · split <;> exact congrArg (· ++ _) h.log
  have hsent := (hello_ends hinv).ok
  unfold «open»
  revert hlog hsent
  rcases send (hello hs) w with ⟨r, w1⟩
  intro hlog hsent
  cases r with
  | ok a => exact (answer_ends (hsent a rfl)).stays.grows ⟨[], (List.append_nil _).trans hlog.symm⟩
  | failed e => exact hlog ▸ List.prefix_rfl
  | dropped => exact hlog ▸ List.prefix_rfl

/-- **Every handshake closes within the specification.** -/
theorem run_closes (tls : Bool) (h : Fresh w) :
    Closes hs [.sent (hello hs)] w.secure (if tls then 1 else 0) (run hs tls w) (FromCnxn hs) := by
  have hinv0 : Inv hs w .idle := h.inv
  have hopen := open_ends hinv0
  have hzero : w.log.countP isTls = 0 := by rw [h.log]; rfl
  have hopened : ∀ n, Closes hs [.sent (hello hs)] w.secure n («open» hs w) Verdict.Holds := by
    intro n
    have hnil : [] <+: w.log := List.nil_prefix
    have hc : Closes hs [] w.secure n _ _ := hopen.closes hnil (by omega) (Or.inl hzero)
    exact ⟨open_hello h, hc.inv, hc.starts, hc.stream, hc.ok⟩
  unfold run
  cases tls with
  | false =>
    show Closes hs _ w.secure 0 (connect hs w) (FromCnxn hs)
    refine (hopened 0).andThen fun verdict w1 hr h1 => ?_
    have hstays := hopen.stays
    have hgrows := (hopened 0).grows
    obtain ⟨p1, hinv⟩ := hopen.inv
    rw [hr] at hstays hinv hgrows
    have hzero1 : w1.log.countP isTls = 0 := hstays.starts.trans hzero
    cases verdict with
    | connected cnxn => exact assemble_closes hinv (h1 cnxn rfl) hgrows hzero1.le (Or.inl hzero1)
    | startTls offer => exact ⟨hgrows, ⟨p1, hinv⟩, hzero1.le, Or.inl hzero1, nofun⟩
  | true =>
    show Closes hs _ w.secure 1 (connectTls hs w) (FromCnxn hs)
    refine (hopened 1).andThen fun verdict w1 hr h1 => ?_
    have hstays := hopen.stays
    have hgrows := (hopened 1).grows
    obtain ⟨p1, hinv⟩ := hopen.inv
    rw [hr] at hstays hinv hgrows
    have hzero1 : w1.log.countP isTls = 0 := hstays.starts.trans hzero
    have hup := upgrade_closes hinv hzero1 hgrows
    rw [hstays.secure] at hup
    cases verdict with
    | connected cnxn => exact assemble_closes hinv (h1 cnxn rfl) hgrows (by omega) (Or.inl hzero1)
    | startTls offer =>
      refine hup.andThen fun cnxn w2 hr2 h2 => ?_
      obtain ⟨p2, hinv2⟩ := hup.inv
      have hgrows2 := hup.grows
      have hstarts2 := hup.starts
      have hstream2 := hup.stream
      rw [hr2] at hinv2 hstarts2 hstream2 hgrows2
      exact assemble_closes hinv2 h2 hgrows2 hstarts2 hstream2

/-- **The handshake gives away no more than it must, whatever the device sends.**  Of every `connect` and
`connect_tls`, in any world and cut short anywhere:

* TLS is started at most once, and only by `connect_tls`; any stretch of the log in which it is not has at most one
  signature and one public key;
* a signature goes out only after a TOKEN of the required length of the same phase, a public key only after a
  signature of the same phase was answered by another TOKEN and the authenticator then said to offer it;
* a connection is made only from a CNXN just received in answer to the host's;
* `connect` stops at STLS, `connect_tls` at an STLS with more bytes buffered behind it;
* TLS is started with nothing buffered, and the packets received since are those decoded from what came through TLS. -/
theorem handshake_discloses_little (hs : HsParams) (tls : Bool) (w w' : World)
    (r : HsResult (Negotiated × DeviceBanner)) (hfresh : Fresh w) (hrun : run hs tls w = (r, w')) :
    (w'.log.countP isTls ≤ (if tls then 1 else 0) ∧
        ∀ a l b, w'.log = a ++ l ++ b → (∀ x, HsEvent.startTls x ∉ l) →
          l.countP Phase.isSignature ≤ 1 ∧ l.countP Phase.isPublicKey ≤ 1) ∧
      (∀ a pkt b, w'.log = a ++ .sent pkt :: b → pkt.isAuth .signature →
        ∃ token, Phase.Since a (.received token) ∧ token.isAuth .token ∧ token.data.length = authTokenLen) ∧
      (∀ a pkt b, w'.log = a ++ .sent pkt :: b → pkt.isAuth .publicKey →
        ∃ before sig mid token last, a = before ++ .sent sig :: mid ++ .received token :: last ∧
          sig.isAuth .signature ∧ token.isAuth .token ∧ .consulted true ∈ last ∧
          ∀ x, HsEvent.startTls x ∉ mid ++ last) ∧
      (∀ c, r = .ok c → ∃ before cnxn, w'.log = .sent (hello hs) :: before ++ [.received cnxn] ∧
        cnxn.command = .connect ∧ Negotiated.new hs.banner.toBytes cnxn hs.config hs.maxBannerProperties = .ok c) ∧
      (∀ offer w1, «open» hs w = (.ok (.startTls offer), w1) →
        (tls = false → r = .failed (.protocol .tlsRequired) ∧ w' = w1) ∧
          (tls = true → w1.inbound.buf ≠ [] → r = .failed (.protocol .dataAfterStls) ∧ w' = w1)) ∧
      (∀ x, .startTls x ∈ w'.log → x = [] ∧ w'.stream = w.secure ∧
        ∃ items, receivedSince w'.log = items.filterMap Item.packet? ∧
          decodeN (nextItem (UInt32.ofNat hs.config.maxPayload)) items.length w.secure =
            (items, w'.inbound.buf ++ w'.inbound.rest)) := by
  have hclose : Closes hs _ _ _ _ _ := run_closes tls hfresh
  rw [hrun] at hclose
  obtain ⟨⟨ext, hext⟩, ⟨p, hinv⟩, hstarts, hstream, hok⟩ := hclose
  refine ⟨⟨hstarts, ?_⟩, ?_, ?_, ?_, ?_, ?_⟩
  · intro a l b hlog hno
    have hphase := hinv.phase
    rw [hlog, Phase.of, List.append_assoc, List.foldlM_append] at hphase
    obtain ⟨p1, -, hphase⟩ := Option.bind_eq_some_iff.mp hphase
    rw [List.foldlM_append] at hphase
    obtain ⟨p2, hl, -⟩ := Option.bind_eq_some_iff.mp hphase
    have hle := Phase.sends_le hno hl
    have := p1.left_le
    omega
  · intro a pkt b hlog hsig
    obtain ⟨p1, p2, ha, hnext⟩ := Phase.of_split (hlog ▸ hinv.phase)
    obtain ⟨-, -, ⟨token, rfl⟩, -⟩ | ⟨hno, -⟩ | ⟨hno, -⟩ := Phase.next_sent hnext
    · obtain ⟨tok, hsince, htok, hdata, hlen⟩ := Phase.earned ha
      exact ⟨tok, hsince, htok, hdata ▸ hlen⟩
    · exact absurd hsig hno
    · exact absurd hsig hno
  · intro a pkt b hlog hkey
    obtain ⟨p1, p2, ha, hnext⟩ := Phase.of_split (hlog ▸ hinv.phase)
    obtain ⟨-, hno, -⟩ | ⟨-, -, rfl, -⟩ | ⟨-, hno, -⟩ := Phase.next_sent hnext
    · exact absurd hkey hno
    · exact Phase.earned ha
    · exact absurd hkey hno
  · intro c hc
    obtain ⟨cnxn, ⟨hcmd, before, hbefore⟩, hnew⟩ := hok c hc
    dsimp only at hbefore hext
    rw [← hext] at hbefore
    cases before with
    | nil => cases hbefore
    | cons e before =>
      rw [List.cons_append, List.cons_append, List.nil_append, List.cons.injEq] at hbefore
      refine ⟨before, cnxn, ?_, hcmd, hnew⟩
      rw [← hext, hbefore.2]
      rfl
  · intro offer w1 hopen
    refine ⟨?_, ?_⟩
    · rintro rfl
      have hstop : run hs false w = (.failed (.protocol .tlsRequired), w1) := by
        simp only [run, Bool.false_eq_true, if_false, connect, hopen, HsResult.andThen]
      rw [hrun] at hstop
      cases hstop
      exact ⟨rfl, rfl⟩
    · rintro rfl hbuf
      have hstop : run hs true w = (.failed (.protocol .dataAfterStls), w1) := by
        simp only [run, if_true, connectTls, hopen, HsResult.andThen, upgrade, if_pos hbuf]
      rw [hrun] at hstop
      cases hstop
      exact ⟨rfl, rfl⟩
  · intro x hx
    obtain ⟨a, b, hlog⟩ := List.append_of_mem hx
    obtain ⟨p1, p2, -, hnext⟩ := Phase.of_split (hlog ▸ hinv.phase)
    have hxnil : x = [] := by
      unfold Phase.next at hnext
      dsimp only at hnext
      split_ifs at hnext with h
      exact h
    have hpos : 0 < w'.log.countP isTls := List.countP_pos_iff.mpr ⟨_, hx, rfl⟩
    have hsecure : w'.stream = w.secure := hstream.resolve_left (Nat.pos_iff_ne_zero.mp hpos)
    refine ⟨hxnil, hsecure, w'.items, hinv.since, ?_⟩
    rw [← hsecure]
    exact hinv.fed

/-- A device that asks for a signature and hangs up over it. -/
def tokenPacket : Packet := ⟨.auth, 1, 0, List.replicate 20 7⟩

def tokenWorld : World where
  inbound := ⟨[], tokenPacket.frame .compute⟩
  secure := []
  outbound := Outbound.start
  reads := [[some (.ok 4096)], [some (.ok 4096)]]
  writes := [⟨[.ok 4096, .ok 4096], .ok⟩, ⟨[.ok 4096, .ok 4096], .ok⟩]
  signs := [.ok [1, 2, 3]]
  offers := [false]
  keys := [[5]]
  tls := none
  log := []
  stream := tokenPacket.frame .compute
  items := []

def tokenParams : @HsParams usize64 :=
  @HsParams.mk usize64 (.features [.cmd]) (@ConnectionConfig.embedded usize64) 8 fun _ => false

omit [Usize] in
set_option maxRecDepth 20000 in
/-- The signature goes out once, the key never. -/
theorem handshake_discloses_token :
    ∃ r w', @run usize64 tokenParams false tokenWorld = (r, w') ∧ w'.log.countP Phase.isSignature = 1 ∧
      w'.log.countP Phase.isPublicKey ≤ 1 := by
  refine ⟨_, _, rfl, by decide +kernel, ?_⟩
  have h := (@handshake_discloses_little usize64 tokenParams false tokenWorld _ _ ⟨rfl, rfl, rfl, rfl⟩ rfl).1
  have hno : ∀ x, HsEvent.startTls x ∉ (@run usize64 tokenParams false tokenWorld).2.log := by
    intro x hx
    have hpos : 0 < (@run usize64 tokenParams false tokenWorld).2.log.countP isTls :=
      List.countP_pos_iff.mpr ⟨_, hx, rfl⟩
    exact absurd hpos (Nat.not_lt.mpr h.1)
  exact (h.2 [] _ [] (List.append_nil _).symm hno).2

end Handshake

end LibAdb
