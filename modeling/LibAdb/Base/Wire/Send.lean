import LibAdb.Base.Codec
import LibAdb.Base.Slot

/-!
# LibAdb.Base.Wire.Send — putting packets on the transport

The sending half of `base/wire.rs`: `DesyncFlag` with its `ArmedWrite` guard, `write_all`, `write_frame`,
`send_frame` and the four ways to send.  A call is given an `Io`: how the transport treats each `write` it is asked
for, and the `flush`.  A write may take part of what it is offered, take some of it and then fail or be dropped with
its call; the calls share one flag and hold the transport one at a time, so they follow each other.

A transport that has reported one of the `connection_gone` kinds accepts no more bytes: that is the contract of a
connection that is gone, and the reason why `send_frame` may leave the flag unset then.

`sendFrame_ends` says the three ways a frame can end; `outbound_framed` is what follows for all of them in a row.
-/

namespace LibAdb

/-! ## The transport -/

structure Transport where
  accepted : Bytes
  gone : Bool
  deriving DecidableEq, Repr

/-- What becomes of one `write`: `Ok(n)`, an error after `k` bytes, or the call dropped after `k` bytes. -/
inductive Wrote where
  | ok (n : ℕ)
  | err (kind : ErrorKind) (k : ℕ)
  | dropped (k : ℕ)
  deriving DecidableEq, Repr

inductive Flushed where
  | ok
  | err (kind : ErrorKind)
  | dropped
  deriving DecidableEq, Repr

/-- How the transport treats one call. -/
structure Io where
  writes : List Wrote
  flush : Flushed
  deriving DecidableEq, Repr

/-- How a call of the sending side ends. -/
inductive SendResult where
  | ok
  | err (e : Error)
  | dropped
  deriving DecidableEq, Repr

namespace Transport

/-- Bytes go in, unless the connection is gone. -/
def accept (t : Transport) (bytes : Bytes) : Transport :=
  if t.gone then t else { t with accepted := t.accepted ++ bytes }

def report (t : Transport) (kind : ErrorKind) : Transport := { t with gone := t.gone || kind.gone }

theorem report_gone (t : Transport) {kind : ErrorKind} (h : connectionGone (.io kind) = true) :
    (t.report kind).gone = true := by
  have hk : kind.gone = true := h
  simp [report, hk]

end Transport

/-- `write_all`; what is left of the script goes to the next write. -/
def writeAll : List Wrote → Bytes → Transport → SendResult × Transport × List Wrote
  | [], buf, t => (if buf = [] then .ok else .dropped, t, [])
  | w :: ws, buf, t =>
    if buf = [] then (.ok, t, w :: ws)
    else match w with
      | .ok n =>
        let n := if t.gone then 0 else min n buf.length
        if n = 0 then (.err .unexpectedEof, t, ws) else writeAll ws (buf.drop n) (t.accept (buf.take n))
      | .err kind k => (.err (.io kind), (t.accept (buf.take k)).report kind, ws)
      | .dropped k => (.dropped, t.accept (buf.take k), ws)

/-- `write_frame` -/
def writeFrame (io : Io) (header payload : Bytes) (t : Transport) : SendResult × Transport :=
  match writeAll io.writes header t with
  | (.ok, t, ws) =>
    match if payload = [] then (.ok, t, ws) else writeAll ws payload t with
    | (.ok, t, _) =>
      match io.flush with
      | .ok => (.ok, t)
      | .err kind => (.err (.io kind), t.report kind)
      | .dropped => (.dropped, t)
    | (r, t, _) => (r, t)
  | (r, t, _) => (r, t)

/-! ## The calls -/

/-- A connection's sending side: the transport and the `DesyncFlag`. -/
structure Outbound where
  transport : Transport
  desync : Bool
  deriving DecidableEq, Repr

/-- Whether `send_frame` takes the guard's arming back: on success, and when the device is gone. -/
def SendResult.disarms : SendResult → Bool
  | .ok => true
  | .err e => connectionGone e
  | .dropped => false

/-- `send_frame`: the armed guard sets the flag on every exit that does not disarm it. -/
def sendFrame (io : Io) (header payload : Bytes) (o : Outbound) : SendResult × Outbound :=
  let (sent, transport) := writeFrame io header payload o.transport
  (sent, ⟨transport, o.desync || !sent.disarms⟩)

/-- What the four calls share: check the flag, encode the header, send the frame. -/
def sendEncoded (command : Command) (arg0 arg1 : UInt32) (payload : Bytes) (checksum : Checksum) (io : Io)
    (o : Outbound) : SendResult × Outbound :=
  if o.desync then (.err .desynchronized, o)
  else match encodeHeader command arg0 arg1 payload checksum with
    | .error e => (.err (.protocol e), o)
    | .ok header => sendFrame io header payload o

/-- `send_pkt` -/
def sendPkt (pkt : Packet) (checksum : Checksum) : Io → Outbound → SendResult × Outbound :=
  sendEncoded pkt.command pkt.arg0 pkt.arg1 pkt.data checksum

/-- `send_raw` -/
def sendRaw (command : Command) (ids : ChannelIds) (payload : Bytes) (checksum : Checksum) :
    Io → Outbound → SendResult × Outbound :=
  sendEncoded command ids.localId.raw ids.remote.raw payload checksum

/-- `send_open` -/
def sendOpen (localId : LocalId) (credit : UInt32) (destination : Bytes) (checksum : Checksum) :
    Io → Outbound → SendResult × Outbound :=
  sendEncoded .«open» localId.raw credit destination checksum

/-- The OKAY for an acknowledgement: with delayed ack it carries `ack.len as u32`. -/
def okayPacket (ack : PendingAck) (mode : AckMode) : Packet :=
  ⟨.ready, ack.ids.localId.raw, ack.ids.remote.raw,
    match mode with
    | .delayed => toLeBytes (UInt32.ofNat ack.len)
    | .classic => []⟩

/-- `send_okay_to` -/
def sendOkayTo (ack : PendingAck) (mode : AckMode) (checksum : Checksum) :
    Io → Outbound → SendResult × Outbound :=
  sendRaw .ready ack.ids (okayPacket ack mode).data checksum

/-- Any of the four, with its arguments. -/
inductive Send where
  | pkt (pkt : Packet) (checksum : Checksum)
  | raw (command : Command) (ids : ChannelIds) (payload : Bytes) (checksum : Checksum)
  | «open» (localId : LocalId) (credit : UInt32) (destination : Bytes) (checksum : Checksum)
  | okayTo (ack : PendingAck) (mode : AckMode) (checksum : Checksum)
  deriving DecidableEq, Repr

namespace Send

def call : Send → Io → Outbound → SendResult × Outbound
  | .pkt p checksum => sendPkt p checksum
  | .raw command ids payload checksum => sendRaw command ids payload checksum
  | .«open» localId credit destination checksum => sendOpen localId credit destination checksum
  | .okayTo ack mode checksum => sendOkayTo ack mode checksum

/-- The packet a call is for. -/
def packet : Send → Packet
  | .pkt p _ => p
  | .raw command ids payload _ => ⟨command, ids.localId.raw, ids.remote.raw, payload⟩
  | .«open» localId credit destination _ => ⟨.«open», localId.raw, credit, destination⟩
  | .okayTo ack mode _ => okayPacket ack mode

def checksum : Send → Checksum
  | .pkt _ checksum | .raw _ _ _ checksum | .«open» _ _ _ checksum | .okayTo _ _ checksum => checksum

/-- The bytes a call is for. -/
def frame (c : Send) : Bytes := c.packet.frame c.checksum

/-- Each call is `sendEncoded` of its packet. -/
theorem call_eq (c : Send) (io : Io) (o : Outbound) :
    c.call io o = sendEncoded c.packet.command c.packet.arg0 c.packet.arg1 c.packet.data c.checksum io o := by
  cases c <;> rfl

end Send

/-! ## How a frame ends -/

/-- No call after this one gets a byte through. -/
def Outbound.Stuck (o : Outbound) : Prop := o.desync = true ∨ o.transport.gone = true

section Writes

variable {ws : List Wrote} {buf : Bytes} {t : Transport}

/-- A transport that is gone takes nothing and says so. -/
theorem writeAll_gone (hgone : t.gone = true) (hbuf : buf ≠ []) :
    (writeAll ws buf t).2.1 = t ∧ (writeAll ws buf t).1 ≠ .ok := by
  have haccept : ∀ bytes, t.accept bytes = t := fun bytes => by rw [Transport.accept, if_pos hgone]
  have hreport : ∀ kind, t.report kind = t := fun kind => by
    cases t
    simp_all [Transport.report]
  cases ws with
  | nil =>
    unfold writeAll
    rw [if_neg hbuf]
    exact ⟨rfl, nofun⟩
  | cons w ws =>
    unfold writeAll
    rw [if_neg hbuf]
    cases w with
    | ok n => simp [hgone]
    | err kind k => simp [haccept, hreport]
    | dropped k => simp [haccept]

/-- How far `write_all` can get: to the end, or to some point before it; and a `connection_gone` error is one the
transport reported. -/
structure Wrote.Ends (buf : Bytes) (t : Transport) (r : SendResult × Transport × List Wrote) : Prop where
  accepted : ∃ k, r.2.1.accepted = t.accepted ++ buf.take k
  whole : r.1 = .ok → r.2.1.accepted = t.accepted ++ buf ∧ r.2.1.gone = false
  gone : ∀ e, r.1 = .err e → connectionGone e = true → r.2.1.gone = true

theorem writeAll_nil : writeAll ws [] t = (.ok, t, ws) := by
  cases ws <;> rfl

theorem writeAll_ends (hlive : t.gone = false) : Wrote.Ends buf t (writeAll ws buf t) := by
  have haccept : ∀ (t : Transport) bytes, t.gone = false →
      t.accept bytes = { t with accepted := t.accepted ++ bytes } := fun t bytes h => by
    rw [Transport.accept, h]
    rfl
  induction ws generalizing buf t with
  | nil =>
    by_cases hb : buf = []
    · subst hb
      exact ⟨⟨0, by simp [writeAll]⟩, fun _ => ⟨by simp [writeAll], hlive⟩, nofun⟩
    · rw [writeAll, if_neg hb]
      exact ⟨⟨0, by simp⟩, nofun, nofun⟩
  | cons w ws ih =>
    by_cases hb : buf = []
    · subst hb
      rw [writeAll_nil]
      exact ⟨⟨0, by simp⟩, fun _ => ⟨by simp, hlive⟩, nofun⟩
    unfold writeAll
    rw [if_neg hb]
    cases w with
    | ok n =>
      simp only [hlive, Bool.false_eq_true, if_false, haccept t _ hlive]
      split_ifs
      · -- `Ok(0)` is not a report of the transport's
        refine ⟨⟨0, by simp⟩, nofun, fun e he hg => ?_⟩
        cases he
        cases hg
      · obtain ⟨⟨k, hk⟩, hwhole, hgone⟩ := @ih (buf.drop (min n buf.length))
          ⟨t.accepted ++ buf.take (min n buf.length), false⟩ rfl
        refine ⟨⟨min n buf.length + k, ?_⟩, fun hok => ?_, hgone⟩
        · rw [hk, List.append_assoc, List.take_add]
        · obtain ⟨h1, h2⟩ := hwhole hok
          exact ⟨by rw [h1, List.append_assoc, List.take_append_drop], h2⟩
    | err kind k =>
      simp only [haccept t _ hlive]
      refine ⟨⟨k, rfl⟩, nofun, fun e he hg => ?_⟩
      cases he
      exact Transport.report_gone _ hg
    | dropped k =>
      simp only [haccept t _ hlive]
      exact ⟨⟨k, rfl⟩, nofun, nofun⟩

theorem writeFrame_gone {io : Io} {header payload : Bytes} (hgone : t.gone = true) (hheader : header ≠ []) :
    (writeFrame io header payload t).2 = t ∧ (writeFrame io header payload t).1 ≠ .ok := by
  obtain ⟨h1, h2⟩ := @writeAll_gone io.writes header t hgone hheader
  unfold writeFrame
  split
  · rename_i t' ws' h
    rw [h] at h2
    exact absurd rfl h2
  · rename_i r t' ws' hne h
    rw [h] at h1 h2
    exact ⟨h1, h2⟩

/-- How far a frame can get on a live transport. -/
structure FrameEnds (frame : Bytes) (t : Transport) (r : SendResult × Transport) : Prop where
  accepted : ∃ k, r.2.accepted = t.accepted ++ frame.take k
  whole : r.1 = .ok → r.2.accepted = t.accepted ++ frame
  gone : ∀ e, r.1 = .err e → connectionGone e = true → r.2.gone = true

theorem writeFrame_ends {io : Io} {header payload : Bytes} (hlive : t.gone = false) :
    FrameEnds (header ++ payload) t (writeFrame io header payload t) := by
  have hpart : ∀ k, header.take k = (header ++ payload).take (min k header.length) := fun k => by
    rw [List.take_append_of_le_length (Nat.min_le_right _ _), List.take_eq_take_min]
  unfold writeFrame
  obtain ⟨⟨k, hk⟩, hwhole, hgone⟩ := @writeAll_ends io.writes header t hlive
  split
  · rename_i t1 ws1 h1
    rw [h1] at hwhole
    obtain ⟨hacc, hlive1⟩ := hwhole rfl
    -- an empty payload is written without a call, to the same effect
    have hpay : (if payload = [] then (.ok, t1, ws1) else writeAll ws1 payload t1) = writeAll ws1 payload t1 := by
      split_ifs with hp
      · rw [hp, writeAll_nil]
      · rfl
    obtain ⟨⟨k2, hk2⟩, hwhole2, hgone2⟩ := @writeAll_ends ws1 payload t1 hlive1
    rw [hpay]
    split
    · rename_i t2 ws2 h2
      rw [h2] at hwhole2
      have hall : t2.accepted = t.accepted ++ (header ++ payload) := by
        rw [(hwhole2 rfl).1, hacc, List.append_assoc]
      have hfull : ∃ k, t2.accepted = t.accepted ++ (header ++ payload).take k :=
        ⟨(header ++ payload).length, by rw [hall, List.take_length]⟩
      split
      · exact ⟨hfull, fun _ => hall, nofun⟩
      · refine ⟨hfull, nofun, fun e he hg => ?_⟩
        cases he
        exact Transport.report_gone _ hg
      · exact ⟨hfull, nofun, nofun⟩
    · rename_i r t2 ws2 hne h2
      rw [h2] at hk2 hgone2
      refine ⟨⟨header.length + k2, ?_⟩, fun hok => absurd hok (by simpa using hne), hgone2⟩
      rw [hk2, hacc, List.append_assoc, List.take_length_add_append]
  · rename_i r t1 ws1 hne h1
    rw [h1] at hk hgone
    exact ⟨⟨_, by rw [hk, hpart]⟩, fun hok => absurd hok (by simpa using hne), hgone⟩

end Writes

/-! ## Calls in a row -/

namespace Outbound

def start : Outbound := ⟨⟨[], false⟩, false⟩

/-- The sending side after `calls`. -/
def run (o : Outbound) (calls : List (Send × Io)) : Outbound :=
  calls.foldl (fun o c => (c.1.call c.2 o).2) o

end Outbound

section Call

variable {c : Send} {io : Io} {o : Outbound}

theorem Send.call_desync (h : o.desync = true) : c.call io o = (.err .desynchronized, o) := by
  rw [Send.call_eq, sendEncoded, if_pos h]

theorem Send.call_tooLarge (h : o.desync = false) (hlen : maxPayloadConst < c.packet.data.length) :
    c.call io o = (.err (.protocol .payloadTooLarge), o) := by
  rw [Send.call_eq, sendEncoded, if_neg (by simp [h]), encodeHeader, if_pos hlen]

/-- A call that is not refused sends its frame. -/
theorem Send.call_frame (h : o.desync = false) (hlen : c.packet.data.length ≤ maxPayloadConst) :
    ∃ header, header ++ c.packet.data = c.frame ∧ header ≠ [] ∧
      c.call io o = sendFrame io header c.packet.data o := by
  refine ⟨Message.bytes _, rfl, nofun, ?_⟩
  rw [Send.call_eq, sendEncoded, if_neg (by simp [h]), encodeHeader, if_neg (by omega)]

/-- Once stuck, a call accepts nothing and leaves things stuck. -/
theorem Send.call_stuck (h : o.Stuck) :
    (c.call io o).2.transport = o.transport ∧ (c.call io o).2.Stuck := by
  by_cases hd : o.desync = true
  · rw [Send.call_desync hd]
    exact ⟨rfl, h⟩
  have hd' : o.desync = false := by simpa using hd
  have hgone : o.transport.gone = true := h.resolve_left hd
  by_cases hlen : maxPayloadConst < c.packet.data.length
  · rw [Send.call_tooLarge hd' hlen]
    exact ⟨rfl, h⟩
  · obtain ⟨header, -, hheader, hcall⟩ := @Send.call_frame c io o hd' (not_lt.mp hlen)
    have hsame := (@writeFrame_gone o.transport io header c.packet.data hgone hheader).1
    rw [hcall]
    refine ⟨hsame, Or.inr ?_⟩
    show (writeFrame io header c.packet.data o.transport).2.gone = true
    rw [hsame]
    exact hgone

/-- What one call does while nothing is stuck: it is refused, it sends its frame, or it gets part of the way and
leaves things stuck. -/
theorem Send.call_cases (h : ¬ o.Stuck) :
    (c.call io o).2 = o ∨ c.packet.data.length ≤ maxPayloadConst ∧
      ((c.call io o).2.transport.accepted = o.transport.accepted ++ c.frame ∨
        (c.call io o).2.Stuck ∧
          ∃ k, (c.call io o).2.transport.accepted = o.transport.accepted ++ c.frame.take k) := by
  obtain ⟨hd, hlive⟩ : o.desync = false ∧ o.transport.gone = false := by
    simpa [Outbound.Stuck] using h
  by_cases hlen : maxPayloadConst < c.packet.data.length
  · rw [Send.call_tooLarge hd hlen]
    exact Or.inl rfl
  refine Or.inr ⟨not_lt.mp hlen, ?_⟩
  obtain ⟨header, hframe, -, hcall⟩ := @Send.call_frame c io o hd (not_lt.mp hlen)
  obtain ⟨hpart, hwhole, hgone⟩ := @writeFrame_ends o.transport io header c.packet.data hlive
  rw [hframe] at hpart hwhole
  rw [hcall]
  unfold sendFrame
  cases hr : (writeFrame io header c.packet.data o.transport).1 with
  | ok => exact Or.inl (hwhole hr)
  | err e =>
    refine Or.inr ⟨?_, hpart⟩
    by_cases he : connectionGone e = true
    · exact Or.inr (hgone e hr he)
    · exact Or.inl (by simp [hr, SendResult.disarms, he])
  | dropped => exact Or.inr ⟨Or.inl (by simp [hr, SendResult.disarms]), hpart⟩

end Call

theorem Outbound.run_stuck {o : Outbound} (h : o.Stuck) (calls : List (Send × Io)) :
    (o.run calls).transport = o.transport := by
  induction calls generalizing o with
  | nil => rfl
  | cons c calls ih =>
    obtain ⟨hsame, hstuck⟩ := @Send.call_stuck c.1 c.2 o h
    exact (ih hstuck).trans hsame

/-- What the transport has accepted from `calls`: whole frames, in the order of their calls, and then at most a part
of one more, behind which nothing follows. -/
structure Framed (calls : List Send) (o : Outbound) (whole : List Send) (tail : Bytes) : Prop where
  order : whole.Sublist calls
  size : ∀ c ∈ whole, c.packet.data.length ≤ maxPayloadConst
  accepted : o.transport.accepted = (whole.map Send.frame).flatten ++ tail
  incomplete : tail = [] ∨ (∃ c ∈ calls, tail <+: c.frame ∧ tail ≠ c.frame) ∧ o.Stuck

/-- One more call. -/
theorem Framed.call {calls whole : List Send} {o : Outbound} {tail : Bytes} (h : Framed calls o whole tail)
    (c : Send) (io : Io) : ∃ whole' tail', Framed (calls ++ [c]) (c.call io o).2 whole' tail' := by
  obtain ⟨horder, hsize, hacc, htail⟩ := h
  have horder' : whole.Sublist (calls ++ [c]) := horder.trans (List.sublist_append_left _ _)
  have hmem : ∀ d ∈ calls, d ∈ calls ++ [c] := fun d hd => List.mem_append_left _ hd
  -- a frame that got through whole
  have hwhole : ∀ o' : Outbound, tail = [] → c.packet.data.length ≤ maxPayloadConst →
      o'.transport.accepted = o.transport.accepted ++ c.frame → Framed (calls ++ [c]) o' (whole ++ [c]) [] := by
    intro o' hnil hlen hacc'
    refine ⟨horder.append (List.Sublist.refl [c]), fun d hd => ?_, ?_, Or.inl rfl⟩
    · rcases List.mem_append.mp hd with hd | hd
      · exact hsize d hd
      · rwa [List.mem_singleton.mp hd]
    · rw [hacc', hacc, hnil]
      simp
  by_cases hstuck : o.Stuck
  · obtain ⟨hsame, hstuck'⟩ := @Send.call_stuck c io o hstuck
    refine ⟨whole, tail, horder', hsize, by rw [hsame, hacc], ?_⟩
    rcases htail with hnil | ⟨⟨d, hd, hpart⟩, -⟩
    · exact Or.inl hnil
    · exact Or.inr ⟨⟨d, hmem d hd, hpart⟩, hstuck'⟩
  have hnil : tail = [] := htail.resolve_right fun hs => hstuck hs.2
  rcases @Send.call_cases c io o hstuck with hsame | ⟨hlen, hacc' | ⟨hstuck', k, hacc'⟩⟩
  · rw [hsame]
    exact ⟨whole, tail, horder', hsize, hacc, Or.inl hnil⟩
  · exact ⟨whole ++ [c], [], hwhole _ hnil hlen hacc'⟩
  · by_cases hfull : c.frame.take k = c.frame
    · exact ⟨whole ++ [c], [], hwhole _ hnil hlen (hfull ▸ hacc')⟩
    · refine ⟨whole, c.frame.take k, horder', hsize, by rw [hacc', hacc, hnil, List.append_nil], Or.inr ⟨?_, hstuck'⟩⟩
      exact ⟨c, List.mem_append_right _ (List.mem_singleton_self c), List.take_prefix _ _, hfull⟩

theorem Outbound.run_framed (calls : List (Send × Io)) :
    ∃ whole tail, Framed (calls.map Prod.fst) (Outbound.start.run calls) whole tail := by
  induction calls using List.reverseRecOn with
  | nil => exact ⟨[], [], List.Sublist.refl _, nofun, rfl, Or.inl rfl⟩
  | append_singleton calls c ih =>
    obtain ⟨whole, tail, h⟩ := ih
    rw [List.map_append, List.map_singleton, Outbound.run, List.foldl_append]
    exact h.call c.1 c.2

/-- **Outbound framing.**  Whatever the transport does to the calls, it has accepted whole frames of theirs, in
order, and at most a part of one more; once there is such a part nothing is ever added to it.  A call that is refused
for the flag or for the size of its payload changes nothing. -/
theorem outbound_framed (calls : List (Send × Io)) (o : Outbound) (ho : Outbound.start.run calls = o) :
    (∃ (whole : List Send) (tail : Bytes), whole.Sublist (calls.map Prod.fst) ∧
      (∀ c ∈ whole, c.packet.data.length ≤ maxPayloadConst) ∧
      o.transport.accepted = (whole.map Send.frame).flatten ++ tail ∧
      (tail = [] ∨ (∃ c ∈ calls.map Prod.fst, tail <+: c.frame ∧ tail ≠ c.frame) ∧
        ∀ more, (o.run more).transport.accepted = o.transport.accepted)) ∧
    (∀ (c : Send) (io : Io), o.desync = true → c.call io o = (.err .desynchronized, o)) ∧
    (∀ (c : Send) (io : Io), o.desync = false → maxPayloadConst < c.packet.data.length →
      c.call io o = (.err (.protocol .payloadTooLarge), o)) := by
  subst ho
  obtain ⟨whole, tail, horder, hsize, hacc, htail⟩ := Outbound.run_framed calls
  refine ⟨⟨whole, tail, horder, hsize, hacc, ?_⟩, fun c io => Send.call_desync, fun c io => Send.call_tooLarge⟩
  rcases htail with hnil | ⟨hpart, hstuck⟩
  · exact Or.inl hnil
  · exact Or.inr ⟨hpart, fun more => by rw [Outbound.run_stuck hstuck]⟩

/-- A CLSE in two pieces, and a WRTE dropped inside its payload. -/
def tornCalls : List (Send × Io) :=
  [(.pkt (Packet.close ⟨⟨1⟩, ⟨2⟩⟩) .skip, ⟨[.ok 10, .ok 99], .ok⟩),
    (.raw .write ⟨⟨3⟩, ⟨4⟩⟩ [7, 8, 9] .compute, ⟨[.ok 24, .dropped 2], .ok⟩)]

/-- After the drop the flag is set, 26 bytes of the WRTE stand behind the CLSE, and the CLSE sent next adds none. -/
theorem outbound_framed_torn :
    (Outbound.start.run tornCalls).transport.accepted.length = 50 ∧
      (Outbound.start.run tornCalls).desync = true ∧
      (Send.pkt (Packet.close ⟨⟨3⟩, ⟨4⟩⟩) .skip).call ⟨[.ok 24], .ok⟩ (Outbound.start.run tornCalls) =
        (.err .desynchronized, Outbound.start.run tornCalls) :=
  ⟨by decide, by decide, (outbound_framed tornCalls _ rfl).2.1 _ _ (by decide)⟩

end LibAdb
