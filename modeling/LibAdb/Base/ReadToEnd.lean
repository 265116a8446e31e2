import LibAdb.Base.Connection
import LibAdb.Lib.Slices

/-!
# LibAdb.Base.ReadToEnd — collecting the output of a channel

`ReadToEnd::read_to_vec` and `read_to_end` of `base/channel.rs` over `Connection::read_channel`: read until the device
has closed the channel, or until there is more than the cap or the buffer, and close.  Of the buffer that `read_to_vec`
reads into only the length is kept.

`Serving` is what holds of a connection while a transport that takes every small packet whole feeds it the WRTEs of one
channel.  Each piece of a read keeps it; a read hands over some more of the output (`Serving.read`), so the loop ends
(`collects_of_route`, `fills_of_route`).  A read into no buffer at all hands over nothing, and the output stays where it
is: `read_to_vec_stalls`.  `Astray` is what holds when another slot in front has the channel's id: WRTEs longer than the
read has room for are lost to the channel.
-/

namespace LibAdb

/-- `Capped` -/
inductive Capped where
  | capped
  deriving DecidableEq, Repr

namespace Connection

open ConnM

variable [Usize] (ng : Negotiated)

/-- The loop of `read_to_vec`, and how it breaks; each read may take `rounds` packets.  `read_channel` has no
interrupt, so it never reports one. -/
def readToVecLoop (ch : ChannelId) (rx cap rounds : ℕ) : ℕ → Bytes → ConnM (Except Error (Except Capped Bytes))
  | 0, _ => dropped
  | reads + 1, out => do
    match ← attempt (readChannel ng ch rx rounds) with
    | .ok (.data bytes) =>
      if cap - out.length < bytes.length then pure (.ok (.error .capped))
      else readToVecLoop ch rx cap rounds reads (out ++ bytes)
    | .ok .interrupted => dropped
    | .error .channelClosed => pure (.ok (.ok out))
    | .error e => pure (.error e)

/-- `read_to_vec` -/
def readToVec (ch : ChannelId) (rx cap rounds reads : ℕ) : ConnM (Except Capped Bytes) := do
  let read ← readToVecLoop ng ch rx cap rounds reads []
  let _ ← attempt (closeChannel ng ch)
  lift read

/-- The loop of `read_to_end`, and how it breaks, with the buffer as it is then; each read may take `rounds` packets. -/
def readToEndLoop (ch : ChannelId) (rounds : ℕ) : ℕ → Bytes → ℕ → ConnM (Except Error ℕ × Bytes)
  | 0, _, _ => dropped
  | reads + 1, buf, tail => do
    -- the scratch byte, or the rest of the buffer
    let full := tail = buf.length
    let room := if full then 1 else buf.length - tail
    match ← attempt (readChannel ng ch room rounds) with
    | .ok (.data bytes) =>
      if full ∧ 0 < bytes.length then pure (.error .receiveBufferFull, buf)
      else readToEndLoop ch rounds reads (if full then buf else Slices.splice buf tail bytes) (tail + bytes.length)
    | .ok .interrupted => dropped
    | .error .channelClosed => pure (.ok tail, buf)
    | .error e => pure (.error e, buf)

/-- `read_to_end` -/
def readToEnd (ch : ChannelId) (buf : Bytes) (rounds reads : ℕ) : ConnM (Except Error ℕ × Bytes) := do
  let read ← readToEndLoop ng ch rounds reads buf 0
  let _ ← attempt (closeChannel ng ch)
  pure read

end Connection

/-! ## The slot of a channel that is read -/

/-- An open channel with `buf` to read. -/
structure ChannelSlot.Holds (ids : ChannelIds) (limit : ℕ) (buf : Bytes) (slot : ChannelSlot) : Prop where
  ids_eq : slot.ids = some ids
  buf_eq : slot.rxBuf = buf
  settled : slot.settled = 0
  room : limit ≤ slot.policy.rxCap
  live : slot.isFailed = false
  isOpen : slot.state ≠ .closed

namespace ChannelSlot.Holds

variable {ids : ChannelIds} {limit : ℕ} {buf : Bytes} {slot slot' : ChannelSlot}

theorem localId (h : slot.Holds ids limit buf) : slot.localId = ids.localId := by
  have hids := h.ids_eq
  unfold ChannelSlot.ids at hids
  obtain ⟨r, -, rfl⟩ := Option.map_eq_some_iff.mp hids
  rfl

theorem remote (h : slot.Holds ids limit buf) : slot.remote.isSome = true := by
  have hids := h.ids_eq
  unfold ChannelSlot.ids at hids
  obtain ⟨r, hr, -⟩ := Option.map_eq_some_iff.mp hids
  rw [hr]
  rfl

theorem isClosed (h : slot.Holds ids limit buf) : slot.isClosed = false := by
  have := h.isOpen
  unfold ChannelSlot.isClosed
  simpa using this

/-- What `settle_take` leaves of it. -/
theorem settled_or (h : slot.Holds ids limit buf) {want : ℕ}
    (hsettle : slot' = slot ∨ ∃ ack, slot.settleTake want = some (ack, slot')) :
    (slot'.settled = 0 ∨ slot'.settled = min want buf.length) ∧
      ({ slot' with settled := 0, settled_le := Nat.zero_le _ } : ChannelSlot).Holds ids limit buf := by
  rcases hsettle with rfl | ⟨ack, hack⟩
  · exact ⟨.inl h.settled, h.ids_eq, h.buf_eq, rfl, h.room, h.live, h.isOpen⟩
  · obtain ⟨-, -, -, rfl⟩ := ChannelSlot.settleTake_some hack
    exact ⟨.inr (by rw [← h.buf_eq]), h.ids_eq, h.buf_eq, rfl, h.room, h.live, h.isOpen⟩

/-- A read that has settled, or found nothing to settle, takes what it wants of what is there. -/
theorem taken (h : slot.Holds ids limit buf) {want : ℕ}
    (hsettle : slot' = slot ∨ ∃ ack, slot.settleTake want = some (ack, slot')) :
    (buf = [] ∧ slot'.takeBuffered want = .ok none ∧ slot'.Holds ids limit []) ∨
      (buf ≠ [] ∧ ∃ slot'', slot'.takeBuffered want = .ok (some (buf.take want, slot'')) ∧
        slot''.localId = ids.localId ∧ slot''.Holds ids limit (buf.drop want)) := by
  obtain ⟨hset, hrest⟩ := h.settled_or hsettle
  have hbuf : slot'.rxBuf = buf := hrest.buf_eq
  have hready : min want slot'.ready = min want buf.length := by
    unfold ChannelSlot.ready
    rw [hbuf]
    split_ifs
    · rfl
    · omega
  by_cases hempty : buf = []
  · refine .inl ⟨hempty, ?_, hrest.ids_eq, hbuf.trans hempty, ?_, hrest.room, hrest.live, hrest.isOpen⟩
    · have hno : slot'.hasData = false := by simp [ChannelSlot.hasData, hbuf, hempty]
      have hclosed : slot'.isClosed = false := hrest.isClosed
      rw [ChannelSlot.takeBuffered, if_pos hno, hclosed]
      rfl
    · rcases hset with hz | hm
      · exact hz
      · simpa [hempty] using hm
  · have hyes : slot'.hasData = true := by
      have hremote : slot'.remote.isSome = true := hrest.remote
      simp [ChannelSlot.hasData, hremote, hbuf, hempty]
    have hsome : ∃ r, slot'.takeBuffered want = .ok (some r) := by
      rw [ChannelSlot.takeBuffered, if_neg (by rw [hyes]; decide)]
      exact ⟨_, rfl⟩
    obtain ⟨⟨out, slot''⟩, htake⟩ := hsome
    obtain ⟨-, hout, hle, hslot⟩ := ChannelSlot.takeBuffered_some htake
    rw [hready, hbuf, ← List.take_eq_take_min] at hout
    refine .inr ⟨hempty, slot'', by rw [htake, hout], ?_⟩
    subst hslot
    refine ⟨hrest.localId, hrest.ids_eq, ?_, ?_, hrest.room, hrest.live, hrest.isOpen⟩
    · dsimp only
      rw [hready, hbuf, ← List.drop_eq_drop_min]
    · dsimp only
      rw [hready]
      omega

/-- An arrival that fits goes behind what is there, acknowledged at once or not. -/
theorem arrives [Usize] (h : slot.Holds ids limit []) {payload : Bytes} (hlen : payload.length ≤ limit) :
    ∃ d slot', slot.applyWrite payload = .ok (d, slot') ∧ slot'.Holds ids limit payload := by
  have hfits : slot.held + payload.length ≤ slot.policy.rxCap := by
    have hroom := h.room
    rw [ChannelSlot.held, h.buf_eq, List.length_nil]
    omega
  obtain ⟨⟨d, slot'⟩, happly⟩ := ChannelSlot.applyWrite_of_fits hfits
  refine ⟨d, slot', happly, ?_⟩
  have hbuf : slot.rxBuf ++ payload = payload := by rw [h.buf_eq, List.nil_append]
  obtain ⟨-, hle, ⟨-, rfl, -⟩ | ⟨ids1, -, -, rfl, -⟩⟩ := ChannelSlot.applyWrite_ok happly
  · exact ⟨h.ids_eq, hbuf, h.settled, h.room, h.live, h.isOpen⟩
  · exact ⟨h.ids_eq, hbuf, h.settled, h.room, h.live, h.isOpen⟩

end ChannelSlot.Holds

/-! ## The connection while the channel is read -/

/-- The transport takes a packet of at most four payload bytes whole. -/
def Io.Smooth (io : Io) : Prop :=
  ∀ (c : Send) (o : Outbound), ¬ o.Stuck → c.packet.data.length ≤ 4 → (c.call io o).1 = .ok ∧ ¬ (c.call io o).2.Stuck

/-- A header and up to four bytes behind it. -/
theorem Io.smooth_of_whole : Io.Smooth ⟨[.ok 24, .ok 4], .ok⟩ := by
  intro c o hlive hlen
  obtain ⟨hdesync, hgone⟩ : o.desync = false ∧ o.transport.gone = false := by
    simpa [Outbound.Stuck] using hlive
  obtain ⟨header, hframe, hne, hcall⟩ := @Send.call_frame c ⟨[.ok 24, .ok 4], .ok⟩ o hdesync (hlen.trans (by decide))
  have hheader : header.length = 24 := by
    have := congrArg List.length hframe
    rw [Send.frame, Packet.frame, List.length_append, List.length_append, Message.length_bytes] at this
    unfold messageSize at this
    omega
  have hwrite : ∃ t, writeFrame ⟨[.ok 24, .ok 4], .ok⟩ header c.packet.data o.transport = (.ok, t) ∧
      t.gone = false := by
    have h1 : writeAll [.ok 24, .ok 4] header o.transport = (.ok, o.transport.accept header, [.ok 4]) := by
      simp [writeAll, hne, hgone, hheader, List.take_of_length_le hheader.le]
    have hlive1 : (o.transport.accept header).gone = false := by simp [Transport.accept, hgone]
    unfold writeFrame
    rw [h1]
    dsimp only
    by_cases hp : c.packet.data = []
    · rw [if_pos hp]
      exact ⟨_, rfl, hlive1⟩
    · have h2 : writeAll [.ok 4] c.packet.data (o.transport.accept header) =
          (.ok, (o.transport.accept header).accept c.packet.data, []) := by
        simp [writeAll, hp, hlive1, min_eq_right hlen]
      rw [if_neg hp, h2]
      exact ⟨_, rfl, by simp [Transport.accept, hgone]⟩
  obtain ⟨t, hw, ht⟩ := hwrite
  rw [hcall, sendFrame, hw]
  exact ⟨rfl, by simp [Outbound.Stuck, SendResult.disarms, hdesync, ht]⟩

theorem replicate_smooth (n : ℕ) : ∀ io ∈ List.replicate n (⟨[.ok 24, .ok 4], .ok⟩ : Io), io.Smooth :=
  fun _ hio => List.eq_of_mem_replicate hio ▸ Io.smooth_of_whole

namespace Connection

open ConnM

/-- A small packet goes out on a transport that takes such packets. -/
theorem send_of_smooth {s : Connection} {c : Send} (hsmooth : ∀ io ∈ s.ios, io.Smooth) (hlive : ¬ s.out.Stuck)
    (hios : 1 ≤ s.ios.length) (hlen : c.packet.data.length ≤ 4) :
    ∃ o io ios, s.ios = io :: ios ∧
      send c s = (.ok (), { s with
        out := o, ios := ios, sent := s.sent ++ [c.packet], log := s.log ++ [.wrote c.packet] }) ∧ ¬ o.Stuck := by
  obtain ⟨io, ios, hcons⟩ := List.exists_cons_of_length_pos hios
  obtain ⟨hok, hlive'⟩ := hsmooth io (by rw [hcons]; exact List.mem_cons_self) c s.out hlive hlen
  obtain ⟨hdesync, hgone⟩ : s.out.desync = false ∧ s.out.transport.gone = false := by
    simpa [Outbound.Stuck] using hlive
  have hbegins : begins s.out c.packet = true := by
    have : c.packet.data.length ≤ maxPayloadConst := hlen.trans (by decide)
    simp [begins, hdesync, this]
  have hreaches : reaches s.out c.packet = true := by simp [reaches, hbegins, hgone]
  refine ⟨(c.call io s.out).2, io, ios, hcons, ?_, hlive'⟩
  simp only [send, hcons, hok, hbegins, hreaches, if_true]

/-- The slot of `ch` satisfies `P`, packets with its id are dispatched to `target`, `inputs` is what arrives, the
transport takes at least `sends` more packets, and OKAYs are all that was begun since `base`. -/
structure Serving (target : Option ℕ) (ch : ChannelId) (base : List Packet) (sends : ℕ) (P : ChannelSlot → Prop) (inputs : List Input)
    (s : Connection) : Prop where
  slot : ∃ slot, s.table.get ch = some slot ∧ P slot
  route : s.table.slotOf ch.localId.raw = target
  inputs_eq : s.inputs.filter (· ≠ .interrupted) = inputs
  smooth : ∀ io ∈ s.ios, io.Smooth
  live : ¬ s.out.Stuck
  sends_le : sends ≤ s.ios.length
  sent : ∃ okays, s.sent = base ++ okays ∧ ∀ pkt ∈ okays, pkt.command = .ready

namespace Serving

variable {target : Option ℕ} {ch : ChannelId} {base : List Packet} {sends : ℕ} {P Q : ChannelSlot → Prop} {inputs : List Input}
  {s : Connection}

theorem mono {more : ℕ} (h : Serving target ch base more P inputs s) (hle : sends ≤ more)
    (hQ : ∀ slot, P slot → Q slot) : Serving target ch base sends Q inputs s := by
  obtain ⟨slot, hget, hP⟩ := h.slot
  exact ⟨⟨slot, hget, hQ slot hP⟩, h.route, h.inputs_eq, h.smooth, h.live, hle.trans h.sends_le, h.sent⟩

theorem weaken (h : Serving target ch base (sends + 1) P inputs s) : Serving target ch base sends P inputs s :=
  h.mono (Nat.le_succ _) fun _ => id

theorem desync (h : Serving target ch base sends P inputs s) : s.out.desync = false := by
  have := h.live
  simp only [Outbound.Stuck, not_or, Bool.not_eq_true] at this
  exact this.1

theorem checkDesync_ok (h : Serving target ch base sends P inputs s) : checkDesync s = (.ok (), s) := by
  rw [checkDesync, state_bind, h.desync]
  rfl

/-- An OKAY goes out. -/
theorem send_ok (h : Serving target ch base (sends + 1) P inputs s) {c : Send} (hlen : c.packet.data.length ≤ 4)
    (hready : c.packet.command = .ready) :
    ∃ s', send c s = (.ok (), s') ∧ s'.table = s.table ∧ Serving target ch base sends P inputs s' := by
  obtain ⟨okays, hsent, hokays⟩ := h.sent
  have hmany := h.sends_le
  obtain ⟨o, io, ios, hios, hsend, hlive⟩ := send_of_smooth h.smooth h.live (by omega) hlen
  refine ⟨_, hsend, rfl, h.slot, h.route, h.inputs_eq, ?_, hlive, ?_, okays ++ [c.packet], ?_, ?_⟩
  · intro io' hio'
    exact h.smooth io' (by rw [hios]; exact List.mem_cons_of_mem _ hio')
  · rw [hios, List.length_cons] at hmany
    exact Nat.le_of_succ_le_succ hmany
  · dsimp only
    rw [hsent, List.append_assoc]
  · intro pkt hpkt
    rcases List.mem_append.mp hpkt with hpkt | hpkt
    · exact hokays pkt hpkt
    · rw [List.mem_singleton.mp hpkt]
      exact hready

theorem sendOkay [Usize] (ng : Negotiated) (h : Serving target ch base (sends + 1) P inputs s) (ack : PendingAck) :
    ∃ s', Connection.sendOkay ng ack s = (.ok (), s') ∧ s'.table = s.table ∧ Serving target ch base sends P inputs s' := by
  have hlen : (Send.okayTo ack ng.ackMode ng.checksum).packet.data.length ≤ 4 := by
    unfold Send.packet okayPacket
    dsimp only
    cases ng.ackMode with
    | delayed => exact le_rfl
    | classic => exact Nat.zero_le _
  exact h.send_ok hlen rfl

/-- The slot is written back under its id. -/
theorem put (h : Serving target ch base sends P inputs s) {slot slot' : ChannelSlot} (hget : s.table.get ch = some slot)
    (hid : slot'.localId = ch.localId) (hQ : Q slot') :
    ∃ s', putSlot ch slot' s = (.ok (), s') ∧ s'.table.get ch = some slot' ∧ Serving target ch base sends Q inputs s' := by
  obtain ⟨hat, hown⟩ := ChannelTable.get_eq_some.mp hget
  have hget' : (s.table.put ch.slot (some slot')).get ch = some slot' := ChannelTable.get_put_self hat hid
  have hroute : (s.table.put ch.slot (some slot')).slotOf ch.localId.raw = target := by
    rw [ChannelTable.slotOf_put hat (hid.trans hown.symm), h.route]
  exact ⟨{ s with table := s.table.put ch.slot (some slot') }, rfl, hget', ⟨slot', hget', hQ⟩, hroute, h.inputs_eq,
    h.smooth, h.live, h.sends_le, h.sent⟩

theorem recvPkt_ok {pkt : Packet} {rest : List Input} (h : Serving target ch base sends P (.packet pkt :: rest) s) :
    ∃ s', recvPkt s = (.ok pkt, s') ∧ s'.table = s.table ∧ Serving target ch base sends P rest s' := by
  have hfilter := h.inputs_eq
  refine ⟨{ s with inputs := rest, log := s.log ++ [.received pkt] }, by rw [recvPkt, hfilter], rfl, h.slot, h.route,
    ?_, h.smooth, h.live, h.sends_le, h.sent⟩
  -- the rest was filtered already
  apply List.filter_eq_self.mpr
  intro i hi
  have hmem : i ∈ s.inputs.filter (· ≠ .interrupted) := by
    rw [hfilter]
    exact List.mem_cons_of_mem _ hi
  exact (List.mem_filter.mp hmem).2

variable [Usize] (ng : Negotiated) {ids : ChannelIds} {limit : ℕ} {buf : Bytes}

/-- `take_buffered` hands over what is wanted of what is there. -/
theorem takeBuffered_ok (h : Serving target ch base (sends + 1) (ChannelSlot.Holds ids limit buf) inputs s) (want : ℕ) :
    ∃ s', takeBuffered ng ch want s = (.ok (if buf = [] then none else some (buf.take want)), s') ∧
      Serving target ch base sends (ChannelSlot.Holds ids limit (buf.drop want)) inputs s' := by
  obtain ⟨slot, hget, hholds⟩ := h.slot
  have hid : slot.localId = ch.localId := (ChannelTable.get_eq_some.mp hget).2
  -- the connection is in step, so there is data or the check passes
  have hcheck : ∀ m : ConnM (Option Bytes),
      (if (s.table.get ch).any ChannelSlot.hasData = true then m else checkDesync >>= fun _ => m) s = m s := by
    intro m
    split_ifs
    · rfl
    · exact bind_of_ok h.checkDesync_ok
  unfold takeBuffered
  rw [state_bind]
  extract_lets takes
  beta_reduce
  rw [hcheck, bind_of_ok (slotMut_of_get hget)]
  -- what is left to do once the read has settled
  have htakes : ∀ (slot1 : ChannelSlot) (s1 : Connection),
      (slot1 = slot ∨ ∃ ack, slot.settleTake want = some (ack, slot1)) →
      s1.table.get ch = some slot1 → Serving target ch base sends (fun _ => True) inputs s1 →
      ∃ s', takes () s1 = (.ok (if buf = [] then none else some (buf.take want)), s') ∧
        Serving target ch base sends (ChannelSlot.Holds ids limit (buf.drop want)) inputs s' := by
    intro slot1 s1 hsettle hget1 hserve
    obtain ⟨hempty, htake, hholds1⟩ | ⟨hne, slot2, htake, hid2, hholds2⟩ := hholds.taken hsettle
    · refine ⟨s1, ?_, ⟨slot1, hget1, ?_⟩, hserve.route, hserve.inputs_eq, hserve.smooth, hserve.live,
        hserve.sends_le, hserve.sent⟩
      · show (slotMut ch >>= _) s1 = _
        rw [bind_of_ok (slotMut_of_get hget1), htake, if_pos hempty, bind_of_ok (lift_ok _)]
        rfl
      · rw [hempty, List.drop_nil]
        exact hholds1
    · obtain ⟨s2, hput, hget2, hserve2⟩ := hserve.put hget1 (hid2.trans (hholds.localId.symm.trans hid)) hholds2
      refine ⟨s2, ?_, hserve2⟩
      show (slotMut ch >>= _) s1 = _
      rw [bind_of_ok (slotMut_of_get hget1), htake, if_neg hne, bind_of_ok (lift_ok _)]
      exact bind_of_ok hput
  cases hsettle : slot.settleTake want with
  | none =>
    exact htakes slot s (.inl rfl) hget (h.mono (Nat.le_succ _) fun _ _ => trivial)
  | some r =>
    obtain ⟨ack, slot1⟩ := r
    have hid1 : slot1.localId = ch.localId := by
      obtain ⟨-, -, -, rfl⟩ := ChannelSlot.settleTake_some hsettle
      exact hid
    obtain ⟨s1, hput, hget1, hserve1⟩ := h.put (Q := fun _ => True) hget hid1 trivial
    obtain ⟨s2, hokay, htable, hserve2⟩ := hserve1.sendOkay ng ack
    obtain ⟨s3, htakes3, hserve3⟩ := htakes slot1 s2 (.inr ⟨ack, hsettle⟩) (by rw [htable]; exact hget1) hserve2
    refine ⟨s3, ?_, hserve3⟩
    refine (bind_of_ok hput).trans ?_
    rw [bind_of_ok (attempt_of_ok hokay)]
    exact htakes3

/-- What was handed over from the packet itself is acknowledged. -/
theorem deliver_ok (h : Serving target ch base (sends + 1) (ChannelSlot.Holds ids limit buf) inputs s) (n : ℕ) :
    ∃ s', deliver ng ch n s = (.ok (), s') ∧
      Serving target ch base sends (ChannelSlot.Holds ids limit buf) inputs s' := by
  obtain ⟨slot, hget, hholds⟩ := h.slot
  have hid : slot.localId = ch.localId := (ChannelTable.get_eq_some.mp hget).2
  obtain ⟨hid', hholds'⟩ : (slot.deliver n).2.localId = ch.localId ∧ (slot.deliver n).2.Holds ids limit buf := by
    unfold ChannelSlot.deliver
    split_ifs
    · exact ⟨hid, hholds⟩
    · exact ⟨hid, hholds⟩
    · split
      · exact ⟨hid, hholds.ids_eq, hholds.buf_eq, hholds.settled, hholds.room, hholds.live, hholds.isOpen⟩
      · exact ⟨hid, hholds⟩
  obtain ⟨s1, hput, -, hserve1⟩ := h.put hget hid' hholds'
  unfold deliver
  rw [state_bind, hget]
  cases hack : (slot.deliver n).1 with
  | none =>
    refine ⟨s1, (bind_of_ok hput).trans ?_, hserve1.weaken⟩
    rw [hack]
    rfl
  | some ack =>
    obtain ⟨s2, hokay, -, hserve2⟩ := hserve1.sendOkay ng ack
    refine ⟨s2, (bind_of_ok hput).trans ?_, hserve2⟩
    rw [hack]
    exact bind_of_ok (attempt_of_ok hokay)

/-- A WRTE that is not handed over goes behind what is there. -/
theorem dispatch_ok (h : Serving target ch base (sends + 1) (ChannelSlot.Holds ids limit []) inputs s)
    (hmine : target = some ch.slot) {pkt : Packet} (hcmd : pkt.command = .write) (harg : pkt.arg1 = ch.localId.raw) (hlen : pkt.data.length ≤ limit) :
    ∃ s', dispatch ng pkt s = (.ok (), s') ∧
      Serving target ch base sends (ChannelSlot.Holds ids limit pkt.data) inputs s' := by
  obtain ⟨slot, hget, hholds⟩ := h.slot
  obtain ⟨hat, hid⟩ := ChannelTable.get_eq_some.mp hget
  obtain ⟨d, slot', happly, hholds'⟩ := hholds.arrives hlen
  have hid' : slot'.localId = ch.localId := hholds'.localId.trans (hholds.localId.symm.trans hid)
  obtain ⟨s1, hput, -, hserve1⟩ := h.put hget hid' hholds'
  have hs1 : setTable (s.table.put ch.slot (some slot')) s = (.ok (), s1) := hput
  have hroute : s.table.slotOf pkt.arg1 = some ch.slot := by rw [harg, h.route, hmine]
  have hdispatch : s.table.dispatch pkt = s.table.dispatchTo pkt ch.slot slot := by
    simp only [ChannelTable.dispatch, hcmd, hroute, hat]
    simp
  -- acknowledged at once, or held
  have hact : ∃ s', actOn ng pkt s = (.ok (), s') ∧
      Serving target ch base sends (ChannelSlot.Holds ids limit pkt.data) inputs s' := by
    unfold actOn
    rw [state_bind, hdispatch]
    simp only [ChannelTable.dispatchTo, hcmd, hholds.live, happly, Bool.false_eq_true, if_false]
    cases d with
    | now ack =>
      obtain ⟨s2, hokay, -, hserve2⟩ := hserve1.sendOkay ng ack
      refine ⟨s2, ?_, hserve2⟩
      rw [bind_of_ok hs1]
      exact hokay
    | hold =>
      refine ⟨s1, ?_, hserve1.weaken⟩
      rw [bind_of_ok hs1]
      rfl
  obtain ⟨s2, hact2, hserve2⟩ := hact
  refine ⟨s2, ?_, hserve2⟩
  unfold dispatch
  rw [bind_of_ok (attempt_of_ok hact2)]
  rfl

omit [Usize] in
theorem ids_ok (h : Serving target ch base sends P inputs s) (hP : ∀ slot, P slot → slot.ids = some ids) :
    s.table.ids ch = .ok ids := by
  obtain ⟨slot, hget, hslot⟩ := h.slot
  rw [ChannelTable.ids, hget, Option.bind_some, hP slot hslot]

/-! ## Reads -/

/-- The WRTEs of the channel that are still to come. -/
structure Arrivals (ids : ChannelIds) (limit : ℕ) (pkts : List Packet) : Prop where
  write : ∀ pkt ∈ pkts, pkt.command = .write ∧ pkt.arg1 = ids.localId.raw
  size : ∀ pkt ∈ pkts, pkt.data ≠ [] ∧ pkt.data.length ≤ limit

/-- How `read_to_end` leaves a buffer: the output in front, or as much of it as there is room for. -/
def filled (dst output : Bytes) : Except Error ℕ × Bytes :=
  if output.length ≤ dst.length then (.ok output.length, output ++ dst.drop output.length)
  else (.error .receiveBufferFull, output.take dst.length)

/-- What they carry. -/
def output (pkts : List Packet) : Bytes := (pkts.map Packet.data).flatten

variable {pkts : List Packet} {rest : List Input} (want rounds : ℕ)

/-- A read with data in the slot. -/
theorem readBuffered (h : Serving target ch base (sends + 1) (ChannelSlot.Holds ids limit buf) inputs s) (hbuf : buf ≠ []) :
    ∃ s', readChannel ng ch want rounds s = (.ok (.data (buf.take want)), s') ∧
      Serving target ch base sends (ChannelSlot.Holds ids limit (buf.drop want)) inputs s' := by
  obtain ⟨s1, htake, hserve1⟩ := h.takeBuffered_ok ng want
  rw [if_neg hbuf] at htake
  refine ⟨s1, ?_, hserve1⟩
  unfold readChannel recvData
  rw [bind_of_ok htake]
  rfl

/-- A read with nothing in the slot goes to the transport. -/
theorem readChannel_empty (h : Serving target ch base (sends + 1) (ChannelSlot.Holds ids limit []) inputs s) :
    ∃ s', readChannel ng ch want rounds s = recvLoop ng ch ids want false rounds s' ∧
      Serving target ch base sends (ChannelSlot.Holds ids limit []) inputs s' := by
  obtain ⟨s1, htake, hserve1⟩ := h.takeBuffered_ok ng want
  rw [if_pos rfl] at htake
  rw [List.drop_nil] at hserve1
  refine ⟨s1, ?_, hserve1⟩
  have hids : s1.table.ids ch = .ok ids := hserve1.ids_ok fun slot hs => hs.ids_eq
  unfold readChannel recvData
  rw [bind_of_ok htake]
  show (state >>= fun s => lift (s.table.ids ch) >>= fun ids => recvLoop ng ch ids want false rounds) s1 = _
  rw [state_bind, hids, bind_of_ok (lift_ok _)]

/-- **A read looks at what is in the slot, or else at the next WRTE**, an empty one included, and hands over as much of
it as it has room for. -/
theorem readNext (h : Serving target ch base (sends + 3) (ChannelSlot.Holds ids limit buf) (pkts.map .packet ++ rest) s)
    (hlocal : ids.localId = ch.localId)
    (hpkts : ∀ pkt ∈ pkts, pkt.command = .write ∧ pkt.arg1 = ids.localId.raw ∧ pkt.data.length ≤ limit)
    (hmine : target = some ch.slot ∨ ∀ pkt ∈ pkts, pkt.data.length ≤ want) (hmore : buf ≠ [] ∨ pkts ≠ []) :
    ∃ data pkts' s', readChannel ng ch want (rounds + 1) s = (.ok (.data (data.take want)), s') ∧
      ((buf ≠ [] ∧ data = buf ∧ pkts' = pkts) ∨ (buf = [] ∧ ∃ pkt, pkts = pkt :: pkts' ∧ data = pkt.data)) ∧
      Serving target ch base sends (ChannelSlot.Holds ids limit (data.drop want)) (pkts'.map .packet ++ rest) s' := by
  by_cases hbuf : buf = []
  · subst hbuf
    obtain ⟨s1, hread, hserve1⟩ := h.readChannel_empty ng want (rounds + 1)
    obtain ⟨pkt, pkts, rfl⟩ := List.exists_cons_of_ne_nil (hmore.resolve_left (fun h => h rfl))
    obtain ⟨hcmd, harg, hlen⟩ := hpkts pkt List.mem_cons_self
    obtain ⟨s2, hrecv, -, hserve2⟩ := hserve1.recvPkt_ok
    have hrecv' : recv false s1 = (.ok (some pkt), s2) := map_of_ok some hrecv
    refine ⟨pkt.data, pkts, ?_⟩
    rw [hread]
    unfold recvLoop
    rw [bind_of_ok hrecv']
    by_cases hfits : pkt.data.length ≤ want
    · -- straight from the packet
      obtain ⟨s3, hdeliver, hserve3⟩ := hserve2.deliver_ok ng pkt.data.length
      refine ⟨s3, ?_, .inr ⟨rfl, pkt, rfl, rfl⟩, ?_⟩
      · dsimp only
        rw [if_pos ⟨hcmd, harg, hfits⟩, bind_of_ok hdeliver, List.take_of_length_le hfits]
        rfl
      · rw [List.drop_of_length_le hfits]
        exact hserve3.weaken
    · -- into the slot, and what fits out of it again
      have hslot := hmine.resolve_right fun hall => hfits (hall pkt List.mem_cons_self)
      obtain ⟨s3, hdispatch, hserve3⟩ := hserve2.dispatch_ok ng hslot hcmd (harg.trans (by rw [hlocal])) hlen
      obtain ⟨s4, htaken, hserve4⟩ := hserve3.takeBuffered_ok ng want
      have hne : pkt.data ≠ [] := by
        intro hnil
        rw [hnil] at hfits
        exact hfits (Nat.zero_le _)
      rw [if_neg hne] at htaken
      have hnot : ids.closedBy pkt = false := by simp [ChannelIds.closedBy, hcmd]
      refine ⟨s4, ?_, .inr ⟨rfl, pkt, rfl, rfl⟩, hserve4⟩
      dsimp only
      rw [if_neg (fun hc => hfits hc.2.2), hnot, if_neg (by decide), bind_of_ok (attempt_of_ok hdispatch),
        bind_of_ok (attempt_of_ok htaken)]
      rfl
  · obtain ⟨s1, hread, hserve1⟩ := h.readBuffered ng want (rounds + 1) hbuf
    exact ⟨buf, pkts, s1, hread, .inl ⟨hbuf, rfl, rfl⟩, hserve1.weaken.weaken⟩

/-- **A read hands over some more of the output**, unless it was given no room: then what has arrived stays. -/
theorem read (h : Serving target ch base (sends + 3) (ChannelSlot.Holds ids limit buf) (pkts.map .packet ++ rest) s)
    (hlocal : ids.localId = ch.localId) (hpkts : Arrivals ids limit pkts)
    (hmine : target = some ch.slot ∨ ∀ pkt ∈ pkts, pkt.data.length ≤ want) (hmore : buf ++ output pkts ≠ []) :
    ∃ out buf' pkts' s', readChannel ng ch want (rounds + 1) s = (.ok (.data out), s') ∧
      (out = [] → want = 0 ∧ buf' ≠ []) ∧ out.length ≤ want ∧
      out ++ (buf' ++ output pkts') = buf ++ output pkts ∧ Arrivals ids limit pkts' ∧ pkts' ⊆ pkts ∧
      Serving target ch base sends (ChannelSlot.Holds ids limit buf') (pkts'.map .packet ++ rest) s' := by
  have hsome : buf ≠ [] ∨ pkts ≠ [] := by
    by_contra hnone
    push Not at hnone
    exact hmore (by rw [hnone.1, hnone.2]; rfl)
  obtain ⟨data, pkts', s', hread, hdata, hserve⟩ := h.readNext ng want rounds hlocal
    (fun pkt hpkt => ⟨(hpkts.write pkt hpkt).1, (hpkts.write pkt hpkt).2, (hpkts.size pkt hpkt).2⟩) hmine hsome
  have htake : data ≠ [] → data.take want = [] → want = 0 ∧ data.drop want ≠ [] := by
    intro hne hnil
    rcases List.take_eq_nil_iff.mp hnil with h0 | h0
    · exact ⟨h0, by rw [h0]; exact hne⟩
    · exact absurd h0 hne
  have hsub : pkts' ⊆ pkts := by
    rcases hdata with ⟨-, -, rfl⟩ | ⟨-, pkt, rfl, -⟩
    · exact List.Subset.refl _
    · exact List.subset_cons_self _ _
  refine ⟨data.take want, data.drop want, pkts', s', hread, ?_, List.length_take_le _ _, ?_,
    ⟨fun p hp => hpkts.write p (hsub hp), fun p hp => hpkts.size p (hsub hp)⟩, hsub, hserve⟩
  · rcases hdata with ⟨hbuf, rfl, -⟩ | ⟨-, pkt, rfl, rfl⟩
    · exact htake hbuf
    · exact htake (hpkts.size pkt List.mem_cons_self).1
  · rw [← List.append_assoc, List.take_append_drop]
    rcases hdata with ⟨-, rfl, rfl⟩ | ⟨rfl, pkt, rfl, rfl⟩
    · rfl
    · rfl

/-- A read that meets the CLSE. -/
theorem readClosed {pkt : Packet}
    (h : Serving target ch base (sends + 1) (ChannelSlot.Holds ids limit []) (.packet pkt :: rest) s)
    (hclose : ids.closedBy pkt = true) :
    ∃ s', readChannel ng ch want (rounds + 1) s = (.error (.err .channelClosed), s') ∧
      Serving target ch base sends (fun slot => slot.ids = some ids) rest s' := by
  obtain ⟨s1, hread, hserve1⟩ := h.readChannel_empty ng want (rounds + 1)
  obtain ⟨s2, hrecv, -, hserve2⟩ := hserve1.recvPkt_ok
  have hrecv' : recv false s1 = (.ok (some pkt), s2) := map_of_ok some hrecv
  obtain ⟨slot, hget, hholds⟩ := hserve2.slot
  have hid : slot.localId = ch.localId := (ChannelTable.get_eq_some.mp hget).2
  have hid' : slot.applyClose.localId = ch.localId := hid
  obtain ⟨s3, hput, -, hserve3⟩ := hserve2.put (Q := fun slot => slot.ids = some ids) hget hid' hholds.ids_eq
  have hnot : ¬ (pkt.command = .write ∧ pkt.arg1 = ids.localId.raw ∧ pkt.data.length ≤ want) := by
    intro hc
    simp [ChannelIds.closedBy, hc.1] at hclose
  refine ⟨s3, ?_, hserve3⟩
  rw [hread]
  unfold recvLoop
  rw [bind_of_ok hrecv']
  dsimp only
  rw [if_neg hnot, hclose, if_pos rfl, closedByDevice, state_bind, hget]
  exact bind_of_ok hput

/-- **Closing**: the slot goes first, then the CLSE. -/
theorem closeChannel_ok (h : Serving target ch base 1 (fun slot => slot.ids = some ids) inputs s) :
    ∃ okays s', closeChannel ng ch s = (.ok (), s') ∧ s'.table.get ch = none ∧
      s'.sent = base ++ okays ++ [Packet.close ids] ∧ ∀ pkt ∈ okays, pkt.command = .ready := by
  have hids : s.table.ids ch = .ok ids := h.ids_ok fun _ hs => hs
  obtain ⟨slot, hget, -⟩ := h.slot
  obtain ⟨okays, hsent, hokays⟩ := h.sent
  obtain ⟨o, io, ios, -, hsend, -⟩ := @send_of_smooth { s with table := s.table.freed ch }
    (.pkt (Packet.close ids) ng.checksum) h.smooth h.live h.sends_le (Nat.zero_le _)
  have hcall : closeChannel ng ch s = send (.pkt (Packet.close ids) ng.checksum)
      { s with table := s.table.freed ch } := by
    unfold closeChannel
    rw [bind_of_ok h.checkDesync_ok, state_bind, hids, bind_of_ok (lift_ok _)]
    rfl
  refine ⟨okays, _, hcall.trans hsend, ?_, ?_, hokays⟩
  · show (s.table.freed ch).get ch = none
    rw [ChannelTable.get_freed, hget]
    simp
  · show s.sent ++ [Packet.close ids] = _
    rw [hsent]

/-! ## The loop -/

/-- **The loop ends**, with all of the output or with word that there is too much of it. -/
theorem readToVecLoop_ok {pkt : Packet} (hlocal : ids.localId = ch.localId) (hclose : ids.closedBy pkt = true) (cap : ℕ)
    {reads : ℕ} {out : Bytes} (hout : out.length ≤ cap) (hwant : buf ++ output pkts ≠ [] → 1 ≤ want)
    (hpkts : Arrivals ids limit pkts)
    (hmine : target = some ch.slot ∨ ∀ pkt ∈ pkts, pkt.data.length ≤ want) (hreads : (buf ++ output pkts).length < reads)
    (h : Serving target ch base (sends + 3 * reads) (ChannelSlot.Holds ids limit buf)
      (pkts.map .packet ++ .packet pkt :: rest) s) :
    ∃ s' rest', readToVecLoop ng ch want cap (rounds + 1) reads out s =
        (.ok (.ok (if (out ++ (buf ++ output pkts)).length ≤ cap then .ok (out ++ (buf ++ output pkts))
          else .error .capped)), s') ∧
      Serving target ch base sends (fun slot => slot.ids = some ids) rest' s' := by
  induction reads generalizing out buf pkts s with
  | zero => exact absurd hreads (Nat.not_lt_zero _)
  | succ reads ih =>
    unfold readToVecLoop
    by_cases hmore : buf ++ output pkts = []
    · -- all of it is out: the read meets the CLSE
      obtain ⟨hbuf, hflat⟩ := List.append_eq_nil_iff.mp hmore
      subst hbuf
      have hnone : pkts = [] := by
        cases pkts with
        | nil => rfl
        | cons p ps =>
          have := (hpkts.size p List.mem_cons_self).1
          simp [output, this] at hflat
      subst hnone
      have h1 : Serving target ch base (sends + 3 * reads + 2 + 1) (ChannelSlot.Holds ids limit []) (.packet pkt :: rest) s :=
        h
      obtain ⟨s1, hread, hserve1⟩ := h1.readClosed ng want rounds hclose
      refine ⟨s1, rest, ?_, ?_⟩
      · rw [bind_of_ok (attempt_of_err hread)]
        rw [if_pos (by simpa [output] using hout)]
        simp [output]
        rfl
      · exact hserve1.mono (by omega) fun _ => id
    · have h1 : Serving target ch base (sends + 3 * reads + 3) (ChannelSlot.Holds ids limit buf)
          (pkts.map .packet ++ .packet pkt :: rest) s := h
      obtain ⟨piece, buf', pkts', s1, hread, hstall, -, hsplit, hpkts', hsub, hserve1⟩ :=
        h1.read ng want rounds hlocal hpkts hmine hmore
      have hne : piece ≠ [] := fun hnil => absurd (hstall hnil).1 (by have := hwant hmore; omega)
      rw [bind_of_ok (attempt_of_ok hread)]
      dsimp only
      have hlen := congrArg List.length hsplit
      rw [List.length_append] at hlen
      by_cases hcap : cap - out.length < piece.length
      · rw [if_pos hcap]
        refine ⟨s1, _, ?_, hserve1.mono (by omega) fun _ hholds => hholds.ids_eq⟩
        rw [if_neg (by rw [List.length_append]; omega)]
        rfl
      · rw [if_neg hcap]
        have hpos : 0 < piece.length := List.length_pos_of_ne_nil hne
        have hout' : (out ++ piece).length ≤ cap := by rw [List.length_append]; omega
        obtain ⟨s2, rest2, hloop, hserve2⟩ := ih hout' (fun _ => hwant hmore) hpkts'
          (hmine.imp_right fun hall p hp => hall p (hsub hp)) (by omega) hserve1
        refine ⟨s2, rest2, ?_, hserve2⟩
        rw [hloop, List.append_assoc, hsplit]

/-- **The loop of `read_to_end` ends**, with all of the output in the buffer or with the buffer full of it.  `out` is
what it has read so far; every read takes a byte or a packet. -/
theorem readToEndLoop_ok {pkt : Packet} (hmine : target = some ch.slot) (hlocal : ids.localId = ch.localId) (hclose : ids.closedBy pkt = true)
    (dst : Bytes) {reads : ℕ} {out : Bytes} (hout : out.length ≤ dst.length)
    (hpkts : ∀ pkt ∈ pkts, pkt.command = .write ∧ pkt.arg1 = ids.localId.raw ∧ pkt.data.length ≤ limit)
    (hreads : (buf ++ output pkts).length + pkts.length < reads)
    (h : Serving target ch base (sends + 3 * reads) (ChannelSlot.Holds ids limit buf)
      (pkts.map .packet ++ .packet pkt :: rest) s) :
    ∃ s' rest', readToEndLoop ng ch (rounds + 1) reads (out ++ dst.drop out.length) out.length s =
        (.ok (filled dst (out ++ (buf ++ output pkts))), s') ∧
      Serving target ch base sends (fun slot => slot.ids = some ids) rest' s' := by
  induction reads generalizing out buf pkts s with
  | zero => exact absurd hreads (Nat.not_lt_zero _)
  | succ reads ih =>
    have hlen : (out ++ dst.drop out.length).length = dst.length := by
      rw [List.length_append, List.length_drop]
      omega
    unfold readToEndLoop
    extract_lets full room
    have hroom : 1 ≤ room := by
      show 1 ≤ if full then 1 else _
      split_ifs with hfull
      · exact le_rfl
      · have : out.length ≠ (out ++ dst.drop out.length).length := hfull
        omega
    by_cases hmore : buf ≠ [] ∨ pkts ≠ []
    · have h1 : Serving target ch base (sends + 3 * reads + 3) (ChannelSlot.Holds ids limit buf)
          (pkts.map .packet ++ .packet pkt :: rest) s := h
      obtain ⟨data, pkts', s1, hread, hdata, hserve1⟩ := h1.readNext ng room rounds hlocal hpkts (.inl hmine) hmore
      rw [bind_of_ok (attempt_of_ok hread)]
      dsimp only
      have hwhole : data ++ output pkts' = buf ++ output pkts := by
        rcases hdata with ⟨-, rfl, rfl⟩ | ⟨rfl, pkt, rfl, rfl⟩
        · rfl
        · rfl
      have hpkts' : ∀ pkt ∈ pkts', pkt.command = .write ∧ pkt.arg1 = ids.localId.raw ∧ pkt.data.length ≤ limit := by
        rcases hdata with ⟨-, -, rfl⟩ | ⟨-, pkt, rfl, -⟩
        · exact hpkts
        · exact fun p hp => hpkts p (List.mem_cons_of_mem _ hp)
      have hfewer : (data.drop room ++ output pkts').length + pkts'.length < reads := by
        rw [List.length_append] at hreads
        rw [List.length_append, List.length_drop]
        rcases hdata with ⟨hbuf, rfl, rfl⟩ | ⟨rfl, pkt, rfl, rfl⟩
        · have := List.length_pos_of_ne_nil hbuf
          omega
        · rw [List.length_nil, output, List.map_cons, List.flatten_cons, List.length_append, List.length_cons] at hreads
          unfold output
          omega
      rw [← hwhole]
      by_cases hstop : full ∧ 0 < (data.take room).length
      · -- a byte read past a full buffer
        rw [if_pos hstop]
        have hfull : out.length = dst.length := hstop.1.trans hlen
        have hpos : 0 < data.length := hstop.2.trans_le (List.length_take_le' _ _)
        refine ⟨s1, _, ?_, hserve1.mono (by omega) fun _ hholds => hholds.ids_eq⟩
        rw [filled, if_neg (by rw [List.length_append, List.length_append]; omega), ← hfull, List.take_left]
        rw [hfull, List.drop_length, List.append_nil]
        rfl
      · rw [if_neg hstop]
        -- the piece goes behind what is there; past a full buffer it is empty
        have hpiece : (if full then out ++ dst.drop out.length
              else Slices.splice (out ++ dst.drop out.length) out.length (data.take room)) =
            (out ++ data.take room) ++ dst.drop (out ++ data.take room).length ∧
            (out ++ data.take room).length ≤ dst.length := by
          by_cases hfull : full
          · have hnil : data.take room = [] := by
              by_contra hne
              exact hstop ⟨hfull, List.length_pos_of_ne_nil hne⟩
            rw [if_pos hfull, hnil, List.append_nil]
            exact ⟨rfl, hout⟩
          · have hsize : room = dst.length - out.length := by
              show (if full then 1 else _) = _
              rw [if_neg hfull, hlen]
            have hle := List.length_take_le room data
            rw [if_neg hfull, Slices.splice, List.take_left, List.drop_append, List.drop_drop, List.length_append]
            rw [List.drop_of_length_le (by omega), List.nil_append, Nat.add_sub_cancel_left]
            exact ⟨rfl, by omega⟩
        rw [hpiece.1, ← List.length_append]
        obtain ⟨s2, rest2, hloop, hserve2⟩ := ih hpiece.2 hpkts' hfewer hserve1
        refine ⟨s2, rest2, ?_, hserve2⟩
        rw [hloop, List.append_assoc, ← List.append_assoc (data.take room), List.take_append_drop]
    · -- all of it is out: the read meets the CLSE
      push Not at hmore
      obtain ⟨rfl, rfl⟩ := hmore
      have h1 : Serving target ch base (sends + 3 * reads + 2 + 1) (ChannelSlot.Holds ids limit []) (.packet pkt :: rest) s :=
        h
      obtain ⟨s1, hread, hserve1⟩ := h1.readClosed ng room rounds hclose
      refine ⟨s1, rest, ?_, hserve1.mono (by omega) fun _ => id⟩
      rw [bind_of_ok (attempt_of_err hread)]
      have hnone : out ++ ([] ++ output []) = out := List.append_nil out
      rw [hnone, filled, if_pos hout]
      rfl

/-- Without room for a single byte the loop goes round and round. -/
theorem readToVecLoop_stalls {cap reads : ℕ} {out : Bytes} (hmine : target = some ch.slot) (hlocal : ids.localId = ch.localId)
    (hpkts : Arrivals ids limit pkts) (hmore : buf ++ output pkts ≠ [])
    (h : Serving target ch base (sends + 3 * reads) (ChannelSlot.Holds ids limit buf) (pkts.map .packet ++ rest) s) :
    ∃ s', readToVecLoop ng ch 0 cap (rounds + 1) reads out s = (.error .dropped, s') := by
  induction reads generalizing out buf pkts s with
  | zero => exact ⟨s, rfl⟩
  | succ reads ih =>
    have h1 : Serving target ch base (sends + 3 * reads + 3) (ChannelSlot.Holds ids limit buf) (pkts.map .packet ++ rest) s :=
      h
    obtain ⟨piece, buf', pkts', s1, hread, hstall, hnone, -, hpkts', -, hserve1⟩ :=
      h1.read ng 0 rounds hlocal hpkts (.inl hmine) hmore
    have hnil : piece = [] := List.eq_nil_of_length_eq_zero (Nat.le_zero.mp hnone)
    have hleft : buf' ++ output pkts' ≠ [] := by
      intro he
      exact (hstall hnil).2 (List.append_eq_nil_iff.mp he).1
    unfold readToVecLoop
    rw [bind_of_ok (attempt_of_ok hread)]
    dsimp only
    rw [hnil, if_neg (by simp)]
    exact ih hpkts' hleft hserve1

end Serving

/-! ## Packets that go astray

After the counter of local ids has come round, another slot in front of the channel's own may have its id.  A WRTE that
a read has room for is handed over all the same; a longer one is dispatched by its id, and goes to that slot. -/

/-- The slot of `ch` is empty, packets with its id are dispatched elsewhere, and `inputs` is what arrives. -/
structure Astray (ids : ChannelIds) (ch : ChannelId) (inputs : List Input) (s : Connection) : Prop where
  slot : ∃ slot, s.table.get ch = some slot ∧ slot.rxBuf = [] ∧ slot.ids = some ids
  route : s.table.slotOf ch.localId.raw ≠ some ch.slot
  inputs_eq : s.inputs.filter (· ≠ .interrupted) = inputs

theorem Serving.astray [Usize] {target : Option ℕ} {ch : ChannelId} {base : List Packet} {sends limit : ℕ}
    {ids : ChannelIds} {inputs : List Input} {s : Connection}
    (h : Serving target ch base sends (ChannelSlot.Holds ids limit []) inputs s) (hmiss : target ≠ some ch.slot) :
    Astray ids ch inputs s := by
  obtain ⟨slot, hget, hholds⟩ := h.slot
  exact ⟨⟨slot, hget, hholds.buf_eq, hholds.ids_eq⟩, h.route ▸ hmiss, h.inputs_eq⟩

namespace Astray

variable {ids : ChannelIds} {ch : ChannelId} {inputs : List Input} {s : Connection}

theorem send (h : Astray ids ch inputs s) (c : Send) : Goes (Astray ids ch inputs) (ConnM.send c) s fun _ => Astray ids ch inputs := by
  unfold Goes ConnM.send
  cases s.ios with
  | nil => exact h
  | cons io ios =>
    cases hr : (c.call io s.out).1 with
    | ok | err e | dropped => simpa only [hr] using ⟨h.slot, h.route, h.inputs_eq⟩

/-- A slot is written back under its id, and the channel's own stays empty. -/
theorem put (h : Astray ids ch inputs s) {idx : ℕ} {slot slot' : ChannelSlot} (hat : s.table.at? idx = some slot)
    (hid : slot'.localId = slot.localId) (hempty : idx = ch.slot → slot'.rxBuf = [] ∧ slot'.ids = some ids) :
    Astray ids ch inputs { s with table := s.table.put idx (some slot') } := by
  refine ⟨?_, ?_, h.inputs_eq⟩
  · obtain ⟨own, hget, hown⟩ := h.slot
    show ∃ slot, (s.table.put idx (some slot')).get ch = some slot ∧ slot.rxBuf = [] ∧ slot.ids = some ids
    rw [ChannelTable.get_put hat hid, hget]
    split_ifs with hidx
    · exact ⟨slot', rfl, hempty hidx.symm⟩
    · exact ⟨own, rfl, hown⟩
  · show (s.table.put idx (some slot')).slotOf _ ≠ _
    rw [ChannelTable.slotOf_put hat hid]
    exact h.route

variable [Usize] (ng : Negotiated)

/-- There is nothing to take. -/
theorem takeBuffered (h : Astray ids ch inputs s) (want : ℕ) :
    Goes (Astray ids ch inputs) (Connection.takeBuffered ng ch want) s fun r s' => r = none ∧ Astray ids ch inputs s' := by
  have hnone : ∀ {slot : ChannelSlot} {r : Option (Bytes × ChannelSlot)}, slot.rxBuf = [] →
      slot.takeBuffered want = .ok r → none = r := by
    intro slot r hempty hr
    rw [ChannelSlot.takeBuffered, if_pos (by simp [ChannelSlot.hasData, hempty])] at hr
    split_ifs at hr
    injection hr
  obtain ⟨slot, hget, hempty, hids⟩ := h.slot
  have hno : slot.hasData = false := by simp [ChannelSlot.hasData, hempty]
  unfold Connection.takeBuffered
  refine goes_state ?_
  rw [hget, Option.any_some, hno, if_neg (by decide)]
  refine goes_checkDesync h fun _ => goes_slotMut_of_get hget ?_
  cases hsettle : slot.settleTake want with
  | none =>
    refine goes_slotMut_of_get hget (goes_lift h fun r hr => ?_)
    obtain rfl := hnone hempty hr
    exact goes_pure ⟨rfl, h⟩
  | some r =>
    obtain ⟨ack, slot'⟩ := r
    obtain ⟨-, -, -, hslot'⟩ := ChannelSlot.settleTake_some hsettle
    have hput := h.put (ChannelTable.get_eq_some.mp hget).1 (show slot'.localId = slot.localId by rw [hslot'])
      fun _ => by rw [hslot']; exact ⟨hempty, hids⟩
    refine goes_putSlot ?_
    refine (hput.send _).attempt_bind (fun _ => id) (fun _ s' h' => ?_) fun _ s' h' => ?_
    all_goals
      obtain ⟨slot, hget, hempty, -⟩ := h'.slot
      refine goes_slotMut_of_get hget (goes_lift h' fun r hr => ?_)
      obtain rfl := hnone hempty hr
      exact goes_pure ⟨rfl, h'⟩

/-- What was handed over from the packet itself is acknowledged. -/
theorem deliver (h : Astray ids ch inputs s) (n : ℕ) :
    Goes (Astray ids ch inputs) (Connection.deliver ng ch n) s fun _ => Astray ids ch inputs := by
  obtain ⟨slot, hget, hempty, hids⟩ := h.slot
  have hslot : (slot.deliver n).2.localId = slot.localId ∧ (slot.deliver n).2.rxBuf = [] ∧
      (slot.deliver n).2.ids = some ids := by
    unfold ChannelSlot.deliver
    split_ifs
    · exact ⟨rfl, hempty, hids⟩
    · exact ⟨rfl, hempty, hids⟩
    · split <;> exact ⟨rfl, hempty, hids⟩
  have hput := h.put (ChannelTable.get_eq_some.mp hget).1 hslot.1 fun _ => hslot.2
  unfold Connection.deliver
  refine goes_state ?_
  rw [hget]
  refine goes_putSlot ?_
  cases (slot.deliver n).1 with
  | none => exact goes_pure hput
  | some ack =>
    exact (hput.send _).attempt_bind (fun _ => id) (fun _ _ h' => goes_pure h') fun _ _ h' => goes_pure h'

/-- **A longer WRTE goes to the other slot.** -/
theorem dispatch (h : Astray ids ch inputs s) {pkt : Packet} (hcmd : pkt.command = .write)
    (harg : pkt.arg1 = ch.localId.raw) :
    Goes (Astray ids ch inputs) (Connection.dispatch ng pkt) s fun _ => Astray ids ch inputs := by
  have hact : Goes (Astray ids ch inputs) (actOn ng pkt) s fun _ => Astray ids ch inputs := by
    have helse : ∀ idx, s.table.slotOf pkt.arg1 = some idx → idx ≠ ch.slot := by
      rintro idx hidx rfl
      exact h.route (harg ▸ hidx)
    have hstays : ∀ slot slot' : ChannelSlot, ∀ d, slot.applyWrite pkt.data = .ok (d, slot') →
        slot'.localId = slot.localId := by
      intro slot slot' d happly
      obtain ⟨-, hle, ⟨-, rfl, -⟩ | ⟨ids, -, -, rfl, -⟩⟩ := ChannelSlot.applyWrite_ok happly <;> rfl
    have hspec := ChannelTable.dispatch_spec s.table pkt
    unfold actOn
    refine goes_state ?_
    revert hspec
    generalize s.table.dispatch pkt = r
    obtain ⟨outcome, table⟩ := r
    intro hspec
    dsimp only at hspec ⊢
    refine goes_setTable ?_
    cases hspec with
    | ignored => exact goes_pure h
    | opens hc | withdraws hc | closesRemote idx slot hc | stray hc | closes idx slot hc =>
      exact absurd (hcmd.symm.trans hc) (by decide)
    | acks idx slot slot' ack hc hidx hat hf happly =>
      exact (h.put hat (hstays _ _ _ happly) fun heq => absurd heq (helse idx hidx)).send _
    | buffers idx slot slot' hc hidx hat hf happly =>
      exact goes_pure (h.put hat (hstays _ _ _ happly) fun heq => absurd heq (helse idx hidx))
    | accepts idx slot slot' hc | grants idx slot slot' hc => exact absurd (hcmd.symm.trans hc) (by decide)
    | faults idx slot f hc hidx hat hf => exact goes_fail h
  unfold Connection.dispatch
  refine hact.attempt_bind (fun _ => id) (fun _ _ h' => goes_pure h') fun e s' h' => ?_
  dsimp only
  split_ifs
  · exact goes_pure h'
  · exact goes_fail h'

variable {pkts : List Packet} {clse : Packet} {rest : List Input} (want : ℕ)

/-- What a read comes to: the next WRTE it has room for is handed over, and those before it are lost to the channel. -/
def Skips (ids : ChannelIds) (ch : ChannelId) (want : ℕ) (pkts : List Packet) (behind : List Input) (r : SelectResult)
    (s : Connection) : Prop :=
  ∃ front pkt pkts', r = .data pkt.data ∧ pkts = front ++ pkt :: pkts' ∧ pkt.data.length ≤ want ∧
    (∀ lost ∈ front, want < lost.data.length) ∧ Astray ids ch (pkts'.map .packet ++ behind) s

theorem recvLoop (hlocal : ids.localId = ch.localId) (hclose : ids.closedBy clse = true)
    (hpkts : ∀ pkt ∈ pkts, pkt.command = .write ∧ pkt.arg1 = ids.localId.raw) (rounds : ℕ)
    (h : Astray ids ch (pkts.map .packet ++ .packet clse :: rest) s) :
    Goes (fun _ => True) (Connection.recvLoop ng ch ids want false rounds) s
      (Skips ids ch want pkts (.packet clse :: rest)) := by
  induction rounds generalizing pkts s with
  | zero => trivial
  | succ rounds ih =>
    have hrecv : ∀ pkt left, pkts.map .packet ++ .packet clse :: rest = .packet pkt :: left →
        ∃ s', recv false s = (.ok (some pkt), s') ∧ Astray ids ch left s' := by
      intro pkt left hhead
      have hfilter := h.inputs_eq.trans hhead
      refine ⟨{ s with inputs := left, log := s.log ++ [.received pkt] },
        map_of_ok some (by rw [recvPkt, hfilter]), h.slot, h.route, List.filter_eq_self.mpr fun i hi => ?_⟩
      have hmem : i ∈ s.inputs.filter (· ≠ .interrupted) := by
        rw [hfilter]
        exact List.mem_cons_of_mem _ hi
      exact (List.mem_filter.mp hmem).2
    unfold Connection.recvLoop
    cases pkts with
    | nil =>
      obtain ⟨s', hgot, -⟩ := hrecv clse rest rfl
      have hnot : ¬ (clse.command = .write ∧ clse.arg1 = ids.localId.raw ∧ clse.data.length ≤ want) := by
        intro hc
        simp [ChannelIds.closedBy, hc.1] at hclose
      refine Goes.bind (Goes.of_ok hgot (Q := fun a _ => a = some clse) rfl) ?_
      rintro _ s1 rfl
      dsimp only
      rw [if_neg hnot, hclose, if_pos rfl]
      rcases hm : closedByDevice ch s1 with ⟨_ | a, s2⟩
      · exact Goes.of_error hm trivial
      · exact absurd hm (closedByDevice_ne_ok ch)
    | cons pkt pkts =>
      obtain ⟨hcmd, harg⟩ := hpkts pkt List.mem_cons_self
      obtain ⟨s', hgot, hs'⟩ := hrecv pkt _ rfl
      refine Goes.bind (Goes.of_ok hgot (Q := fun a s1 => a = some pkt ∧ s1 = s') ⟨rfl, rfl⟩) ?_
      rintro _ _ ⟨rfl, rfl⟩
      dsimp only
      by_cases hfits : pkt.data.length ≤ want
      · rw [if_pos ⟨hcmd, harg, hfits⟩]
        refine Goes.bind ((hs'.deliver ng _).mono (fun _ _ => trivial) fun _ _ => id) fun _ s1 hs1 => goes_pure ?_
        exact ⟨[], pkt, pkts, rfl, rfl, hfits, fun _ hmem => absurd hmem List.not_mem_nil, hs1⟩
      · have hopen : ids.closedBy pkt = false := by simp [ChannelIds.closedBy, hcmd]
        rw [if_neg fun hc => hfits hc.2.2, hopen, if_neg (by decide)]
        -- whatever becomes of it, there is nothing in the slot to take
        refine (hs'.dispatch ng hcmd (harg.trans (by rw [hlocal]))).attempt_bind (fun _ _ => trivial)
          (fun _ s1 hs1 => ?_) fun _ s1 hs1 => ?_
        all_goals
          refine (hs1.takeBuffered ng want).attempt_bind (fun _ _ => trivial) ?_ fun _ _ _ => trivial
          rintro _ s2 ⟨rfl, hs2⟩
        · refine (ih (fun p hp => hpkts p (List.mem_cons_of_mem _ hp)) hs2).mono (fun _ => id) ?_
          rintro r s3 ⟨front, found, pkts', rfl, rfl, hlen, hlost, hs3⟩
          refine ⟨pkt :: front, found, pkts', rfl, rfl, hlen, fun lost hmem => ?_, hs3⟩
          rcases List.mem_cons.mp hmem with rfl | hmem
          · exact not_le.mp hfits
          · exact hlost lost hmem
        · trivial

theorem readChannel (hclose : ids.closedBy clse = true)
    (hpkts : ∀ pkt ∈ pkts, pkt.command = .write ∧ pkt.arg1 = ids.localId.raw) (rounds : ℕ)
    (h : Astray ids ch (pkts.map .packet ++ .packet clse :: rest) s) :
    Goes (fun _ => True) (Connection.readChannel ng ch want rounds) s
      (Skips ids ch want pkts (.packet clse :: rest)) := by
  unfold Connection.readChannel recvData
  refine ((h.takeBuffered ng want).mono (fun _ _ => trivial) fun _ _ => id).bind ?_
  rintro _ s1 ⟨rfl, h1⟩
  obtain ⟨slot, hget, -, hids⟩ := h1.slot
  have hlocal : ids.localId = ch.localId := by
    obtain ⟨r, -, rfl⟩ := Option.map_eq_some_iff.mp hids
    exact (ChannelTable.get_eq_some.mp hget).2
  have hok : s1.table.ids ch = .ok ids := by rw [ChannelTable.ids, hget, Option.bind_some, hids]
  refine goes_state (goes_lift trivial fun ids' hids' => ?_)
  obtain rfl : ids = ids' := by
    rw [hok] at hids'
    injection hids'
  exact h1.recvLoop ng want hlocal hclose hpkts rounds

/-- **Only what the reads have room for is collected.** -/
theorem readToVecLoop (hclose : ids.closedBy clse = true)
    (hpkts : ∀ pkt ∈ pkts, pkt.command = .write ∧ pkt.arg1 = ids.localId.raw) (cap rounds : ℕ) {reads : ℕ} {out : Bytes}
    (h : Astray ids ch (pkts.map .packet ++ .packet clse :: rest) s) :
    Goes (fun _ => True) (Connection.readToVecLoop ng ch want cap rounds reads out) s fun r _ =>
      ∀ out', r = .ok (.ok out') →
        out'.length ≤ out.length + (Serving.output (pkts.filter fun pkt => pkt.data.length ≤ want)).length := by
  induction reads generalizing pkts s out with
  | zero => trivial
  | succ reads ih =>
    unfold Connection.readToVecLoop
    refine (h.readChannel ng want hclose hpkts rounds).attempt_bind (fun _ _ => trivial) ?_ fun e s1 _ => ?_
    · rintro _ s1 ⟨front, pkt, pkts', rfl, rfl, hfits, hlost, hs1⟩
      dsimp only
      split_ifs
      · exact goes_pure fun out' hout' => by cases hout'
      · refine (ih (fun p hp => hpkts p (List.mem_append_right _ (List.mem_cons_of_mem _ hp))) hs1).mono
          (fun _ => id) fun r s2 hr out' hout' => ?_
        have hfront : front.filter (fun pkt => pkt.data.length ≤ want) = [] :=
          List.filter_eq_nil_iff.mpr fun lost hmem => by simpa using hlost lost hmem
        have := hr out' hout'
        rw [List.filter_append, hfront, List.nil_append, List.filter_cons_of_pos (by simpa using hfits)]
        rw [List.length_append] at this
        simp only [Serving.output, List.map_cons, List.flatten_cons, List.length_append] at this ⊢
        omega
    · split
      · next heq => cases heq
      · next heq => cases heq
      · refine goes_pure fun out' hout' => ?_
        cases hout'
        exact Nat.le_add_right _ _
      · exact goes_pure fun out' hout' => by cases hout'

/-- A read of `read_to_end` for which every WRTE is too long leaves the buffer as it is. -/
theorem readToEndLoop (hclose : ids.closedBy clse = true)
    (hpkts : ∀ pkt ∈ pkts, pkt.command = .write ∧ pkt.arg1 = ids.localId.raw) {buf : Bytes} {tail : ℕ}
    (hroom : tail < buf.length) (hlong : ∀ pkt ∈ pkts, buf.length - tail < pkt.data.length) (rounds reads : ℕ)
    (h : Astray ids ch (pkts.map .packet ++ .packet clse :: rest) s) :
    Goes (fun _ => True) (Connection.readToEndLoop ng ch rounds reads buf tail) s fun r _ => r.2 = buf := by
  cases reads with
  | zero => trivial
  | succ reads =>
    unfold Connection.readToEndLoop
    extract_lets full room
    have hwant : room = buf.length - tail := if_neg hroom.ne
    refine (h.readChannel ng room hclose hpkts rounds).attempt_bind (fun _ _ => trivial) ?_ fun e s1 _ => ?_
    · rintro _ s1 ⟨front, pkt, pkts', rfl, rfl, hfits, -⟩
      have := hlong pkt (List.mem_append_right _ List.mem_cons_self)
      omega
    · split
      · next heq => cases heq
      · next heq => cases heq
      · exact goes_pure rfl
      · exact goes_pure rfl

end Astray

/-! ## The two calls -/

section Results

variable [Usize] (ng : Negotiated) (ch : ChannelId) (ids : ChannelIds) (s : Connection)

/-- `read_to_vec` does what it is for: with a device that sends `pkts` and its CLSE, and a transport that takes the OKAYs,
it ends, with the whole output or with `Capped`, and behind its OKAYs it has sent the one CLSE that closes the channel. -/
def Collects (rx cap : ℕ) (pkts : List Packet) : Prop :=
  ∀ clse rest inputs ios rounds reads, ids.closedBy clse = true →
    inputs.filter (· ≠ .interrupted) = pkts.map .packet ++ .packet clse :: rest → (∀ io ∈ ios, io.Smooth) →
    (Serving.output pkts).length < reads → 3 * reads + 1 ≤ ios.length →
    ∃ okays s', readToVec ng ch rx cap (rounds + 1) reads { s with inputs, ios } =
        (.ok (if (Serving.output pkts).length ≤ cap then .ok (Serving.output pkts) else .error .capped), s') ∧
      s'.table.get ch = none ∧ s'.sent = s.sent ++ okays ++ [Packet.close ids] ∧
      ∀ pkt ∈ okays, pkt.command = .ready

/-- `read_to_end` does what it is for: with `held` in the slot and a device that sends `pkts` and its CLSE, it ends, with
the output in front of the buffer or with the buffer full of it, and closes the channel in the same way. -/
def Fills (held buf : Bytes) (pkts : List Packet) : Prop :=
  ∀ clse rest inputs ios rounds reads, ids.closedBy clse = true →
    inputs.filter (· ≠ .interrupted) = pkts.map .packet ++ .packet clse :: rest → (∀ io ∈ ios, io.Smooth) →
    (held ++ Serving.output pkts).length + pkts.length < reads → 3 * reads + 1 ≤ ios.length →
    let output := held ++ Serving.output pkts
    ∃ okays s', readToEnd ng ch buf (rounds + 1) reads { s with inputs, ios } =
        (.ok (if output.length ≤ buf.length then (.ok output.length, output ++ buf.drop output.length)
          else (.error .receiveBufferFull, output.take buf.length)), s') ∧
      s'.table.get ch = none ∧ s'.sent = s.sent ++ okays ++ [Packet.close ids] ∧
      ∀ pkt ∈ okays, pkt.command = .ready

variable {ng ch ids s} {slot : ChannelSlot} {held : Bytes}

theorem Serving.start (hget : s.table.get ch = some slot) (hslot : slot.Holds ids ng.config.maxPayload held)
    (hlive : ¬ s.out.Stuck) {inputs given : List Input} (hinputs : inputs.filter (· ≠ .interrupted) = given)
    {ios : List Io} (hsmooth : ∀ io ∈ ios, io.Smooth) {sends : ℕ} (hios : sends ≤ ios.length) :
    Serving (s.table.slotOf ch.localId.raw) ch s.sent sends (ChannelSlot.Holds ids ng.config.maxPayload held) given
      { s with inputs, ios } :=
  ⟨⟨slot, hget, hslot⟩, rfl, hinputs, hsmooth, hlive, hios, [], (List.append_nil _).symm, by simp⟩

theorem collects_of_route {rx : ℕ} {pkts : List Packet} (hget : s.table.get ch = some slot)
    (hslot : slot.Holds ids ng.config.maxPayload []) (hlive : ¬ s.out.Stuck)
    (hpkts : Serving.Arrivals ids ng.config.maxPayload pkts) (hrx : pkts = [] ∨ 1 ≤ rx)
    (hmine : s.table.slotOf ch.localId.raw = some ch.slot ∨ ∀ pkt ∈ pkts, pkt.data.length ≤ rx) (cap : ℕ) :
    Collects ng ch ids s rx cap pkts := by
  intro clse rest inputs ios rounds reads hclose hinputs hsmooth hreads hios
  have hlocal : ids.localId = ch.localId := hslot.localId.symm.trans (ChannelTable.get_eq_some.mp hget).2
  have hserve := Serving.start hget hslot hlive hinputs hsmooth (show 1 + 3 * reads ≤ ios.length by omega)
  have hout : ([] : Bytes).length ≤ cap := Nat.zero_le _
  have hwant : [] ++ Serving.output pkts ≠ [] → 1 ≤ rx := by
    intro hne
    refine hrx.resolve_left ?_
    rintro rfl
    exact hne rfl
  obtain ⟨s1, rest1, hloop, hserve1⟩ := Serving.readToVecLoop_ok ng rx rounds hlocal hclose cap hout hwant hpkts hmine
    (by simpa using hreads) hserve
  simp only [List.nil_append] at hloop
  obtain ⟨okays, s3, hclosed, hfree, hsent, hokays⟩ := hserve1.closeChannel_ok ng
  refine ⟨okays, s3, ?_, hfree, hsent, hokays⟩
  unfold readToVec
  rw [bind_of_ok hloop, bind_of_ok (attempt_of_ok hclosed), lift_ok]

omit [Usize] in
/-- A packet left out makes the output shorter. -/
theorem output_filter_lt {rx : ℕ} {pkts : List Packet} {pkt : Packet} (hmem : pkt ∈ pkts) (hlong : rx < pkt.data.length) :
    (Serving.output (pkts.filter fun pkt => pkt.data.length ≤ rx)).length < (Serving.output pkts).length := by
  have hle : ∀ pkts : List Packet,
      (Serving.output (pkts.filter fun pkt => pkt.data.length ≤ rx)).length ≤ (Serving.output pkts).length := fun pkts =>
    ((List.filter_sublist.map _).flatten).length_le
  obtain ⟨front, back, rfl⟩ := List.append_of_mem hmem
  have := hle front
  have := hle back
  rw [List.filter_append, List.filter_cons_of_neg (by simpa using hlong)]
  simp only [Serving.output, List.map_append, List.map_cons, List.flatten_append, List.flatten_cons,
    List.length_append] at *
  omega

/-- **When `read_to_vec` collects any output**, for a channel that has just opened, WRTEs that `decode` lets through and
every cap: exactly when the buffer is not empty (or there is nothing to read), and the channel's id routes to it (or no
WRTE is longer than the buffer). -/
theorem read_to_vec_collects_iff (ng : Negotiated) (ch : ChannelId) (ids : ChannelIds) (slot : ChannelSlot)
    (s : Connection) (pkts : List Packet) (rx : ℕ) (hget : s.table.get ch = some slot)
    (hslot : slot.Holds ids ng.config.maxPayload []) (hlive : ¬ s.out.Stuck)
    (hpkts : Serving.Arrivals ids ng.config.maxPayload pkts) :
    (∀ cap, Collects ng ch ids s rx cap pkts) ↔
      (pkts = [] ∨ 1 ≤ rx) ∧
      (s.table.slotOf ch.localId.raw = some ch.slot ∨ ∀ pkt ∈ pkts, pkt.data.length ≤ rx) := by
  refine ⟨fun h => ?_, fun ⟨hrx, hmine⟩ => collects_of_route hget hslot hlive hpkts hrx hmine⟩
  have hlocal : ids.localId = ch.localId := hslot.localId.symm.trans (ChannelTable.get_eq_some.mp hget).2
  -- a run with just enough of a cap
  let clse : Packet := ⟨.close, ids.remote.raw, ids.localId.raw, []⟩
  have hclose : ids.closedBy clse = true := by simp [ChannelIds.closedBy, clse]
  let reads := (Serving.output pkts).length + 1
  let ios := List.replicate (3 * reads + 1) (⟨[.ok 24, .ok 4], .ok⟩ : Io)
  have hsmooth := replicate_smooth (3 * reads + 1)
  let given := pkts.map Input.packet ++ [.packet clse]
  have hgiven : given.filter (· ≠ .interrupted) = given := by
    refine List.filter_eq_self.mpr fun i hi => ?_
    simp only [given, List.mem_append, List.mem_map, List.mem_singleton] at hi
    rcases hi with ⟨p, -, rfl⟩ | rfl <;> rfl
  have hserve := Serving.start hget hslot hlive hgiven hsmooth
    (show 1 + 3 * reads ≤ ios.length by simp only [ios, List.length_replicate]; omega)
  obtain ⟨-, s', hrun, -⟩ := h (Serving.output pkts).length clse [] given ios 0 reads hclose hgiven hsmooth
    (Nat.lt_succ_self _) (by simp only [ios, List.length_replicate]; omega)
  rw [if_pos le_rfl] at hrun
  obtain ⟨read, s1, hloop, hrest⟩ := bind_eq_ok hrun
  have hread : read = .ok (.ok (Serving.output pkts)) := by
    obtain ⟨-, s2, -, hlift⟩ := bind_eq_ok hrest
    exact (lift_eq_ok hlift).1
  subst hread
  by_cases hmine : s.table.slotOf ch.localId.raw = some ch.slot
  · refine ⟨?_, .inl hmine⟩
    by_contra hnone
    push Not at hnone
    obtain rfl : rx = 0 := Nat.lt_one_iff.mp hnone.2
    have hmore : [] ++ Serving.output pkts ≠ [] := by
      obtain ⟨pkt, pkts, rfl⟩ := List.exists_cons_of_ne_nil hnone.1
      have := (hpkts.size pkt List.mem_cons_self).1
      simp [Serving.output, this]
    obtain ⟨s2, hstall⟩ : ∃ s2, readToVecLoop ng ch 0 (Serving.output pkts).length (0 + 1) reads []
        { s with inputs := given, ios } = (.error .dropped, s2) :=
      Serving.readToVecLoop_stalls ng 0 hmine hlocal hpkts hmore hserve
    rw [hstall] at hloop
    cases hloop
  · have hbound := ((hserve.astray hmine).readToVecLoop ng rx hclose hpkts.write _ _).ok hloop _ rfl
    have hfits : ∀ pkt ∈ pkts, pkt.data.length ≤ rx := by
      intro pkt hmem
      by_contra hlong
      have := output_filter_lt hmem (not_le.mp hlong)
      simp only [List.length_nil, Nat.zero_add] at hbound
      omega
    refine ⟨?_, .inr hfits⟩
    cases pkts with
    | nil => exact .inl rfl
    | cons pkt pkts =>
      have := List.length_pos_of_ne_nil (hpkts.size pkt List.mem_cons_self).1
      have := hfits pkt List.mem_cons_self
      exact .inr (by omega)

theorem fills_of_route (hget : s.table.get ch = some slot) (hslot : slot.Holds ids ng.config.maxPayload held)
    (hlive : ¬ s.out.Stuck) (hmine : s.table.slotOf ch.localId.raw = some ch.slot) (buf : Bytes) {pkts : List Packet}
    (hpkts : ∀ pkt ∈ pkts, pkt.command = .write ∧ pkt.arg1 = ids.localId.raw ∧
      pkt.data.length ≤ ng.config.maxPayload) : Fills ng ch ids s held buf pkts := by
  intro clse rest inputs ios rounds reads hclose hinputs hsmooth hreads hios output
  have hlocal : ids.localId = ch.localId := hslot.localId.symm.trans (ChannelTable.get_eq_some.mp hget).2
  have hserve := Serving.start hget hslot hlive hinputs hsmooth (show 1 + 3 * reads ≤ ios.length by omega)
  have hout : ([] : Bytes).length ≤ buf.length := Nat.zero_le _
  obtain ⟨s1, rest1, hloop, hserve1⟩ := Serving.readToEndLoop_ok ng rounds hmine hlocal hclose buf hout hpkts hreads hserve
  have hstart : readToEndLoop ng ch (rounds + 1) reads buf 0 { s with inputs, ios } =
      (.ok (Serving.filled buf output), s1) := hloop
  obtain ⟨okays, s2, hclosed, hfree, hsent, hokays⟩ := hserve1.closeChannel_ok ng
  refine ⟨okays, s2, ?_, hfree, hsent, hokays⟩
  unfold readToEnd
  rw [bind_of_ok hstart, bind_of_ok (attempt_of_ok hclosed)]
  rfl

/-- A channel whose id routes elsewhere, a buffer with room for one byte more than is held, and a WRTE of two: the byte
is never written. -/
theorem readToEndLoop_misses (hget : s.table.get ch = some slot) (hslot : slot.Holds ids ng.config.maxPayload held)
    (hlive : ¬ s.out.Stuck) (hmiss : s.table.slotOf ch.localId.raw ≠ some ch.slot) {clse pkt : Packet}
    (hclose : ids.closedBy clse = true) (hcmd : pkt.command = .write) (harg : pkt.arg1 = ids.localId.raw)
    (hlen : 1 < pkt.data.length) {ios : List Io} (hsmooth : ∀ io ∈ ios, io.Smooth) (hios : 2 ≤ ios.length) (reads : ℕ) :
    Goes (fun _ => True) (readToEndLoop ng ch 1 (reads + 1) (List.replicate (held.length + 1) 0) 0)
      { s with inputs := [.packet pkt, .packet clse], ios } fun r _ => r.2 = held ++ [0] := by
  have hgiven : [Input.packet pkt, .packet clse].filter (· ≠ .interrupted) = [.packet pkt, .packet clse] := rfl
  have hserve := Serving.start hget hslot hlive hgiven hsmooth hios
  have hpkts : ∀ p ∈ [pkt], p.command = .write ∧ p.arg1 = ids.localId.raw := by
    simpa using ⟨hcmd, harg⟩
  by_cases hheld : held = []
  · subst hheld
    exact (hserve.astray hmiss).readToEndLoop ng hclose hpkts (by simp) (by simpa using hlen) 1 (reads + 1)
  · -- the first read takes what is held
    have hzeros : (List.replicate (held.length + 1) (0 : Byte)).length = held.length + 1 := List.length_replicate
    obtain ⟨s1, hread, hserve1⟩ := hserve.readBuffered ng (held.length + 1) 1 hheld
    rw [List.take_of_length_le (Nat.le_succ _)] at hread
    rw [List.drop_of_length_le (Nat.le_succ _)] at hserve1
    have hfull : ¬ 0 = (List.replicate (held.length + 1) (0 : Byte)).length := by simp
    have hsplice : Slices.splice (List.replicate (held.length + 1) (0 : Byte)) 0 held = held ++ [0] := by
      simp [Slices.splice, List.drop_replicate]
    have hstep : readToEndLoop ng ch 1 (reads + 1) (List.replicate (held.length + 1) 0) 0
          { s with inputs := [.packet pkt, .packet clse], ios } =
        readToEndLoop ng ch 1 reads (held ++ [0]) held.length s1 := by
      conv_lhs => unfold readToEndLoop
      extract_lets full room
      have hwant : room = held.length + 1 := (if_neg hfull).trans (by rw [hzeros, Nat.sub_zero])
      rw [hwant, bind_of_ok (attempt_of_ok hread)]
      show (if full ∧ _ then _ else readToEndLoop ng ch 1 reads (if full then _ else _) (0 + _)) s1 = _
      rw [if_neg fun hc => hfull hc.1, if_neg hfull, hsplice, Nat.zero_add]
    rw [Goes, hstep]
    exact (hserve1.astray hmiss).readToEndLoop ng hclose hpkts (by simp) (by simpa using hlen) 1 reads

/-- **When `read_to_end` fills exactly the buffer**, for an open channel with `held` in its slot: for every buffer and
every sequence of WRTEs, exactly when the channel's local id routes to it. -/
theorem read_to_end_fills_iff (ng : Negotiated) (ch : ChannelId) (ids : ChannelIds) (slot : ChannelSlot)
    (held : Bytes) (s : Connection) (hget : s.table.get ch = some slot)
    (hslot : slot.Holds ids ng.config.maxPayload held) (hlive : ¬ s.out.Stuck) :
    (∀ (buf : Bytes) (pkts : List Packet), (∀ pkt ∈ pkts, pkt.command = .write ∧ pkt.arg1 = ids.localId.raw ∧
      pkt.data.length ≤ ng.config.maxPayload) → Fills ng ch ids s held buf pkts) ↔
    s.table.slotOf ch.localId.raw = some ch.slot := by
  refine ⟨fun h => ?_, fun hmine buf pkts => fills_of_route hget hslot hlive hmine buf⟩
  by_contra hmiss
  let clse : Packet := ⟨.close, ids.remote.raw, ids.localId.raw, []⟩
  let pkt : Packet := ⟨.write, ids.remote.raw, ids.localId.raw, [1, 1]⟩
  have hclose : ids.closedBy clse = true := by simp [ChannelIds.closedBy, clse]
  have hsize : pkt.data.length ≤ ng.config.maxPayload :=
    le_trans (by decide : 2 ≤ minMaxPayload) ng.config.maxPayload_ge
  let ios := List.replicate (3 * (held.length + 4) + 1) (⟨[.ok 24, .ok 4], .ok⟩ : Io)
  have hsmooth := replicate_smooth (3 * (held.length + 4) + 1)
  obtain ⟨-, s', hrun, -⟩ := h (List.replicate (held.length + 1) 0) [pkt] (by simpa using ⟨rfl, rfl, hsize⟩) clse []
    [.packet pkt, .packet clse] ios 0 (held.length + 4) hclose rfl hsmooth (by simp [Serving.output, pkt])
    (by simp [ios])
  rw [if_neg (by simp [Serving.output, pkt])] at hrun
  obtain ⟨read, s1, hloop, hrest⟩ := bind_eq_ok hrun
  obtain ⟨-, s2, -, hpure⟩ := bind_eq_ok hrest
  cases hpure
  have hbuf := (readToEndLoop_misses hget hslot hlive hmiss hclose (show pkt.command = .write from rfl) rfl
    (Nat.lt_succ_self 1) hsmooth (by rw [List.length_replicate]; omega) (held.length + 3)).ok hloop
  have : (held ++ Serving.output [pkt]).take (held.length + 1) = held ++ [1] := by
    simp [Serving.output, pkt, List.take_append]
  simp only [List.length_replicate] at hbuf
  rw [this] at hbuf
  exact absurd (List.append_cancel_left hbuf) (by decide)

end Results

end Connection

/-! ## Runs -/

section Samples

/-- A host with small limits and a device without delayed ack. -/
def smallNegotiated : @Negotiated usize64 :=
  @Negotiated.mk usize64 4096 0x01000001 (@ConnectionConfig.embedded usize64) false

/-- The slot of a channel, with what is there to read. -/
def sampleSlot (buf : Bytes) : ChannelSlot :=
  { ChannelSlot.accepted ⟨⟨1⟩, ⟨7⟩⟩ 0 (@Negotiated.rxPolicy usize64 smallNegotiated) with
    rxBuf := buf, settled_le := Nat.zero_le _ }

/-- One open channel, and a transport that takes whole packets. -/
def sampleConnection (buf : Bytes) (sent : List Packet) (ios : ℕ) (inputs : List Input) : Connection where
  table := ⟨[some (sampleSlot buf)], 2, @Negotiated.rxPolicy usize64 smallNegotiated⟩
  incoming := []
  out := ⟨⟨[], false⟩, false⟩
  inputs := inputs
  ios := List.replicate ios ⟨[.ok 24, .ok 4], .ok⟩
  sent := sent
  log := []

/-- Three bytes of output. -/
def sampleOutput : List Packet := [⟨.write, 7, 1, [104, 105]⟩, ⟨.write, 7, 1, [10]⟩]

/-- The same between empty WRTEs. -/
def emptyOutput : List Packet := ⟨.write, 7, 1, []⟩ :: sampleOutput ++ [⟨.write, 7, 1, []⟩]

/-- The output, and the CLSE behind it. -/
def sampleInputs : List Input := sampleOutput.map .packet ++ [.packet ⟨.close, 7, 1, []⟩]

theorem sampleSlot_holds :
    (sampleSlot []).Holds ⟨⟨1⟩, ⟨7⟩⟩ 8192 [] :=
  ⟨rfl, rfl, rfl, by decide +kernel, rfl, by decide⟩

theorem sampleOutput_arrives :
    Connection.Serving.Arrivals ⟨⟨1⟩, ⟨7⟩⟩ 8192 sampleOutput := by
  refine ⟨?_, ?_⟩
  · decide
  · decide

/-- Three bytes through a buffer of one. -/
theorem read_to_vec_collects_bytewise :
    ∃ s', @Connection.readToVec usize64 smallNegotiated ⟨0, ⟨1⟩⟩ 1 3 1 4 (sampleConnection [] [] 13 sampleInputs) =
        (.ok (.ok [104, 105, 10]), s') ∧ s'.table.get ⟨0, ⟨1⟩⟩ = none := by
  let u := usize64
  have hcollects := (Connection.read_to_vec_collects_iff smallNegotiated ⟨0, ⟨1⟩⟩ ⟨⟨1⟩, ⟨7⟩⟩ (sampleSlot [])
    (sampleConnection [] [] 13 sampleInputs) sampleOutput 1 rfl sampleSlot_holds
    (by simp [sampleConnection, Outbound.Stuck]) sampleOutput_arrives).mpr ⟨.inr le_rfl, .inl rfl⟩
  obtain ⟨okays, s', hread, hfree, -, -⟩ := hcollects 3 ⟨.close, 7, 1, []⟩ [] sampleInputs _ 0 4 (by decide) (by decide)
    (replicate_smooth 13) (by decide) (by decide)
  exact ⟨s', hread, hfree⟩

/-- An exact fit: a byte in the slot, an empty WRTE in front of the others and one behind them, and a buffer of four. -/
theorem read_to_end_fills_exactly :
    ∃ s', @Connection.readToEnd usize64 smallNegotiated ⟨0, ⟨1⟩⟩ [0, 0, 0, 0] 1 9
        (sampleConnection [33] [] 28 (emptyOutput.map .packet ++ [.packet ⟨.close, 7, 1, []⟩])) =
        (.ok (.ok 4, [33, 104, 105, 10]), s') ∧ s'.table.get ⟨0, ⟨1⟩⟩ = none := by
  let u := usize64
  have hfills := (Connection.read_to_end_fills_iff smallNegotiated ⟨0, ⟨1⟩⟩ ⟨⟨1⟩, ⟨7⟩⟩ (sampleSlot [33]) [33]
    (sampleConnection [33] [] 28 (emptyOutput.map .packet ++ [.packet ⟨.close, 7, 1, []⟩])) rfl
    ⟨rfl, rfl, rfl, by decide +kernel, rfl, by decide⟩ (by simp [sampleConnection, Outbound.Stuck])).mpr rfl
  obtain ⟨okays, s', hread, hfree, -, -⟩ := hfills [0, 0, 0, 0] emptyOutput (by decide +kernel) ⟨.close, 7, 1, []⟩ []
    (emptyOutput.map .packet ++ [.packet ⟨.close, 7, 1, []⟩]) _ 0 9 (by decide) (by decide) (replicate_smooth 28) (by decide) (by decide)
  exact ⟨s', hread, hfree⟩

/-- Two open channels with one local id, after the counter has come round; the device closes the second behind two
bytes. -/
def twinConnection : Connection :=
  { sampleConnection [] [] 7 [.packet ⟨.write, 9, 1, [104, 105]⟩, .packet ⟨.close, 9, 1, []⟩] with
    table := ⟨[some (sampleSlot []), some { sampleSlot [] with remote := some ⟨9⟩ }], 2,
      @Negotiated.rxPolicy usize64 smallNegotiated⟩ }

/-- The two bytes go to the first channel: an empty buffer is not found too small for them. -/
theorem read_to_end_misses_twin :
    (@Connection.readToEnd usize64 smallNegotiated ⟨1, ⟨1⟩⟩ [] 2 4 twinConnection).1 = .ok (.ok 0, []) := by
  rfl

/-- The same three bytes through no buffer at all: however many reads are made, the call is not back. -/
theorem read_to_vec_stalls :
    Connection.Serving.output sampleOutput = [104, 105, 10] ∧
      ∀ reads, ∃ s', @Connection.readToVec usize64 smallNegotiated ⟨0, ⟨1⟩⟩ 0 3 1 reads
        (sampleConnection [] [] (3 * reads) sampleInputs) = (.error .dropped, s') := by
  let u := usize64
  refine ⟨rfl, fun reads => ?_⟩
  have hserve : Connection.Serving (some 0) ⟨0, ⟨1⟩⟩ [] (0 + 3 * reads)
      (ChannelSlot.Holds ⟨⟨1⟩, ⟨7⟩⟩ 8192 [])
      (sampleOutput.map .packet ++ [.packet ⟨.close, 7, 1, []⟩]) (sampleConnection [] [] (3 * reads) sampleInputs) := by
    refine ⟨⟨sampleSlot [], rfl, sampleSlot_holds⟩, rfl, ?_, replicate_smooth _, ?_, ?_, [], rfl, by simp⟩
    · show sampleInputs.filter (· ≠ .interrupted) = sampleInputs
      decide
    · simp [sampleConnection, Outbound.Stuck]
    · simp [sampleConnection]
  obtain ⟨s', hloop⟩ := Connection.Serving.readToVecLoop_stalls smallNegotiated 0
    (show (some 0 : Option ℕ) = some (ChannelId.slot ⟨0, ⟨1⟩⟩) from rfl) rfl sampleOutput_arrives
    (List.append_ne_nil_of_right_ne_nil [] (by decide)) hserve
  exact ⟨s', ConnM.bind_of_error hloop⟩

end Samples

end LibAdb
