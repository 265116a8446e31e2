import LibAdb.Base.Handles
import LibAdb.Base.Observed
import LibAdb.Base.ReadToEnd
import LibAdb.Lib.Runs

/-!
# LibAdb.Base.Writing — `write_channel` stays inside the window

Every call of a connection keeps an observed channel in step with its log (`Observed.Good`), whatever is received
meanwhile and wherever the call is dropped; the calls are taken apart with `Goes`.

What comes out is `write_channel_in_window`: each WRTE on the channel was allowed when it was written, and what one
`write_channel` writes is a prefix of its data, all of it if the call returned.
-/

namespace LibAdb

/-! ## Pieces that keep the channel in step -/

section Calls

variable [Usize]

namespace Observed

open ConnM

variable (w : Observed) (written : Bytes)

/-- The connection is in step with the log, in which `written` is what was written on the channel, and what is still
to arrive spares its ids. -/
structure Good (s : Connection) : Prop where
  inv : Inv w s.table s.incoming s.out s.log
  written : w.written s.log = written
  inputs : ∀ pkt, .packet pkt ∈ s.inputs → w.Spares pkt

/-- `pkt` has just arrived. -/
structure Arrived (pkt : Packet) (s : Connection) : Prop where
  inv : ∃ log, s.log = log ++ [.received pkt] ∧ Inv w s.table s.incoming s.out log ∧ w.written log = written
  spares : w.Spares pkt
  inputs : ∀ pkt, .packet pkt ∈ s.inputs → w.Spares pkt

variable {w written} {s : Connection} {c : ChannelId} {pkt : Packet} {slot slot' : ChannelSlot}

section

omit [Usize]

theorem Good.withTable {table : ChannelTable} (h : Good w written s) (ht : Inv w table s.incoming s.out s.log) :
    Good w written { s with table } := ⟨ht, h.written, h.inputs⟩

/-- The packet has been dealt with in the table. -/
theorem Arrived.good {table : ChannelTable} (h : Arrived w written pkt s)
    (ht : ∀ log, Inv w s.table s.incoming s.out log → Inv w table s.incoming s.out (log ++ [.received pkt])) :
    Good w written { s with table } := by
  obtain ⟨log, hlog, hinv, hw⟩ := h.inv
  refine ⟨?_, ?_, h.inputs⟩
  · dsimp only
    rw [hlog]
    exact ht log hinv
  · dsimp only
    rw [hlog, written_received, hw]

theorem Arrived.ignored (h : Arrived w written pkt s) (hclose : w.ids.closedBy pkt = false) : Good w written s :=
  h.good fun _ hinv => hinv.receive fun hc => by rw [hclose] at hc; cases hc

theorem Good.recvPkt (h : Good w written s) :
    Goes (Good w written) ConnM.recvPkt s fun pkt s' => Arrived w written pkt s' ∧ s'.table = s.table := by
  have hmem : ∀ {i rest}, s.inputs.filter (· ≠ .interrupted) = i :: rest → ∀ x ∈ i :: rest, x ∈ s.inputs := by
    intro i rest heq x hx
    rw [← heq] at hx
    exact (List.mem_filter.mp hx).1
  unfold Goes ConnM.recvPkt
  split
  · rename_i a s' heq
    split at heq
    · rename_i pkt rest hf
      cases heq
      exact ⟨⟨⟨s.log, rfl, h.inv, h.written⟩, h.inputs _ (hmem hf _ List.mem_cons_self),
        fun p hp => h.inputs p (hmem hf _ (List.mem_cons_of_mem _ hp))⟩, rfl⟩
    · cases heq
    · cases heq
  · rename_i halt s' heq
    split at heq
    · cases heq
    · rename_i e rest hf
      cases heq
      exact ⟨h.inv, h.written, fun p hp => h.inputs p (hmem hf _ (List.mem_cons_of_mem _ hp))⟩
    · cases heq
      exact h

theorem Good.recvPktOr (h : Good w written s) :
    Goes (Good w written) ConnM.recvPktOr s fun r s' => s'.table = s.table ∧
      match r with
      | some pkt => Arrived w written pkt s'
      | none => Good w written s' := by
  unfold Goes ConnM.recvPktOr
  cases hi : s.inputs with
  | nil => exact h
  | cons i rest =>
    have hrest : ∀ p, .packet p ∈ rest → w.Spares p := by
      intro p hp
      exact h.inputs p (by rw [hi]; exact List.mem_cons_of_mem _ hp)
    cases i with
    | packet pkt =>
      exact ⟨rfl, ⟨⟨s.log, rfl, h.inv, h.written⟩, h.inputs pkt (by rw [hi]; exact List.mem_cons_self), hrest⟩⟩
    | failed e => exact ⟨h.inv, h.written, hrest⟩
    | interrupted => exact ⟨rfl, h.inv, h.written, hrest⟩

/-- The next packet, with or without an interrupt. -/
theorem Good.recv (h : Good w written s) (interruptible : Bool) :
    Goes (Good w written) (Connection.recv interruptible) s fun r s' => s'.table = s.table ∧
      match r with
      | some pkt => Arrived w written pkt s'
      | none => Good w written s' := by
  unfold Connection.recv
  split_ifs
  · exact h.recvPktOr
  · exact h.recvPkt.bind fun pkt s' hs => goes_pure ⟨hs.2, hs.1⟩

end

/-! ### Sending -/

omit [Usize] in
/-- What `send` leaves, however it ends. -/
theorem send_state (p : Send) (s : Connection) : (∃ halt, send p s = (.error halt, s)) ∨ ∃ io ios r,
    s.ios = io :: ios ∧ send p s = (r, { s with
      out := (p.call io s.out).2
      ios := ios
      sent := if begins s.out p.packet then s.sent ++ [p.packet] else s.sent
      log := if reaches s.out p.packet then s.log ++ [.wrote p.packet] else s.log }) ∧
      (r = .ok () ↔ (p.call io s.out).1 = .ok) := by
  unfold send
  cases hi : s.ios with
  | nil => exact .inl ⟨.dropped, rfl⟩
  | cons io ios =>
    right
    dsimp only
    cases hr : (p.call io s.out).1 with
    | ok => exact ⟨io, ios, _, rfl, rfl, by simp [hr]⟩
    | err e => exact ⟨io, ios, _, rfl, rfl, by simp [hr]⟩
    | dropped => exact ⟨io, ios, _, rfl, rfl, by simp [hr]⟩

omit [Usize] in
/-- A packet that is not a WRTE on the channel. -/
theorem Good.send (h : Good w written s) {p : Send} (hp : w.isWrite (.wrote p.packet) = false) :
    Goes (fun s' => Good w written s' ∧ s'.table = s.table) (send p) s fun _ s' =>
      Good w written s' ∧ s'.table = s.table := by
  rcases send_state p s with ⟨halt, heq⟩ | ⟨io, ios, r, -, heq, -⟩
  · exact .of_error heq ⟨h, rfl⟩
  · have hout : Inv w s.table s.incoming (p.call io s.out).2 s.log := h.inv.withOut fun hs => (Send.call_stuck hs).2
    have hgood : Good w written { s with
        out := (p.call io s.out).2
        ios := ios
        sent := if begins s.out p.packet then s.sent ++ [p.packet] else s.sent
        log := if reaches s.out p.packet then s.log ++ [.wrote p.packet] else s.log } := by
      refine ⟨?_, ?_, h.inputs⟩
      · dsimp only
        split_ifs
        · exact hout.wrote hp
        · exact hout
      · dsimp only
        split_ifs
        · rw [written_other hp, h.written]
        · exact h.written
    cases r with
    | ok u => exact .of_ok heq ⟨hgood, rfl⟩
    | error halt => exact .of_error heq ⟨hgood, rfl⟩

variable (ng : Negotiated)

theorem Good.sendOkay (h : Good w written s) (ack : PendingAck) :
    Goes (fun s' => Good w written s' ∧ s'.table = s.table) (Connection.sendOkay ng ack) s fun _ s' =>
      Good w written s' ∧ s'.table = s.table := by
  refine h.send ?_
  simp only [Send.packet, okayPacket]
  cases ng.ackMode <;> rfl

theorem Good.sendPkt (h : Good w written s) {p : Packet} (hp : p.command ≠ .write) :
    Goes (fun s' => Good w written s' ∧ s'.table = s.table) (ConnM.send (.pkt p ng.checksum)) s fun _ s' =>
      Good w written s' ∧ s'.table = s.table := by
  refine h.send ?_
  simp [isWrite, Send.packet, hp]

/-! ### Dispatching -/

theorem Arrived.actOn (h : Arrived w written pkt s) :
    Goes (fun s' => Good w written s' ∧ s'.table = (s.table.dispatch pkt).2) (Connection.actOn ng pkt) s fun _ s' =>
      Good w written s' ∧ s'.table = (s.table.dispatch pkt).2 := by
  have hgood : Good w written { s with table := (s.table.dispatch pkt).2 } := h.good fun _ hinv => hinv.dispatch
  have hspec := ChannelTable.dispatch_spec s.table pkt
  refine goes_state ?_
  rcases hd : s.table.dispatch pkt with ⟨outcome, table⟩
  rw [hd] at hgood hspec
  refine goes_setTable ?_
  dsimp only at hgood hspec ⊢
  cases outcome with
  | ackWrite idx ack => exact hgood.sendOkay ng ack
  | incomingOpen remote credit destination =>
    dsimp only
    split_ifs
    · exact hgood.sendPkt ng (by simp [Packet.refuse])
    · refine ⟨⟨hgood.inv.withIncoming ?_, hgood.written, hgood.inputs⟩, rfl⟩
      intro p hp
      rcases List.mem_append.mp hp with hp | hp
      · exact hgood.inv.queue p hp
      · cases List.mem_singleton.mp hp
        cases hspec with
        | opens hcmd => exact fun hr => h.spares.1 hcmd (congrArg RemoteId.raw hr)
  | cancelPendingOpen remote =>
    refine ⟨⟨hgood.inv.withIncoming ?_, hgood.written, hgood.inputs⟩, rfl⟩
    intro p hp
    exact hgood.inv.queue p (List.mem_of_mem_filter hp)
  | strayReady ids => exact hgood.sendPkt ng (by simp [Packet.close])
  | channelFault idx ids opening fault => exact ⟨hgood, rfl⟩
  | creditGranted idx => exact ⟨hgood, rfl⟩
  | slotClosed idx => exact ⟨hgood, rfl⟩
  | dataBuffered idx => exact ⟨hgood, rfl⟩
  | unmatched => exact ⟨hgood, rfl⟩

theorem Arrived.dispatch (h : Arrived w written pkt s) :
    Goes (fun s' => Good w written s' ∧ s'.table = (s.table.dispatch pkt).2) (Connection.dispatch ng pkt) s
      fun _ s' => Good w written s' ∧ s'.table = (s.table.dispatch pkt).2 := by
  refine (h.actOn ng).attempt_bind (fun _ hs => hs) (fun _ s' hs => hs) fun e s' hs => ?_
  dsimp only
  split_ifs
  · exact hs
  · exact hs

/-! ### Slots -/

omit [Usize] in
theorem Good.put (h : Good w written s) (hget : s.table.get c = some slot) (hc : Calm slot slot') :
    Good w written { s with table := s.table.put c.slot (some slot') } :=
  h.withTable (h.inv.put_calm (ChannelTable.get_eq_some.mp hget).1 hc)

omit [Usize] in
theorem Has.put_calm {ids : ChannelIds} (h : Has c ids s.table) (hget : s.table.get c = some slot)
    (hc : Calm slot slot') : Has c ids (s.table.put c.slot (some slot')) :=
  h.put (ChannelTable.get_eq_some.mp hget).1 hc.localId hc.ids

/-! ### Reading -/

theorem Good.takeBuffered (h : Good w written s) (want : ℕ) :
    Goes (Good w written) (Connection.takeBuffered ng c want) s fun _ s' =>
      Good w written s' ∧ ∀ ids, Has c ids s.table → Has c ids s'.table := by
  refine goes_state ?_
  extract_lets takes settles
  have htakes : ∀ s1, Good w written s1 → (∀ ids, Has c ids s.table → Has c ids s1.table) →
      Goes (Good w written) (takes ()) s1 fun _ s' =>
        Good w written s' ∧ ∀ ids, Has c ids s.table → Has c ids s'.table := by
    intro s1 h1 hhas
    refine goes_slotMut h1 fun slot hget => goes_lift h1 fun r hr => ?_
    cases r with
    | none => exact ⟨h1, hhas⟩
    | some out =>
      have hc : Calm slot out.2 := .takeBuffered hr
      exact ⟨h1.put hget hc, fun ids hid => (hhas ids hid).put_calm hget hc⟩
  have hsettles : Goes (Good w written) (settles ()) s fun _ s' =>
      Good w written s' ∧ ∀ ids, Has c ids s.table → Has c ids s'.table := by
    refine goes_slotMut h fun slot hget => ?_
    split
    · rename_i ack slot' hsettle
      have hc : Calm slot slot' := .settleTake hsettle
      refine goes_putSlot ?_
      have hnext : ∀ s1 : Connection, Good w written s1 ∧ s1.table = s.table.put c.slot (some slot') →
          Goes (Good w written) (takes ()) s1 fun _ s' =>
            Good w written s' ∧ ∀ ids, Has c ids s.table → Has c ids s'.table := fun s1 hs =>
        htakes s1 hs.1 fun ids hid => hs.2 ▸ hid.put_calm hget hc
      exact ((h.put hget hc).sendOkay ng ack).attempt_bind (fun _ hs => hs.1) (fun _ s1 hs => hnext s1 hs)
        fun _ s1 hs => hnext s1 hs
    · exact htakes s h fun _ hid => hid
  split_ifs
  · exact hsettles
  · exact goes_checkDesync h fun _ => hsettles

theorem Good.deliver (h : Good w written s) (n : ℕ) :
    Goes (Good w written) (Connection.deliver ng c n) s fun _ s' => Good w written s' := by
  refine goes_state ?_
  cases hget : s.table.get c with
  | none => exact h
  | some slot =>
    refine goes_putSlot ?_
    have h1 := h.put hget (.deliver slot n)
    cases (slot.deliver n).1 with
    | none => exact h1
    | some ack =>
      exact (h1.sendOkay ng ack).attempt_bind (fun _ hs => hs.1) (fun _ _ hs => hs.1) fun _ _ hs => hs.1

omit [Usize] in
/-- A CLSE for the channel of `c` ends its call. -/
theorem Arrived.closedByDevice {α : Type} {Q : α → Connection → Prop} {ids : ChannelIds}
    (h : Arrived w written pkt s) (hhas : Has c ids s.table) (hc : ids.closedBy pkt = true) :
    Goes (Good w written) (Connection.closedByDevice c) s Q := by
  obtain ⟨slot, hget, hids⟩ := hhas
  refine goes_state ?_
  rw [hget]
  exact goes_putSlot (goes_fail (h.good fun _ hinv => hinv.close hget hids hc))

theorem Good.recvLoop {ids : ChannelIds} (h : Good w written s) (hhas : Has c ids s.table) (want : ℕ)
    (interruptible : Bool) (rounds : ℕ) :
    Goes (Good w written) (Connection.recvLoop ng c ids want interruptible rounds) s fun _ s' =>
      Good w written s' := by
  induction rounds generalizing s with
  | zero => exact h
  | succ rounds ih =>
    refine (h.recv interruptible).bind fun r s1 hs => ?_
    obtain ⟨htable, hs⟩ := hs
    cases r with
    | none => exact hs
    | some pkt =>
      have hhas1 : Has c ids s1.table := htable ▸ hhas
      dsimp only at hs ⊢
      split_ifs with hwrite hclose
      · have hnot : w.ids.closedBy pkt = false := by simp [ChannelIds.closedBy, hwrite.1]
        exact ((hs.ignored hnot).deliver ng _).bind fun _ s2 h2 => h2
      · exact hs.closedByDevice hhas1 hclose
      · obtain ⟨log, -, hinv, -⟩ := hs.inv
        have hhas2 := hinv.has_dispatch hhas1 pkt
        refine (hs.dispatch ng).attempt_bind (fun _ hd => hd.1) (fun _ s2 hd => ?_) fun e s2 hd => ?_
        · refine (hd.1.takeBuffered ng want).attempt_bind (fun _ ht => ht) (fun r s3 ht => ?_) fun _ s3 ht => ht
          cases r with
          | some out => exact ht.1
          | none => exact ih ht.1 (ht.2 ids (hd.2 ▸ hhas2))
        · refine (hd.1.takeBuffered ng want).attempt_bind (fun _ ht => ht) (fun r s3 ht => ?_) fun _ s3 ht => ht
          cases r with
          | some out => exact ht.1
          | none => exact ht.1

omit [Usize] in
theorem has_of_ids {ids : ChannelIds} (h : s.table.ids c = .ok ids) : Has c ids s.table := by
  unfold ChannelTable.ids at h
  split at h
  · rename_i ids' hids
    cases h
    obtain ⟨slot, hget, hs⟩ := Option.bind_eq_some_iff.mp hids
    exact ⟨slot, hget, hs⟩
  · cases h

theorem Good.recvData (h : Good w written s) (want : ℕ) (interruptible : Bool) (rounds : ℕ) :
    Goes (Good w written) (Connection.recvData ng c want interruptible rounds) s fun _ s' => Good w written s' := by
  refine (h.takeBuffered ng want).bind fun r s1 h1 => ?_
  cases r with
  | some out => exact h1.1
  | none => exact goes_state (goes_lift h1.1 fun ids hids => h1.1.recvLoop ng (has_of_ids hids) _ _ _)

/-! ### Writing -/

theorem Good.waitAck (h : Good w written s) (rounds : ℕ) :
    Goes (Good w written) (Connection.waitAck ng c rounds) s fun _ s' =>
      Good w written s' ∧ ∃ slot b, s'.table.get c = some slot ∧ slot.isClosed = false ∧ slot.budget = some b := by
  induction rounds generalizing s with
  | zero => exact h
  | succ rounds ih =>
    refine goes_slotMut h fun slot hget => ?_
    split_ifs with hclosed hbudget
    · exact h
    · obtain ⟨b, hb⟩ := Option.isSome_iff_exists.mp hbudget
      exact ⟨h, slot, b, hget, by simpa using hclosed, hb⟩
    · refine goes_state (goes_lift h fun ids hids => h.recvPkt.bind fun pkt s1 hs => ?_)
      obtain ⟨hs, htable⟩ := hs
      have hhas : Has c ids s1.table := htable ▸ has_of_ids hids
      split_ifs with hready hclose
      · refine goes_state ?_
        have hnot : w.ids.closedBy pkt = false := by simp [ChannelIds.closedBy, hready.1]
        obtain ⟨slot1, hget1, hids1⟩ := hhas
        obtain ⟨hat1, hid1⟩ := ChannelTable.get_eq_some.mp hget1
        rw [hget1]
        dsimp only
        cases happly : slot1.applyReady pkt.data with
        | error e => exact hs.ignored hnot
        | ok slot2 =>
          have hraw : slot1.localId.raw = pkt.arg1 := by
            obtain ⟨r, -, rfl⟩ := Option.map_eq_some_iff.mp hids1
            exact hready.2.symm
          exact goes_putSlot (ih (hs.good fun _ hinv => hinv.ready hat1 hready.1 hraw happly))
      · exact hs.closedByDevice hhas hclose
      · exact ((hs.dispatch ng).mono (fun _ hd => hd.1) fun _ _ hd => hd.1).bind fun _ s2 h2 => ih h2

/-- The part of a write that is on the channel. -/
def mine (w : Observed) (c : ChannelId) (bytes : Bytes) : Bytes := if c = w.ch then bytes else []

omit [Usize] in
/-- Only a packet that reached the transport was sent. -/
theorem call_live {p : Send} {io : Io} {o : Outbound} (hok : (p.call io o).1 = .ok) :
    ConnM.reaches o p.packet = true := by
  by_cases hd : o.desync = true
  · rw [Send.call_desync hd] at hok
    cases hok
  have hd' : o.desync = false := by simpa using hd
  by_cases hlen : maxPayloadConst < p.packet.data.length
  · rw [Send.call_tooLarge hd' hlen] at hok
    cases hok
  obtain ⟨header, -, hheader, hcall⟩ := @Send.call_frame p io o hd' (not_lt.mp hlen)
  by_cases hgone : o.transport.gone = true
  · rw [hcall] at hok
    exact absurd hok (writeFrame_gone hgone hheader).2
  · simp [reaches, begins, hd', hgone, not_lt.mp hlen]

omit [Usize] in
/-- One that reached it and was not sent leaves things stuck. -/
theorem call_torn {p : Send} {io : Io} {o : Outbound} (hr : ConnM.reaches o p.packet = true)
    (hok : (p.call io o).1 ≠ .ok) : (p.call io o).2.Stuck := by
  simp only [reaches, begins, Bool.and_eq_true, Bool.not_eq_true', decide_eq_true_eq] at hr
  obtain ⟨⟨hd, hlen⟩, hgone⟩ := hr
  obtain ⟨header, -, -, hcall⟩ := @Send.call_frame p io o hd hlen
  have hends := @writeFrame_ends o.transport io header p.packet.data hgone
  rw [hcall] at hok ⊢
  unfold sendFrame at hok ⊢
  dsimp only at hok ⊢
  cases hw : (writeFrame io header p.packet.data o.transport).1 with
  | ok => exact absurd hw hok
  | err e =>
    by_cases he : connectionGone e = true
    · exact .inr (hends.gone e hw he)
    · exact .inl (by simp [SendResult.disarms, he])
  | dropped => exact .inl (by simp [SendResult.disarms])

omit [Usize] in
theorem live_of_reaches {o : Outbound} {p : Packet} (h : ConnM.reaches o p = true) : ¬ o.Stuck := by
  simp only [reaches, begins, Bool.and_eq_true, Bool.not_eq_true', decide_eq_true_eq] at h
  simp [Outbound.Stuck, h.1.1, h.2]

/-- A WRTE on the channel, and what it costs. -/
theorem Good.write_own {p : Send} {b : ℕ} (h : Good w written s) (hget : s.table.get w.ch = some slot)
    (hopen : slot.isClosed = false) (hb : slot.budget = some b) (hlen : p.packet.data.length ≤ b)
    (hsize : p.packet.data.length ≤ max w.limit 1) (hp : w.isWrite (.wrote p.packet) = true) :
    Goes (fun s' => Good w written s' ∨ Good w (written ++ p.packet.data) s') (ConnM.send p) s fun _ s' =>
      s'.table = s.table ∧ Good w (written ++ p.packet.data)
        { s' with table := s'.table.put w.ch.slot (some (slot.spend p.packet.data.length)) } := by
  rcases send_state p s with ⟨halt, heq⟩ | ⟨io, ios, res, -, heq, hok⟩
  · exact .of_error heq (.inl h)
  by_cases hreach : reaches s.out p.packet = true
  · have hlive := live_of_reaches hreach
    have hw : w.written (s.log ++ [.wrote p.packet]) = written ++ p.packet.data := by
      rw [written_wrote hp, h.written]
    simp only [if_pos hreach] at heq
    cases res with
    | ok u => exact .of_ok heq ⟨rfl, h.inv.wrote_paid hget hlive hopen hb hlen hsize hp, hw, h.inputs⟩
    | error halt =>
      have htorn := call_torn hreach fun ho => by cases hok.mpr ho
      exact .of_error heq (.inr ⟨h.inv.wrote_torn hget hlive hopen hb hlen hsize htorn, hw, h.inputs⟩)
  · simp only [if_neg hreach] at heq
    cases res with
    | ok u => exact absurd (call_live (hok.mp rfl)) hreach
    | error halt =>
      exact .of_error heq (.inl ⟨h.inv.withOut fun hs => (Send.call_stuck hs).2, h.written, h.inputs⟩)

/-- One WRTE and what it costs: on the channel itself, or on another. -/
theorem Good.write {ids : ChannelIds} {payload : Bytes} {b : ℕ} (h : Good w written s)
    (hget : s.table.get c = some slot) (hopen : slot.isClosed = false) (hb : slot.budget = some b)
    (hids : slot.ids = some ids) (hlen : payload.length ≤ b) (hsize : payload.length ≤ max w.limit 1) :
    Goes (fun s' => Good w written s' ∨ Good w (written ++ w.mine c payload) s')
      (ConnM.send (.raw .write ids payload ng.checksum)) s fun _ s' => s'.table = s.table ∧
        Good w (written ++ w.mine c payload)
          { s' with table := s'.table.put c.slot (some (slot.spend payload.length)) } := by
  obtain ⟨hat, hid⟩ := ChannelTable.get_eq_some.mp hget
  obtain ⟨r, hr, rfl⟩ := Option.map_eq_some_iff.mp hids
  by_cases hc : c = w.ch
  · subst hc
    have hmine : w.mine w.ch payload = payload := if_pos rfl
    rw [hmine]
    refine h.write_own hget hopen hb hlen hsize ?_
    simp [isWrite, Send.packet, w.localId_eq, hid]
  · -- another channel has another local id
    have hlocal : slot.localId ≠ w.ch.localId := by
      intro heq
      refine hc ?_
      show (⟨c.slot, c.localId⟩ : ChannelId) = ⟨w.ch.slot, w.ch.localId⟩
      rw [h.inv.alone hat heq, ← hid, heq]
    have hmine : w.mine c payload = [] := if_neg hc
    have hpkt : w.isWrite (.wrote (Send.raw .write ⟨slot.localId, r⟩ payload ng.checksum).packet) = false := by
      have hne : slot.localId.raw ≠ w.ids.localId.raw := by
        intro heq
        exact hlocal (by rw [← w.localId_eq]; exact congrArg LocalId.mk heq)
      simp [isWrite, Send.packet, hne]
    rw [hmine, List.append_nil]
    refine (h.send hpkt).mono (fun _ hs => .inl hs.1) fun _ s' hs => ⟨hs.2, ?_⟩
    obtain ⟨hl, hrem, hst, -⟩ := spend_same slot payload.length
    refine hs.1.withTable (hs.1.inv.put (hs.2 ▸ hat) hl hrem (fun ho => hst ▸ ho) fun hw => ?_)
    exact absurd (ChannelTable.get_eq_some.mp hw).2 hlocal

theorem Good.writeLoop (hlimit : w.limit = ng.maxPayload.toNat) {data : Bytes} (rounds chunks : ℕ) {offset : ℕ}
    (h : Good w (written ++ w.mine c (data.take offset)) s) :
    Goes (fun s' => ∃ k, Good w (written ++ w.mine c (data.take k)) s')
      (Connection.writeLoop ng c data rounds chunks offset) s fun _ s' => Good w (written ++ w.mine c data) s' := by
  induction chunks generalizing s offset with
  | zero => exact ⟨offset, h⟩
  | succ chunks ih =>
    rw [Connection.writeLoop]
    split_ifs with hmore
    · refine ((h.waitAck ng rounds).mono (fun s' hs => ⟨offset, hs⟩) fun _ _ hs => hs).bind fun _ s1 hs => ?_
      obtain ⟨h1, slot, b, hget, hopen, hb⟩ := hs
      refine goes_slotMut ⟨offset, h1⟩ fun slot1 hget1 => ?_
      cases hget.symm.trans hget1
      refine goes_state (goes_lift ⟨offset, h1⟩ fun ids hids => ?_)
      obtain ⟨slot2, hget2, hids2⟩ := has_of_ids hids
      cases hget.symm.trans hget2
      rw [hb, Option.getD_some]
      generalize hn : min (min (data.length - offset) (max ng.maxPayload.toNat 1)) b = n
      have hpay : ((data.drop offset).take n).length = n := by
        rw [List.length_take, List.length_drop]
        omega
      have hgo := h1.write ng hget hopen hb hids2 (by rw [hpay]; omega) (by rw [hpay, hlimit]; omega)
      have hjoin : written ++ w.mine c (data.take offset) ++ w.mine c ((data.drop offset).take n) =
          written ++ w.mine c (data.take (offset + n)) := by
        unfold mine
        split_ifs
        · rw [List.append_assoc, List.take_add]
        · simp
      rw [hpay, hjoin] at hgo
      refine (hgo.mono ?_ fun _ _ hs => hs).bind fun _ s2 hs => ?_
      · rintro s' (hs | hs)
        · exact ⟨offset, hs⟩
        · exact ⟨offset + n, hs⟩
      · exact goes_slotMut_of_get ((congrArg (·.get c) hs.1).trans hget) (goes_putSlot (ih hs.2))
    · rw [List.take_of_length_le (not_lt.mp hmore)] at h
      exact h

omit [Usize] in
theorem Good.from_start {data : Bytes} (h : Good w written s) : Good w (written ++ w.mine c (data.take 0)) s := by
  have hnil : w.mine c (data.take 0) = [] := by
    unfold mine
    split_ifs <;> rfl
  rw [hnil, List.append_nil]
  exact h

theorem Good.writeChannel (hlimit : w.limit = ng.maxPayload.toNat) (h : Good w written s) (data : Bytes)
    (rounds chunks : ℕ) :
    Goes (fun s' => ∃ k, Good w (written ++ w.mine c (data.take k)) s')
      (Connection.writeChannel ng c data rounds chunks) s fun _ s' => Good w (written ++ w.mine c data) s' := by
  refine goes_checkDesync ⟨0, h.from_start⟩ fun _ => ?_
  split_ifs with hdata
  · have hnil : data.take 0 = data := by rw [hdata]; rfl
    exact hnil ▸ h.from_start
  · exact Good.writeLoop ng hlimit rounds chunks h.from_start

/-! ### Opening, accepting, closing -/

theorem Good.awaitOpenAck (h : Good w written s) (hlocal : c.localId ≠ w.ch.localId) (hzero : c.localId.raw ≠ 0)
    (rounds : ℕ) :
    Goes (Good w written) (Connection.awaitOpenAck ng c rounds) s fun _ s' => Good w written s' := by
  have hne : c.localId.raw ≠ w.ids.localId.raw := by
    intro heq
    exact hlocal (by rw [← w.localId_eq]; exact congrArg LocalId.mk heq)
  induction rounds generalizing s with
  | zero => exact h
  | succ rounds ih =>
    refine h.recvPkt.bind fun pkt s1 hs => ?_
    obtain ⟨hs, -⟩ := hs
    split_ifs with hready hclose
    · refine goes_state (goes_setTable ?_)
      have hnot : w.ids.closedBy pkt = false := by simp [ChannelIds.closedBy, hready.1]
      split
      · rename_i slot hslot
        obtain ⟨b, hopen⟩ := ChannelSlot.acceptOpenReady_ok hslot
        have hremote : slot.remote ≠ some w.ids.remote := by
          intro hr
          rw [hopen] at hr
          have hr' : pkt.arg0 = w.ids.remote.raw := congrArg RemoteId.raw (Option.some.inj hr)
          exact hne (hready.2.symm.trans (hs.spares.2 hready.1 hr'))
        refine goes_putSlot (goes_pure ?_)
        have hgood : Good w written { s1 with table := s1.table.put c.slot (some slot) } := by
          refine hs.good fun _ hinv => (hinv.put_other ?_ ?_ ?_ hremote).receive fun hc => ?_
          · rw [hopen]
            exact fun ho => by cases ho
          · rw [hopen]
            exact hzero
          · rw [hopen]
            exact hlocal
          · rw [hnot] at hc
            cases hc
        dsimp only [ChannelTable.insertOpening]
        rw [ChannelTable.put_put]
        exact hgood
      · refine goes_state (goes_setTable ?_)
        dsimp only
        rw [ChannelTable.freed_insertOpening]
        have hgood : Good w written { s1 with table := s1.table.put c.slot none } :=
          (hs.ignored hnot).withTable ((hs.ignored hnot).inv.put_none _)
        exact ((hgood.sendPkt ng (by simp [Packet.close])).mono (fun _ h2 => h2.1) fun _ _ h2 => h2.1).bind
          fun _ s2 h2 => goes_fail h2
    · refine goes_fail (hs.ignored ?_)
      have h0 : ¬ pkt.arg1 = 0 := fun h0 => hzero (hclose.2.symm.trans h0)
      have h1 : ¬ pkt.arg1 = w.ids.localId.raw := fun h1 => hne (hclose.2.symm.trans h1)
      simp [ChannelIds.closedBy, h0, h1]
    · exact ((hs.dispatch ng).mono (fun _ hd => hd.1) fun _ _ hd => hd.1).bind fun _ s2 h2 => ih h2

omit [Usize] in
/-- The next id is not the channel's. -/
theorem fresh_local {t t' : ChannelTable} (hfresh : t.nextLocalId ≠ w.ch.localId.raw)
    (ha : t.allocate = some (c, t')) : c.localId ≠ w.ch.localId := by
  obtain ⟨-, -, -, -, hraw⟩ := ChannelTable.allocate_spec ha
  intro heq
  exact hfresh (by rw [← hraw, heq])

theorem Good.openChannel (h : Good w written s) (hfresh : s.table.nextLocalId ≠ w.ch.localId.raw)
    (destination : Bytes) (rounds : ℕ) :
    Goes (Good w written) (Connection.openChannel ng destination rounds) s fun _ s' => Good w written s' := by
  refine goes_checkDesync h fun _ => goes_state ?_
  cases ha : s.table.allocate with
  | none => exact h
  | some r =>
    obtain ⟨c, t'⟩ := r
    obtain ⟨-, -, -, -, hraw⟩ := ChannelTable.allocate_spec ha
    have h1 : Good w written { s with table := t' } := h.withTable (h.inv.allocate ha)
    refine goes_setTable ?_
    refine ((h1.send ?_).mono (fun _ h2 => h2.1) fun _ _ h2 => h2.1).bind fun _ s2 h2 => ?_
    · simp [isWrite, Send.packet]
    exact h2.awaitOpenAck ng (fresh_local hfresh ha) (hraw ▸ h.inv.next) rounds

theorem Good.closeChannel (h : Good w written s) :
    Goes (Good w written) (Connection.closeChannel ng c) s fun _ s' => Good w written s' := by
  refine goes_checkDesync h fun _ => goes_state (goes_lift h fun ids _ => goes_setTable ?_)
  have h1 : Good w written { s with table := s.table.freed c } := h.withTable (h.inv.freed c)
  exact (h1.sendPkt ng (by simp [Packet.close])).mono (fun _ h2 => h2.1) fun _ _ h2 => h2.1

omit [Usize] in
theorem Good.dropIncoming (h : Good w written s) (reserved : Option ChannelId) {pending : Option PendingOpen}
    (hp : ∀ p ∈ pending, p.remote ≠ w.ids.remote) : Good w written (Connection.dropIncoming reserved pending s) := by
  have hqueue : ∀ p ∈ pending.toList ++ s.incoming, p.remote ≠ w.ids.remote := by
    intro p hmem
    rcases List.mem_append.mp hmem with hmem | hmem
    · exact hp p (Option.mem_toList.mp hmem)
    · exact h.inv.queue p hmem
  cases reserved with
  | none => exact ⟨h.inv.withIncoming hqueue, h.written, h.inputs⟩
  | some ch => exact ⟨(h.inv.freed ch).withIncoming hqueue, h.written, h.inputs⟩

theorem Good.answer (h : Good w written s) {pending : PendingOpen} (hp : pending.remote ≠ w.ids.remote)
    (reserved : Option ChannelId) {verdict : Packet} (hv : verdict.command ≠ .write) :
    Goes (Good w written) (Connection.answer ng pending reserved verdict) s fun _ s' => Good w written s' := by
  have hsend := h.sendPkt ng hv
  unfold Goes at hsend ⊢
  unfold Connection.answer
  rcases hs : ConnM.send (.pkt verdict ng.checksum) s with ⟨(e | _) | u, s1⟩
  · rw [hs] at hsend
    refine hsend.1.dropIncoming reserved ?_
    intro p hmem
    split_ifs at hmem
    · cases hmem
    · cases hmem
      exact hp
  · rw [hs] at hsend
    exact hsend.1.dropIncoming reserved fun p hmem => by cases hmem; exact hp
  · rw [hs] at hsend
    exact hsend.1

theorem Good.accept (h : Good w written s) (hfresh : s.table.nextLocalId ≠ w.ch.localId.raw) {pending : PendingOpen}
    (hp : pending.remote ≠ w.ids.remote) :
    Goes (Good w written) (Connection.accept ng pending) s fun _ s' => Good w written s' := by
  refine goes_state ?_
  cases ha : s.table.allocate with
  | none => exact (h.answer ng hp none (by simp [Packet.refuse])).bind fun _ _ h1 => goes_fail h1
  | some r =>
    obtain ⟨c, t'⟩ := r
    obtain ⟨-, -, -, -, hraw⟩ := ChannelTable.allocate_spec ha
    refine goes_setTable ?_
    have h1 : Good w written { s with table := t'.insertAccepted c pending.remote pending.credit } := by
      refine h.withTable ((h.inv.allocate ha).put_other ?_ ?_ (fresh_local hfresh ha) ?_)
      · exact fun ho => by cases ho
      · exact hraw ▸ h.inv.next
      · exact fun hr => hp (Option.some.inj hr)
    exact (h1.answer ng hp (some c) (by simp)).bind fun _ _ h2 => goes_pure h2

theorem Good.decide (h : Good w written s) (hfresh : s.table.nextLocalId ≠ w.ch.localId.raw) {pending : PendingOpen}
    (hp : pending.remote ≠ w.ids.remote) (verdict : Connection.Verdict) :
    Goes (Good w written) (Connection.decide ng pending verdict) s fun _ s' => Good w written s' := by
  cases verdict with
  | accept => exact (h.accept ng hfresh hp).bind fun _ _ h1 => goes_pure h1
  | reject => exact (h.answer ng hp none (by simp [Packet.refuse])).bind fun _ _ h1 => goes_pure h1
  | drop => exact h.dropIncoming none fun p hmem => by cases hmem; exact hp

/-- The request at the head of the queue. -/
theorem Good.decide_head {pending : PendingOpen} {rest : IncomingQueue} (h : Good w written s)
    (hfresh : s.table.nextLocalId ≠ w.ch.localId.raw) (hq : s.incoming = pending :: rest)
    (verdict : Connection.Verdict) :
    Goes (Good w written) (Connection.decide ng pending verdict) { s with incoming := rest } fun _ s' =>
      Good w written s' := by
  have hqueue := h.inv.queue
  rw [hq] at hqueue
  have h1 : Good w written { s with incoming := rest } :=
    ⟨h.inv.withIncoming fun p hmem => hqueue p (List.mem_cons_of_mem _ hmem), h.written, h.inputs⟩
  exact h1.decide ng hfresh (hqueue pending List.mem_cons_self) verdict

theorem Good.acceptIncoming (h : Good w written s) (hfresh : s.table.nextLocalId ≠ w.ch.localId.raw)
    (verdict : Connection.Verdict) (rounds : ℕ) :
    Goes (Good w written) (Connection.acceptIncoming ng verdict rounds) s fun _ s' => Good w written s' := by
  induction rounds generalizing s with
  | zero => exact h
  | succ rounds ih =>
    refine goes_state ?_
    split
    · rename_i pending rest hq
      exact goes_setIncoming (h.decide_head ng hfresh hq verdict)
    · refine h.recvPkt.bind fun pkt s1 hs => ?_
      obtain ⟨hs, htable⟩ := hs
      refine ((hs.dispatch ng).mono (fun _ hd => hd.1) fun _ _ hd => hd).bind fun _ s2 h2 => ih h2.1 ?_
      rw [h2.2, ChannelTable.dispatch_nextLocalId, htable]
      exact hfresh

theorem Good.tryAcceptIncoming (h : Good w written s) (hfresh : s.table.nextLocalId ≠ w.ch.localId.raw)
    (verdict : Connection.Verdict) :
    Goes (Good w written) (Connection.tryAcceptIncoming ng verdict) s fun _ s' => Good w written s' := by
  refine goes_state ?_
  split
  · rename_i pending rest hq
    exact goes_setIncoming (h.decide_head ng hfresh hq verdict)
  · exact goes_pure h

/-! ## Whole runs -/

/-- **Every call keeps the channel in step**, as long as its id is not given to another. -/
theorem Good.after (hlimit : w.limit = ng.maxPayload.toNat) (h : Good w written s)
    (hfresh : s.table.nextLocalId ≠ w.ch.localId.raw) (call : Connection.Call) :
    ∃ written', Good w written' (Connection.after ng s call) := by
  cases call with
  | «open» destination rounds => exact ⟨written, (h.openChannel ng hfresh destination rounds).after fun _ _ hs => hs⟩
  | read ch want rounds => exact ⟨written, (h.recvData ng want false rounds).after fun _ _ hs => hs⟩
  | select ch want rounds => exact ⟨written, (h.recvData ng want true rounds).after fun _ _ hs => hs⟩
  | write ch data rounds chunks =>
    have hgo := h.writeChannel ng hlimit (c := ch) data rounds chunks
    obtain ⟨k, hk⟩ := hgo.after fun _ _ hs => ⟨data.length, by rw [List.take_length]; exact hs⟩
    exact ⟨_, hk⟩
  | close ch => exact ⟨written, (h.closeChannel ng).after fun _ _ hs => hs⟩
  | accept verdict rounds =>
    exact ⟨written, (goes_checkDesync h fun _ => h.acceptIncoming ng hfresh verdict rounds).after fun _ _ hs => hs⟩
  | tryAccept verdict => exact ⟨written, (h.tryAcceptIncoming ng hfresh verdict).after fun _ _ hs => hs⟩

/-- A connection with the channel just open: the log begins here, the slot has the credit of the opening, and no other
slot or request has one of its ids. -/
structure Opened (w : Observed) (s : Connection) : Prop where
  log : s.log = []
  slot : ∃ slot, s.table.get w.ch = some slot ∧ slot.ids = some w.ids ∧ slot.policy.ack = w.mode ∧
    slot.sendBudget = if w.mode = .delayed then (w.credit : ℤ) else 0
  next : s.table.nextLocalId ≠ 0
  opened : ∀ {j other}, s.table.at? j = some other → other.state ≠ .opening
  nonzero : ∀ {j other}, s.table.at? j = some other → other.localId.raw ≠ 0
  alone : ∀ {j other}, s.table.at? j = some other → other.localId = w.ch.localId → j = w.ch.slot
  remote : ∀ {j other}, s.table.at? j = some other → other.remote = some w.ids.remote → j = w.ch.slot
  queue : ∀ p ∈ s.incoming, p.remote ≠ w.ids.remote

omit [Usize] in
theorem Opened.good (h : w.Opened s) (hinputs : ∀ pkt, .packet pkt ∈ s.inputs → w.Spares pkt) : Good w [] s := by
  obtain ⟨slot, hget, hids, hmode, hbudget⟩ := h.slot
  refine ⟨⟨h.next, h.opened, h.nonzero, h.alone, h.remote, h.queue, ?_, ?_⟩, by rw [h.log]; rfl, hinputs⟩
  · intro slot' hget'
    cases hget.symm.trans hget'
    rw [h.log]
    refine ⟨⟨hids, hmode, fun e he => by cases he⟩, fun _ => ⟨?_, ?_, ?_⟩⟩
    · rw [hbudget]
      split_ifs <;> omega
    · intro hm
      rw [hbudget, if_pos hm]
      simp [Observed.written, granted]
    · intro _ _ before e after hsplit
      simp at hsplit
  · intro before pkt after hsplit
    rw [h.log] at hsplit
    simp at hsplit

/-- A write to a channel the device closed fails. -/
theorem Good.write_closed (h : Good w written s) (hclosed : ∃ e ∈ s.log, w.isClose e = true) {data : Bytes}
    (hdata : data ≠ []) (hstep : s.out.desync = false) (rounds chunks : ℕ) :
    (Connection.writeChannel ng w.ch data (rounds + 1) (chunks + 1) s).1 = .error (.err .channelClosed) := by
  have hpos : 0 < data.length := List.length_pos_of_ne_nil hdata
  have hwait : Connection.waitAck ng w.ch (rounds + 1) s = (.error (.err .channelClosed), s) := by
    rw [Connection.waitAck]
    cases hget : s.table.get w.ch with
    | none =>
      have hrun : Connection.slotMut w.ch s = (.error (.err .channelClosed), s) := by
        rw [Connection.slotMut, state_bind, hget]
        rfl
      rw [bind_of_error hrun]
    | some slot =>
      obtain ⟨e, he, hc⟩ := hclosed
      rw [bind_of_ok (Connection.slotMut_of_get hget), if_pos ((h.inv.slot hget).1.closed e he hc)]
      rfl
  have hcheck : checkDesync s = (.ok (), s) := by
    simp only [Bind.bind, checkDesync, state, hstep]
    rfl
  rw [Connection.writeChannel, bind_of_ok hcheck, if_neg hdata, Connection.writeLoop, if_pos hpos,
    bind_of_error hwait]

end Observed

/-- **`write_channel` sends the data within the window.**  From the moment a channel is open, in every run of calls in
which its local id is not given out again, with every sequence of packets that spares its ids: each WRTE on the
channel was allowed when it was written; what a write adds is a prefix of its data, and all of it if the call returns;
and after a CLSE a write fails. -/
theorem write_channel_in_window {ng : Negotiated} {w : Observed} {start s : Connection} {calls : List Connection.Call}
    (hlimit : w.limit = ng.maxPayload.toNat) (hopen : w.Opened start)
    (hinputs : ∀ pkt, .packet pkt ∈ start.inputs → w.Spares pkt)
    (hrun : Runs.Run (fun s call => some (Connection.after ng s call))
      (fun s _ => s.table.nextLocalId ≠ w.ch.localId.raw) start calls s)
    (data : Bytes) (rounds chunks : ℕ) (r : Except Halt Unit) (s' : Connection)
    (hwrite : Connection.writeChannel ng w.ch data rounds chunks s = (r, s')) :
    w.Kept s.log ∧ w.Kept s'.log ∧ (∃ k, w.written s'.log = w.written s.log ++ data.take k) ∧
      (r = .ok () → w.written s'.log = w.written s.log ++ data) ∧
      ((∃ e ∈ s.log, w.isClose e = true) → data ≠ [] → s.out.desync = false → 0 < rounds → 0 < chunks →
        r = .error (.err .channelClosed)) := by
  obtain ⟨written, h⟩ : ∃ written, w.Good written s :=
    hrun.invariant (I := fun s => ∃ written, w.Good written s) ⟨[], hopen.good hinputs⟩ fun a call b hI hP hstep => by
      obtain ⟨written, h⟩ := hI
      cases hstep
      exact h.after ng hlimit hP call
  obtain rfl := h.written
  have hmine : ∀ bytes, w.mine w.ch bytes = bytes := fun bytes => if_pos rfl
  have hgo := h.writeChannel ng hlimit (c := w.ch) data rounds chunks
  obtain ⟨k, hk⟩ := hgo.after fun _ _ hs => ⟨data.length, by rw [List.take_length]; exact hs⟩
  rw [hwrite, hmine] at hk
  refine ⟨h.inv.kept, hk.inv.kept, ⟨k, hk.written⟩, ?_, ?_⟩
  · rintro rfl
    rw [(hgo.ok hwrite).written, hmine]
  · intro hclosed hdata hstep hrounds hchunks
    obtain ⟨rounds, rfl⟩ := Nat.exists_eq_succ_of_ne_zero hrounds.ne'
    obtain ⟨chunks, rfl⟩ := Nat.exists_eq_succ_of_ne_zero hchunks.ne'
    have hres := h.write_closed ng hclosed hdata hstep rounds chunks
    rw [hwrite] at hres
    exact hres

end Calls

/-! ## Samples -/

/-- A slot of an accepted channel, without delayed ack. -/
def acceptedSlot (localId remote : UInt32) : Option ChannelSlot :=
  some (@ChannelSlot.accepted ⟨⟨localId⟩, ⟨remote⟩⟩ 0 (@Negotiated.rxPolicy usize64 smallNegotiated))

/-- A connection with two slots, over a transport that takes whole packets. -/
def pairConnection (slots : List (Option ChannelSlot)) (next : UInt32) (inputs : List Input) : Connection where
  table := ⟨slots, next, @Negotiated.rxPolicy usize64 smallNegotiated⟩
  incoming := []
  out := ⟨⟨[], false⟩, false⟩
  inputs := inputs
  ios := List.replicate 4 ⟨[.ok 24, .ok 4], .ok⟩
  sent := []
  log := []

def sampleObserved : Observed where
  ch := ⟨0, ⟨1⟩⟩
  ids := ⟨⟨1⟩, ⟨7⟩⟩
  mode := .classic
  limit := 4096
  credit := 0
  localId_eq := rfl
  local_ne := by decide
  remote_ne := by decide

/-- The channel in the first slot, and a READY to come. -/
def observedConnection : Connection :=
  pairConnection [acceptedSlot 1 7, none] 2 [.packet ⟨.ready, 7, 1, []⟩]

theorem observedConnection_slot {j : ℕ} {other : ChannelSlot} (h : observedConnection.table.at? j = some other) :
    j = 0 ∧ acceptedSlot 1 7 = some other := by
  rcases j with _ | _ | j
  · exact ⟨rfl, h⟩
  · cases h
  · simp [observedConnection, pairConnection, ChannelTable.at?] at h

theorem observedConnection_opened : sampleObserved.Opened observedConnection where
  log := rfl
  slot := ⟨_, rfl, rfl, rfl, rfl⟩
  next := by decide
  opened h := by
    obtain ⟨-, heq⟩ := observedConnection_slot h
    cases heq
    exact fun ho => by cases ho
  nonzero h := by
    obtain ⟨-, heq⟩ := observedConnection_slot h
    cases heq
    decide
  alone h _ := (observedConnection_slot h).1
  remote h _ := (observedConnection_slot h).1
  queue _ h := by cases h

/-- Two writes, with the READY between them. -/
theorem write_channel_in_window_twice :
    let first := @Connection.after usize64 smallNegotiated observedConnection (.write ⟨0, ⟨1⟩⟩ [104] 1 2)
    let second := @Connection.writeChannel usize64 smallNegotiated ⟨0, ⟨1⟩⟩ [105] 2 2 first
    second.1 = .ok () ∧ sampleObserved.Kept second.2.log ∧ sampleObserved.written second.2.log = [104, 105] := by
  intro first second
  let u := usize64
  have hok : second.1 = .ok () := rfl
  have hinputs : ∀ pkt, .packet pkt ∈ observedConnection.inputs → sampleObserved.Spares pkt := by
    intro pkt hpkt
    cases List.mem_singleton.mp hpkt
    refine ⟨fun hc => ?_, fun _ _ => rfl⟩
    cases hc
  have hrun : Runs.Run (fun s call => some (Connection.after smallNegotiated s call))
      (fun s _ => s.table.nextLocalId ≠ sampleObserved.ch.localId.raw) observedConnection
      ([] ++ [.write ⟨0, ⟨1⟩⟩ [104] 1 2]) first := .snoc (.nil _) (by decide) rfl
  obtain ⟨-, hkept, -, hall, -⟩ := write_channel_in_window rfl observedConnection_opened hinputs hrun [105] 2 2
    second.1 second.2 rfl
  exact ⟨hok, hkept, (hall hok).trans rfl⟩

/-- A WRTE written on a channel after its CLSE was received: the CLSE went to another slot with the same local id, the
id counter having come round; to another slot with the same device's id; or to none, the device's id being 0. -/
theorem written_after_clse :
    (@Connection.run usize64 smallNegotiated
        (pairConnection [none, acceptedSlot 1 7] 1 [.packet ⟨.ready, 8, 1, []⟩, .packet ⟨.close, 7, 1, []⟩])
        [.«open» [] 1, .read ⟨0, ⟨1⟩⟩ 4 1, .write ⟨1, ⟨1⟩⟩ [104] 1 1]).log =
      [.wrote ⟨.«open», 1, 0, []⟩, .received ⟨.ready, 8, 1, []⟩, .received ⟨.close, 7, 1, []⟩,
        .wrote ⟨.write, 1, 7, [104]⟩] ∧
    (@Connection.run usize64 smallNegotiated
        (pairConnection [acceptedSlot 1 7, acceptedSlot 2 7] 3 [.packet ⟨.close, 7, 0, []⟩])
        [.read ⟨0, ⟨1⟩⟩ 4 1, .write ⟨1, ⟨2⟩⟩ [104] 1 1]).log =
      [.received ⟨.close, 7, 0, []⟩, .wrote ⟨.write, 2, 7, [104]⟩] ∧
    (@Connection.run usize64 smallNegotiated
        (pairConnection [acceptedSlot 1 7, acceptedSlot 2 0] 3 [.packet ⟨.close, 0, 0, []⟩])
        [.read ⟨0, ⟨1⟩⟩ 4 1, .write ⟨1, ⟨2⟩⟩ [104] 1 1]).log =
      [.received ⟨.close, 0, 0, []⟩, .wrote ⟨.write, 2, 0, [104]⟩] := by
  refine ⟨?_, ?_, ?_⟩ <;> decide +kernel

end LibAdb
