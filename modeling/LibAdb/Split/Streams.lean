import LibAdb.Split.Credit

/-!
# LibAdb.Split.Streams — the receive side of one channel

One channel `ch` is followed on a split connection.  `RecvTurn` says once what a step can do to its receive side: a WRTE
joins the unread bytes, a read takes from their front, an OKAY is decided under the write half, or nothing happens to
them, whatever else the step does: no call of another kind, no failure and no future dropped at an await loses a byte.
`Still` is the frame of the steps that leave the table alone.

From it, over whole runs: `stream_conserved`, that no byte is lost, repeated or reordered; and
`receive_credit_conserved`, that with delayed ack the credit given back is exactly what was read or is settled for the
next read.
-/

namespace LibAdb

/-- The receive side of a slot rests: only an end of the channel forgets what the device has had no OKAY for. -/
structure ChannelSlot.Rests (s s' : ChannelSlot) : Prop where
  id : s'.localId = s.localId
  rx : s'.rxBuf = s.rxBuf
  settled : s'.settled = s.settled
  policy : s'.policy = s.policy
  unacked : s'.unacked = s.unacked ∨ s'.state = .closed

namespace ChannelSlot.Rests

variable {s s' : ChannelSlot}

theorem refl (s : ChannelSlot) : Rests s s := ⟨rfl, rfl, rfl, rfl, .inl rfl⟩

theorem close (s : ChannelSlot) : Rests s s.applyClose := ⟨rfl, rfl, rfl, rfl, .inr rfl⟩

theorem fail (s : ChannelSlot) (fault : ChannelFault) : Rests s (s.fail fault) := ⟨rfl, rfl, rfl, rfl, .inr rfl⟩

theorem queue (s : ChannelSlot) (q : SendQueue) : Rests s { s with sendQueue := q } := ⟨rfl, rfl, rfl, rfl, .inl rfl⟩

theorem refund (s : ChannelSlot) (q : SendQueue) (n : ℕ) : Rests s ({ s with sendQueue := q }.refund n) := by
  unfold ChannelSlot.refund
  split <;> exact ⟨rfl, rfl, rfl, rfl, .inl rfl⟩

theorem grants {payload : Bytes} (h : s.applyReady payload = .ok s') : Rests s s' := by
  rcases applyReady_ok h with ⟨-, rfl⟩ | ⟨-, rfl⟩ <;> exact ⟨rfl, rfl, rfl, rfl, .inl rfl⟩

theorem accepts {remote : RemoteId} {payload : Bytes} (h : s.acceptOpenReady remote payload = .ok s') : Rests s s' := by
  obtain ⟨b, rfl⟩ := acceptOpenReady_ok h
  exact ⟨rfl, rfl, rfl, rfl, .inl rfl⟩

theorem reserves [Usize] {want n : ℕ} (h : s.tryReserveSend want = some (n, s')) (q : SendQueue) :
    Rests s { s' with sendQueue := q } := by
  obtain ⟨b, -, hspend⟩ := Option.map_eq_some_iff.mp h
  cases hspend
  unfold ChannelSlot.spend
  split <;> exact ⟨rfl, rfl, rfl, rfl, .inl rfl⟩

end ChannelSlot.Rests

/-- With delayed ack, what is unread and not settled is what the device has had no OKAY for. -/
structure ChannelSlot.Level (s : ChannelSlot) : Prop where
  mode : s.policy.ack = .delayed
  level : s.unacked = s.held

namespace ChannelSlot.Level

variable {s s' : ChannelSlot}

theorem rest (h : s.Level) (hrests : s.Rests s') (hlive : s'.state ≠ .closed) : s'.Level where
  mode := by rw [hrests.policy, h.mode]
  level := by
    rw [hrests.unacked.resolve_right hlive, h.level, held, held, hrests.rx, hrests.settled]

theorem write [Usize] (h : s.Level) {payload : Bytes} {d : AckDecision}
    (happly : s.applyWrite payload = .ok (d, s')) (hfits : s'.rxBuf.length ≤ usizeMax) :
    s'.Level ∧ s'.settled = s.settled := by
  obtain ⟨-, hle, ⟨-, rfl, -⟩ | ⟨ids, -, -, -, hclassic, -⟩⟩ := applyWrite_ok happly
  · refine ⟨⟨h.mode, ?_⟩, rfl⟩
    show satAdd s.unacked payload.length = _
    rw [held_push, h.level]
    -- the unread bytes fit a `usize`, so the sum has not saturated
    have hsum : s.held + payload.length ≤ usizeMax := by
      simp only [List.length_append] at hfits
      unfold held
      omega
    unfold satAdd
    omega
  · cases h.mode.symm.trans hclassic

theorem settle (h : s.Level) {want : ℕ} {ack : PendingAck} (hsettle : s.settleTake want = some (ack, s')) :
    s'.Level ∧ s.settled = 0 ∧ s'.settled = ack.len := by
  obtain ⟨hzero, -, hlen, rfl⟩ := settleTake_some hsettle
  have hlevel := h.level
  obtain ⟨-, ⟨-, hack, -⟩ | ⟨hclassic, -⟩⟩ := ackLen_some hlen
  · rw [held, hzero] at hlevel
    refine ⟨⟨h.mode, ?_⟩, hzero, ?_⟩
    · simp only [held]
      omega
    · show min want s.rxBuf.length = ack.len
      omega
  · cases h.mode.symm.trans hclassic

/-- A read takes unsettled bytes only if it asks for none. -/
theorem ready (h : s.Level) {want : ℕ} (hdata : s.hasData = true) (hacks : s.takeAcks want = false) :
    0 < s.settled ∨ want = 0 := by
  by_contra hno
  obtain ⟨hsettled, hwant⟩ := not_or.mp hno
  have hzero : s.settled = 0 := by omega
  have hlevel := h.level
  rw [held, hzero, Nat.sub_zero] at hlevel
  have hlen : 0 < s.rxBuf.length := by
    unfold hasData at hdata
    simp at hdata
    exact List.length_pos_iff.mpr hdata.2
  have hmin : 0 < min (min want s.rxBuf.length) s.unacked := by omega
  unfold takeAcks ackLen at hacks
  rw [if_neg (by simp [hdata, hzero]), if_neg (by omega), h.mode] at hacks
  simp only [if_pos hmin, Option.isSome_some, Bool.true_eq_false] at hacks

theorem take (h : s.Level) {want : ℕ} {out : Bytes} (hacks : s.takeAcks want = false)
    (htake : s.takeBuffered want = .ok (some (out, s'))) : s'.Level ∧ s.settled = out.length + s'.settled := by
  obtain ⟨hdata, rfl, hle, rfl⟩ := takeBuffered_some htake
  have hready := h.ready hdata hacks
  have hlevel := h.level
  have hbound := s.settled_le
  have hmin : min want s.ready = min want s.settled := by
    unfold ChannelSlot.ready
    split_ifs <;> omega
  simp only [hmin, held, List.length_take] at hlevel ⊢
  refine ⟨⟨h.mode, ?_⟩, by omega⟩
  simp only [held, List.length_drop]
  omega

end ChannelSlot.Level

namespace Split

open ChannelTable Tasks

/-! ## What is read, what arrives, what is acknowledged -/

/-- Bytes a read of the channel returned. -/
def Obs.read? (ch : ChannelId) : Obs → Option Bytes
  | .read ch' out => if ch' = ch then some out else none
  | _ => none

/-- The payload of a WRTE to the channel that the table took. -/
def Obs.arrived? (ch : ChannelId) : Obs → Option Bytes
  | .received pkt (.dataBuffered idx) => if idx = ch.slot ∧ pkt.arg1 = ch.localId.raw then some pkt.data else none
  | .received pkt (.ackWrite idx _) => if idx = ch.slot ∧ pkt.arg1 = ch.localId.raw then some pkt.data else none
  | _ => none

/-- An OKAY that was decided on under the write half, of any channel. -/
def Obs.settled? : Obs → Option PendingAck
  | .settled ack => some ack
  | _ => none

/-- All that reads of the channel returned, in order. -/
def readOf (ch : ChannelId) (tr : List Obs) : Bytes := (tr.filterMap (Obs.read? ch)).flatten

/-- All that arrived on the channel, in order. -/
def arrivedOf (ch : ChannelId) (tr : List Obs) : Bytes := (tr.filterMap (Obs.arrived? ch)).flatten

def settledOf (tr : List Obs) : List PendingAck := tr.filterMap Obs.settled?

/-- The credit of the OKAYs of the channel with this local id. -/
def creditFor (ch : ChannelId) (acks : List PendingAck) : ℕ :=
  ((acks.filter fun ack => ack.ids.localId = ch.localId).map PendingAck.len).sum

section Projections

variable (ch : ChannelId) (a b : List Obs)

theorem readOf_append : readOf ch (a ++ b) = readOf ch a ++ readOf ch b := by
  simp [readOf]

theorem arrivedOf_append : arrivedOf ch (a ++ b) = arrivedOf ch a ++ arrivedOf ch b := by
  simp [arrivedOf]

theorem settledOf_append : settledOf (a ++ b) = settledOf a ++ settledOf b :=
  List.filterMap_append

end Projections

/-- None of the three. -/
structure Silent (ch : ChannelId) (obs : List Obs) : Prop where
  read : readOf ch obs = []
  arrived : arrivedOf ch obs = []
  settled : settledOf obs = []

/-- What a step can do to the receive side of a channel: with the bytes it read, the bytes that arrived, and the OKAYs
that were decided on. -/
inductive RecvTurn [Usize] (ch : ChannelId) (sh : Shared) (slot slot' : ChannelSlot) :
    Bytes → Bytes → List PendingAck → Prop
  | rests (h : slot.Rests slot') : RecvTurn ch sh slot slot' [] [] []
  | arrives (payload : Bytes) (d : AckDecision) (h : slot.applyWrite payload = .ok (d, slot')) :
      RecvTurn ch sh slot slot' [] payload []
  | takes (want : ℕ) (out : Bytes) (hacks : sh.hasEnded = true ∨ slot.takeAcks want = false)
      (h : slot.takeBuffered want = .ok (some (out, slot'))) : RecvTurn ch sh slot slot' out [] []
  | settles (want : ℕ) (ack : PendingAck) (h : slot.settleTake want = some (ack, slot')) :
      RecvTurn ch sh slot slot' [] [] [ack]
  /-- The OKAY is another channel's. -/
  | elsewhere (idx : ℕ) (other : ChannelSlot) (ack : PendingAck) (hat : sh.channels.at? idx = some other)
      (hidx : ch.slot ≠ idx) (hids : other.ids = some ack.ids) (hsame : slot' = slot) :
      RecvTurn ch sh slot slot' [] [] [ack]

/-- The table is left alone and nothing is said of the channel. -/
structure Still (ch : ChannelId) (sh sh' : Shared) : Prop where
  channels : sh'.channels = sh.channels
  trace : ∃ obs, sh'.trace = sh.trace ++ obs ∧ Silent ch obs

/-- One turn of the channel, if it is there before and after. -/
def Flows [Usize] (ch : ChannelId) (sh sh' : Shared) : Prop :=
  ∃ obs, sh'.trace = sh.trace ++ obs ∧ ∀ slot slot', sh.channels.get ch = some slot → sh'.channels.get ch = some slot' →
    RecvTurn ch sh slot slot' (readOf ch obs) (arrivedOf ch obs) (settledOf obs)

/-! ## The shared operations -/

section Frame

variable {ch : ChannelId} {sh sh' sh'' : Shared}

namespace Still

theorem same (hc : sh'.channels = sh.channels) (ht : sh'.trace = sh.trace) : Still ch sh sh' :=
  ⟨hc, [], by rw [ht, List.append_nil], rfl, rfl, rfl⟩

theorem refl (sh : Shared) : Still ch sh sh := same rfl rfl

theorem trans (h : Still ch sh sh') (h' : Still ch sh' sh'') : Still ch sh sh'' := by
  obtain ⟨obs, htr, hobs⟩ := h.trace
  obtain ⟨obs', htr', hobs'⟩ := h'.trace
  refine ⟨h'.channels.trans h.channels, obs ++ obs', by rw [htr', htr, List.append_assoc], ?_, ?_, ?_⟩
  · rw [readOf_append, hobs.read, hobs'.read, List.append_nil]
  · rw [arrivedOf_append, hobs.arrived, hobs'.arrived, List.append_nil]
  · rw [settledOf_append, hobs.settled, hobs'.settled, List.append_nil]

theorem note (sh : Shared) {o : Obs} (h : Silent ch [o]) : Still ch sh (sh.note o) := ⟨rfl, [o], rfl, h⟩

theorem release (sh : Shared) : Still ch sh sh.release := by
  unfold Shared.release
  dsimp only
  split_ifs <;> exact same rfl rfl

theorem writeFails (sh : Shared) (e : Error) : Still ch sh (sh.writeFailed e).release := by
  unfold Shared.writeFailed
  split_ifs
  · have hgone : Still ch sh { sh with gone := true } := same rfl rfl
    exact hgone.trans (release _)
  · have hdesync : Still ch sh { sh with desync := true } := same rfl rfl
    exact hdesync.trans (release _)

theorem owe (sh : Shared) (d : Owed) : Still ch sh (sh.owe d) := by
  have hlist : Still ch sh { sh with owed := sh.owed ++ [d], receiveSignal := sh.receiveSignal + 1 } := same rfl rfl
  exact hlist.trans (note _ ⟨rfl, rfl, rfl⟩)

theorem takeIncomingPast {cap : ℕ} {h : Holder} (ht : sh.takeIncomingPast cap = some (h, sh')) : Still ch sh sh' := by
  unfold Shared.takeIncomingPast at ht
  split_ifs at ht
  split at ht
  · cases ht
  · cases ht
    exact same rfl rfl

theorem handOut {h : Holder} (ht : sh.handOut = some (h, sh')) : Still ch sh sh' := by
  obtain ⟨⟨h1, sh1⟩, hin, ⟨⟩⟩ := Option.map_eq_some_iff.mp ht
  exact (takeIncomingPast hin).trans (note _ ⟨rfl, rfl, rfl⟩)

theorem queueIncoming {n : ℕ} {p : PendingOpen} (hq : sh.queueIncoming n p = some sh') : Still ch sh sh' := by
  unfold Shared.queueIncoming at hq
  split_ifs at hq
  cases hq
  exact same rfl rfl

end Still

variable [Usize] {idx : ℕ} {slot slot' : ChannelSlot}

theorem Still.flows (h : Still ch sh sh') : Flows ch sh sh' := by
  obtain ⟨obs, htr, hobs⟩ := h.trace
  refine ⟨obs, htr, fun slot slot' hget hget' => ?_⟩
  rw [h.channels, hget] at hget'
  cases hget'
  rw [hobs.read, hobs.arrived, hobs.settled]
  exact .rests (.refl slot)

namespace Flows

theorem same (hc : sh'.channels = sh.channels) (ht : sh'.trace = sh.trace) : Flows ch sh sh' := (Still.same hc ht).flows

theorem refl (sh : Shared) : Flows ch sh sh := same rfl rfl

theorem still (h : Flows ch sh sh') (h' : Still ch sh' sh'') : Flows ch sh sh'' := by
  obtain ⟨obs, htr, hturn⟩ := h
  obtain ⟨obs', htr', hobs'⟩ := h'.trace
  refine ⟨obs ++ obs', by rw [htr', htr, List.append_assoc], fun slot slot' hget hget' => ?_⟩
  rw [readOf_append, arrivedOf_append, settledOf_append, hobs'.read, hobs'.arrived, hobs'.settled, List.append_nil,
    List.append_nil, List.append_nil]
  exact hturn slot slot' hget (h'.channels ▸ hget')

/-- The channel was not there, or is not there any more. -/
theorem absent (ht : sh'.trace = sh.trace) (h : sh.channels.get ch = none ∨ sh'.channels.get ch = none) :
    Flows ch sh sh' := by
  refine ⟨[], by rw [ht, List.append_nil], fun slot slot' hget hget' => ?_⟩
  rcases h with h | h
  · cases h.symm.trans hget
  · cases h.symm.trans hget'

/-- A slot is put in the place of another with its id, the channel's own or not. -/
theorem put_of {o : List Obs} (hat : sh.channels.at? idx = some slot) (hid : slot'.localId = slot.localId)
    (hown : ch.slot = idx → ch.localId = slot.localId →
      RecvTurn ch sh slot slot' (readOf ch o) (arrivedOf ch o) (settledOf o))
    (hother : ch.slot ≠ idx → ∀ s, RecvTurn ch sh s s (readOf ch o) (arrivedOf ch o) (settledOf o))
    (hc : sh'.channels = sh.channels.put idx (some slot')) (ht : sh'.trace = sh.trace ++ o) : Flows ch sh sh' := by
  refine ⟨o, ht, fun s s' hget hget' => ?_⟩
  rw [hc, get_put hat hid, hget] at hget'
  split_ifs at hget' with hidx
  · cases hget'
    obtain ⟨hats, hlocal⟩ := get_eq_some.mp hget
    rw [hidx] at hats
    cases hat.symm.trans hats
    exact hown hidx hlocal.symm
  · cases hget'
    exact hother hidx s

theorem put (hat : sh.channels.at? idx = some slot) (h : slot.Rests slot') :
    Flows ch sh { sh with channels := sh.channels.put idx (some slot') } :=
  put_of (o := []) hat h.id (fun _ _ => .rests h) (fun _ s => .rests (.refl s)) rfl (List.append_nil _).symm

/-- A free slot is taken: if the channel was there, it is another one's. -/
theorem fill {ch' : ChannelId} {t : ChannelTable} (h : sh.channels.allocate = some (ch', t)) (s : ChannelSlot) :
    Flows ch sh { sh with channels := t.put ch'.slot (some s) } := by
  refine ⟨[], (List.append_nil _).symm, fun slot slot' hget hget' => ?_⟩
  cases (get_filled h hget (some s)).symm.trans hget'
  exact .rests (.refl slot)

/-- A slot is freed: the channel's own, or another one. -/
theorem freed (sh : Shared) (ch' : ChannelId) : Flows ch sh { sh with channels := sh.channels.freed ch' } := by
  by_cases hown : ch.slot = ch'.slot ∧ (sh.channels.get ch').isSome = true
  · exact absent rfl (.inr (by rw [get_freed, if_pos hown]))
  · refine ⟨[], (List.append_nil _).symm, fun slot slot' hget hget' => ?_⟩
    rw [get_freed, if_neg hown, hget] at hget'
    cases hget'
    exact .rests (.refl slot)

theorem dropSlot (sh : Shared) (ch' : ChannelId) : Flows ch sh (sh.dropSlot ch') := by
  unfold Shared.dropSlot
  split
  · exact .refl sh
  · rename_i slot channels hfree
    have hchannels : sh.channels.freed ch' = channels := by rw [ChannelTable.freed, hfree]
    have hfreed : Flows ch sh { sh with channels := channels } := hchannels ▸ freed sh ch'
    dsimp only
    split
    · exact hfreed.still (.owe _ _)
    · exact hfreed

theorem withdrawOpen (sh : Shared) (remote : RemoteId) : Flows ch sh (sh.withdrawOpen remote) := by
  unfold Shared.withdrawOpen
  split
  · rename_i idx channels hclose
    obtain ⟨slot, hat, -, rfl⟩ := closeRemote_spec hclose
    exact (put hat (.close slot)).still (.same rfl rfl)
  · exact .same rfl rfl

theorem dropCredit (sh : Shared) (ch' : ChannelId) (n : ℕ) (committed : Bool) :
    Flows ch sh (sh.dropCredit ch' n committed) := by
  unfold Shared.dropCredit
  cases hget : sh.channels.get ch' with
  | none => cases committed <;> exact .same rfl rfl
  | some slot =>
    have hat := (get_eq_some.mp hget).1
    cases committed with
    | true => exact put hat (.queue slot _)
    | false => exact (put hat (.refund slot slot.sendQueue.finish n)).still (.same rfl rfl)

theorem leaveQueue (sh : Shared) (ch' : ChannelId) (place : ℕ) : Flows ch sh (sh.leaveQueue ch' place) := by
  unfold Shared.leaveQueue
  split
  · rename_i slot hget
    have hput : ∀ q, Flows ch sh { sh with channels := sh.channels.put ch'.slot (some { slot with sendQueue := q }) } :=
      fun q => put (get_eq_some.mp hget).1 (.queue slot q)
    dsimp only
    split_ifs
    · exact (hput _).still (.same rfl rfl)
    · exact hput _
  · exact .refl sh

theorem failChannel (sh : Shared) (idx : ℕ) (ids : ChannelIds) (fault : ChannelFault) :
    Flows ch sh (sh.failChannel idx ids fault) := by
  unfold Shared.failChannel
  split
  · rename_i slot hget
    exact (put (get_eq_some.mp hget).1 (.fail slot fault)).still (.same rfl rfl)
  · exact .refl sh

/-- A read takes from the front, and it says so. -/
theorem takes {ch' : ChannelId} {want : ℕ} {out : Bytes} (hget : sh.channels.get ch' = some slot)
    (hacks : sh.hasEnded = true ∨ slot.takeAcks want = false)
    (htake : slot.takeBuffered want = .ok (some (out, slot'))) :
    Flows ch sh ({ sh with channels := sh.channels.put ch'.slot (some slot') }.note (.read ch' out)) := by
  obtain ⟨hat, hlocal⟩ := get_eq_some.mp hget
  obtain ⟨-, -, hle, hslot'⟩ := ChannelSlot.takeBuffered_some htake
  refine put_of (o := [.read ch' out]) hat (by rw [hslot']) (fun hidx hid => ?_) (fun hidx s => ?_) rfl rfl
  · have hch : ch' = ch := congrArg₂ ChannelId.mk hidx.symm (hlocal.symm.trans hid.symm)
    have hread : readOf ch [.read ch' out] = out := by simp [readOf, Obs.read?, hch]
    rw [hread]
    exact .takes want out hacks htake
  · have hne : ch' ≠ ch := fun heq => hidx (by rw [heq])
    have hread : readOf ch [.read ch' out] = [] := by simp [readOf, Obs.read?, hne]
    rw [hread]
    exact .rests (.refl s)

/-- The table takes a WRTE. -/
theorem arrives {pkt : Packet} {outcome : DispatchOutcome} {d : AckDecision}
    (hidx : sh.channels.slotOf pkt.arg1 = some idx) (hat : sh.channels.at? idx = some slot)
    (happly : slot.applyWrite pkt.data = .ok (d, slot'))
    (houtcome : outcome = .dataBuffered idx ∨ ∃ ack, outcome = .ackWrite idx ack) :
    Flows ch sh ({ sh with channels := sh.channels.put idx (some slot') }.note (.received pkt outcome)) := by
  obtain ⟨slot1, hat1, hraw⟩ := slotOf_spec hidx
  cases hat.symm.trans hat1
  have harrived : (Obs.received pkt outcome).arrived? ch =
      if idx = ch.slot ∧ pkt.arg1 = ch.localId.raw then some pkt.data else none := by
    rcases houtcome with rfl | ⟨ack, rfl⟩ <;> rfl
  have hid : slot'.localId = slot.localId := by
    obtain ⟨-, hle, ⟨-, rfl, -⟩ | ⟨ids, -, -, rfl, -⟩⟩ := ChannelSlot.applyWrite_ok happly <;> rfl
  refine put_of (o := [.received pkt outcome]) hat hid (fun hown hlocal => ?_) (fun hother s => ?_) rfl rfl
  · have harrivedOf : arrivedOf ch [.received pkt outcome] = pkt.data := by
      rw [if_pos ⟨hown.symm, by rw [hlocal, hraw]⟩] at harrived
      simp [arrivedOf, harrived]
    rw [harrivedOf]
    exact .arrives pkt.data d happly
  · have harrivedOf : arrivedOf ch [.received pkt outcome] = [] := by
      rw [if_neg fun hboth => hother hboth.1.symm] at harrived
      simp [arrivedOf, harrived]
    rw [harrivedOf]
    exact .rests (.refl s)

/-- `acknowledge_take` decides on an OKAY, the channel's own or another one's. -/
theorem settles {ch' : ChannelId} {want : ℕ} {ack : PendingAck} (h : Use.settled sh ch' want = some (ack, sh')) :
    Flows ch sh sh' := by
  obtain ⟨slot, slot', hget, hsettle, rfl⟩ := Use.settled_some h
  obtain ⟨hat, -⟩ := get_eq_some.mp hget
  obtain ⟨-, hids, -, hslot'⟩ := ChannelSlot.settleTake_some hsettle
  exact put_of (o := [.settled ack]) hat (by rw [hslot']) (fun _ _ => .settles want ack hsettle)
    (fun hidx s => .elsewhere ch'.slot slot ack hat hidx hids rfl) rfl rfl

end Flows

end Frame

/-! ## Every step -/

section Steps

variable [Usize] {ng : Negotiated} {ch : ChannelId} {sh sh' : Shared} {use : Option Use}

theorem WriteCall.Moves.flows {c c' : WriteCall} (h : c.Moves ng sh c' use sh') : Flows ch sh sh' := by
  cases h with
  | joins slot place sendQueue hpc hget => exact .put (get_eq_some.mp hget).1 (.queue slot _)
  | reserves place gen n sh' hpc hres =>
    unfold WriteCall.tryReserve at hres
    split at hres
    · cases hres
    · rename_i slot hget
      split_ifs at hres
      · cases hres
      split at hres
      · cases hres
      · rename_i n1 slot1 hres1
        cases hres
        have hput : Flows ch sh _ := .put (get_eq_some.mp hget).1 (.reserves hres1 slot1.sendQueue.serve)
        split_ifs
        · exact hput.still (.same rfl rfl)
        · exact hput
  | leaves => exact .leaveQueue sh _ _
  | commits | refunds => exact .dropCredit sh _ _ _
  | _ => exact .refl sh

theorem CloseCall.Moves.flows {c c' : CloseCall} (h : c.Moves sh c' use sh') : Flows ch sh sh' := by
  cases h with
  | idle | locks => exact .refl sh
  | owes ids hpc =>
    have hwake : Still ch sh (sh.wake c.ch.slot) := .same rfl rfl
    exact (hwake.trans (.owe _ _)).flows
  | frees ids hpc hids => exact .freed sh c.ch

theorem TakePc.Moves.flows {ch' : ChannelId} {want : ℕ} {pc : TakePc} {next : TakeNext}
    (h : TakePc.Moves ch' want sh pc next use sh') : Flows ch sh sh' := by
  cases h with
  | takes slot slot' out hget hacks htake => exact .takes hget hacks htake
  | _ => exact .refl sh

theorem ReadCall.Moves.flows {c c' : ReadCall} (h : c.Moves sh c' use sh') : Flows ch sh sh' := by
  cases h with
  | noSlot | dead => exact (Still.note sh ⟨rfl, rfl, rfl⟩).flows
  | takes pc pc' use sh' hpc hm => exact hm.flows
  | fails pc e use sh1 hpc hm => exact hm.flows.still (.note _ ⟨rfl, rfl, rfl⟩)
  | empty pc use sh' hpc hm => exact hm.flows
  | returns pc out use sh' hpc hm => exact hm.flows
  | _ => exact .refl sh

theorem takeSlot_flows {destination : Bytes} {ch' : ChannelId} {u : Use}
    (h : takeSlot ng destination sh = .ok (ch', u, sh')) : Flows ch sh sh' := by
  unfold takeSlot at h
  split at h
  · cases h
  · rename_i ch1 channels halloc
    cases h
    exact .fill halloc _

theorem OpenCall.Moves.flows {c c' : OpenCall} (h : c.Moves ng sh c' use sh') : Flows ch sh sh' := by
  cases h with
  | idle | waits => exact .refl sh
  | takes ch1 u sh' hpc htake => exact takeSlot_flows htake
  | opened => exact (Still.note sh ⟨rfl, rfl, rfl⟩).flows
  | unguards => exact .dropSlot sh _

theorem HolderCall.Moves.flows {c c' : HolderCall} (h : c.Moves ng sh c' use sh') : Flows ch sh sh' := by
  cases h with
  | reserves pending ch1 channels hpc hp hflag halloc => exact .fill halloc _
  | frees r ch1 hpc hr => exact .freed sh ch1
  | ends | returns => exact .same rfl rfl
  | _ => exact .refl sh

omit [Usize] in
theorem ListenCall.Moves.still {c c' : ListenCall} (h : c.Moves sh c' use sh') : Still ch sh sh' := by
  cases h with
  | idle => exact .refl sh
  | takes h sh' hpc hout => exact .handOut hout

namespace ReaderTask

variable {c c' : ReaderTask} {pkt : Packet}

omit [Usize] in
theorem Says.still (h : c.Says sh sh') : Still ch sh sh' := by
  rcases h with rfl | ⟨ch', want, e, -, rfl⟩
  · exact .refl _
  · exact .note sh ⟨rfl, rfl, rfl⟩

theorem dispatch_flows (c : ReaderTask) (sh : Shared) : Flows ch sh (c.dispatch pkt sh).2.2 := by
  have hd := dispatch_spec sh.channels pkt
  unfold ReaderTask.dispatch
  generalize sh.channels.dispatch pkt = r at hd ⊢
  obtain ⟨outcome, t'⟩ := r
  dsimp only at hd ⊢
  obtain ⟨hc, ht⟩ := c.actOn_shared outcome ({ sh with channels := t' }.note (.received pkt outcome))
  refine Flows.still ?_ (.same hc ht)
  -- everything but a WRTE the table takes leaves the unread bytes of every slot
  have hkeeps : ∀ {idx : ℕ} {slot slot' : ChannelSlot} {outcome : DispatchOutcome}, sh.channels.at? idx = some slot →
      slot.Rests slot' → Silent ch [.received pkt outcome] →
      Flows ch sh ({ sh with channels := sh.channels.put idx (some slot') }.note (.received pkt outcome)) :=
    fun hat hrests hsilent => (Flows.put hat hrests).still (.note _ hsilent)
  cases hd with
  | acks idx slot slot' ack hcmd hidx hat hfailed happly => exact .arrives hidx hat happly (.inr ⟨ack, rfl⟩)
  | buffers idx slot slot' hcmd hidx hat hfailed happly => exact .arrives hidx hat happly (.inl rfl)
  | closesRemote idx slot hcmd hzero hat hremote | closes idx slot hcmd hidx hat =>
    exact hkeeps hat (.close slot) ⟨rfl, rfl, rfl⟩
  | accepts idx slot slot' hcmd hidx hat hfailed hstate happly => exact hkeeps hat (.accepts happly) ⟨rfl, rfl, rfl⟩
  | grants idx slot slot' hcmd hidx hat hfailed hstate happly => exact hkeeps hat (.grants happly) ⟨rfl, rfl, rfl⟩
  | _ => exact (Still.note sh ⟨rfl, rfl, rfl⟩).flows

theorem openReady_flows (c : ReaderTask) {g : ChannelId} : Flows ch sh (c.openReady g pkt sh).2.2 := by
  unfold openReady
  split
  · exact ((Still.note sh ⟨rfl, rfl, rfl⟩).trans (.note _ ⟨rfl, rfl, rfl⟩)).flows
  · rename_i slot hget
    split
    · rename_i slot' happly
      have hput : Flows ch sh _ := .put (get_eq_some.mp hget).1 (.accepts happly)
      exact (hput.still (.note _ ⟨rfl, rfl, rfl⟩)).still (.note _ ⟨rfl, rfl, rfl⟩)
    · exact (Still.note sh ⟨rfl, rfl, rfl⟩).flows

theorem receive_flows (c : ReaderTask) : Flows ch sh (c.receive pkt sh).2.2 := by
  unfold ReaderTask.receive
  split
  · split_ifs
    · exact c.openReady_flows
    · exact ((Still.note sh ⟨rfl, rfl, rfl⟩).trans (Says.leave c .channelClosed _).still).flows
    · exact c.dispatch_flows sh
  · exact c.dispatch_flows sh

theorem Moves.flows (h : c.Moves ng sh c' use sh') : Flows ch sh sh' := by
  cases h with
  | plain c' use sh' hl hl' huse hsaid hpast => exact hsaid.still.flows
  | ends e sh' hpc hsaid =>
    have hend : Still ch sh sh.endStream := .same rfl rfl
    exact (hend.trans hsaid.still).flows
  | allocates destination ch1 u sh' hpc htake hcall => exact takeSlot_flows htake
  | takes ch1 want pc pc' d use sh' hcall hpc h => exact h.flows
  | taken ch1 want pc d r sh1 hcall hpc h => exact h.flows.still (c.taken_said d r sh1).2.2.still
  | drains h sh' hpc htake | refuses h sh' hpc htake => exact (Still.takeIncomingPast htake).flows
  | handsOut h sh' hpc hcall htake => exact (Still.handOut htake).flows
  | inner h h' pc' use sh' hpc hpc' hm => exact hm.flows
  | refused h r c' sh' hpc hdone hl' hsaid hpast => exact hsaid.still.flows
  | received pkt hpc => exact c.receive_flows
  | fails idx ids fault after hpc => exact .failChannel sh idx ids fault
  | owes d after hpc => exact (Still.owe sh d).flows
  | queues pending sh' hpc hq => exact (Still.queueIncoming hq).flows
  | stages pending hpc => exact .same rfl rfl
  | withdraws remote hpc => exact .withdrawOpen sh remote
  | unguards ch1 hpc hguard => exact .dropSlot sh ch1
  | stops hpc => exact .same rfl rfl
  | _ => exact .refl sh

end ReaderTask

theorem Use.Moves.flows {u : Use} {i : ℕ} {a : Act} {next : UseNext} (h : u.Moves ng i sh a next sh') :
    Flows ch sh sh' := by
  cases h with
  | acquire =>
    have hlock : Still ch sh { sh with writeHalf := some i } := .same rfl rfl
    exact (hlock.trans (.note _ ⟨rfl, rfl, rfl⟩)).flows
  | noDebt => exact .refl sh
  | debtGone | debtFailed => exact .same rfl rfl
  | debtRefused => exact (Still.release sh).flows
  | popped d hpc =>
    have hpop : Still ch sh { sh with owed := sh.owed.tail } := .same rfl rfl
    exact (hpop.trans (.note _ ⟨rfl, rfl, rfl⟩)).flows
  | forgiven hpc =>
    have hclear : Still ch sh { sh with owed := [] } := .same rfl rfl
    exact (hclear.trans (.note _ ⟨rfl, rfl, rfl⟩)).flows
  | flushed pkt hpc => exact ((Still.note (o := .flushed false pkt) sh ⟨rfl, rfl, rfl⟩).trans (.release _)).flows
  | failed pkt whole e hpc => exact (Still.writeFails sh e).flows
  | own _ _ hpc hown =>
    cases hown with
    | begun => exact (Still.note sh ⟨rfl, rfl, rfl⟩).flows
    | okay ch' want ack sh1 hjob hsettled hok => exact (Flows.settles hsettled).still (.note _ ⟨rfl, rfl, rfl⟩)
    | release | refused => exact (Still.release sh).flows
    | settled ch' want ack sh1 hjob hsettled => exact (Flows.settles hsettled).still (.release _)
  | debtBegun | debtWritten | debtFlushed | written => exact (Still.note sh ⟨rfl, rfl, rfl⟩).flows

omit [Usize] in
theorem Use.drop_still {u : Use} (h : u.drop sh = some sh') : Still ch sh sh' := by
  unfold Use.drop at h
  split at h
  · cases h
    exact .refl sh
  · cases h
    exact .same rfl rfl
  · cases h
    exact .same rfl rfl
  · cases h

theorem Ctl.Moves.flows {ctl ctl' : Ctl} (h : Ctl.Moves ng sh ctl ctl' use sh') : Flows ch sh sh' := by
  cases h with
  | write c c' use sh' hm => exact hm.flows
  | close c c' use sh' hm => exact hm.flows
  | read c c' use sh' hm => exact hm.flows
  | «open» c c' use sh' hm => exact hm.flows
  | holder c c' use sh' hm => exact hm.flows
  | listen c c' use sh' hm => exact hm.still.flows
  | reader c c' use sh' hm => exact hm.flows

omit [Usize] in
theorem Ctl.resume_still (ctl : Ctl) (r : Option Error) (sh : Shared) : Still ch sh (ctl.resume r sh).2 := by
  cases ctl with
  | reader c => exact (c.resume_resumes r sh).2.still
  | _ => exact .refl sh

theorem Task.Moves.flows {t t' : Task} {i : ℕ} {e : Event} (h : t.Moves ng i sh e t' sh') : Flows ch sh sh' := by
  cases h with
  | ctl a ctl' use' sh' hu h => exact h.flows
  | more u a u' sh' hu h => exact h.flows
  | ended u a r sh1 hu h => exact h.flows.still (t.ctl.resume_still r sh1)
  | cancel u ctl' sh' hu hc hd => exact (Use.drop_still hd).flows
  | drop u ctl' sh' hu hc hd => exact (Use.drop_still hd).flows
  | _ => exact .refl sh

/-- A turn moves bytes from the end of what arrived to the front of what is read. -/
theorem RecvTurn.bytes {slot slot' : ChannelSlot} {read arrived : Bytes} {acks : List PendingAck}
    (h : RecvTurn ch sh slot slot' read arrived acks) : read ++ slot'.rxBuf = slot.rxBuf ++ arrived := by
  cases h with
  | rests hrests => rw [hrests.rx, List.nil_append, List.append_nil]
  | arrives payload d happly =>
    obtain ⟨-, hle, ⟨-, rfl, -⟩ | ⟨ids, -, -, rfl, -⟩⟩ := ChannelSlot.applyWrite_ok happly <;> rfl
  | takes want out hacks htake =>
    obtain ⟨-, rfl, hle, rfl⟩ := ChannelSlot.takeBuffered_some htake
    rw [List.append_nil]
    exact List.take_append_drop _ _
  | settles want ack hsettle =>
    obtain ⟨-, -, -, rfl⟩ := ChannelSlot.settleTake_some hsettle
    rw [List.nil_append, List.append_nil]
  | elsewhere idx other ack hat hidx hids hsame => rw [hsame, List.nil_append, List.append_nil]

end Steps

/-- Whether the channel is there. -/
def State.keeps (ch : ChannelId) (s : State) (_ : Event) : Bool := (s.sh.channels.get ch).isSome

section Credit

variable [Usize] {ch : ChannelId} {sh : Shared}

/-- A turn of a live channel gives back the credit of what it settles, and nothing else. -/
theorem RecvTurn.credit {slot slot' : ChannelSlot} {read arrived : Bytes} {acks : List PendingAck}
    (h : RecvTurn ch sh slot slot' read arrived acks) (hdist : sh.channels.DistinctLocalIds)
    (hended : sh.hasEnded = false) (hget : sh.channels.get ch = some slot) (hlevel : slot.Level)
    (hlive : slot'.state ≠ .closed) (hfits : slot'.rxBuf.length ≤ usizeMax) :
    slot'.Level ∧ creditFor ch acks + slot.settled = read.length + slot'.settled := by
  obtain ⟨hat, hlocal⟩ := get_eq_some.mp hget
  cases h with
  | rests hrests => exact ⟨hlevel.rest hrests hlive, by rw [hrests.settled]; rfl⟩
  | arrives payload d happly =>
    obtain ⟨hlevel', hsettled⟩ := hlevel.write happly hfits
    exact ⟨hlevel', by rw [hsettled]; rfl⟩
  | takes want out hacks htake =>
    have hno : slot.takeAcks want = false := hacks.resolve_left (by rw [hended]; exact Bool.false_ne_true)
    obtain ⟨hlevel', hsettled⟩ := hlevel.take hno htake
    exact ⟨hlevel', by rw [hsettled]; exact Nat.zero_add _⟩
  | settles want ack hsettle =>
    obtain ⟨hlevel', hzero, hsettled⟩ := hlevel.settle hsettle
    obtain ⟨-, hids, -⟩ := ChannelSlot.settleTake_some hsettle
    obtain ⟨remote, -, hids'⟩ := Option.map_eq_some_iff.mp hids
    have hown : ack.ids.localId = ch.localId := by rw [← hids', hlocal]
    refine ⟨hlevel', ?_⟩
    rw [hzero, hsettled]
    simp [creditFor, hown]
  | elsewhere idx other ack hother hidx hids hsame =>
    subst hsame
    obtain ⟨remote, -, hids'⟩ := Option.map_eq_some_iff.mp hids
    have hnot : ack.ids.localId ≠ ch.localId := fun heq =>
      hidx (hdist _ _ _ _ hat hother (by rw [hlocal, ← heq, ← hids']))
    refine ⟨hlevel, ?_⟩
    simp [creditFor, hnot]

end Credit

end Split

end LibAdb
