import LibAdb.Base.Connection

/-!
# LibAdb.Base.Observed — what a channel's WRTEs have to keep

One channel of a connection, from the moment it is open, and the log of everything received and written since.
`Allowed` is what a WRTE on the channel needs from the log before it: its size, the window or the turn, and that no
CLSE for the channel was received.  `Inv` ties the table to the log, so that what `write_channel` reads in the slot is
what the log allows; this module says what keeps it, packet by packet.

A packet is given to a channel by the ids in it.  `Inv` therefore holds of tables in which no other slot has the ids
of the channel, and `Spares` is what the device has to do for its own.
-/

namespace LibAdb

/-- An open channel: its handle and ids, the connection's mode and limit, and the credit it was opened with. -/
structure Observed where
  ch : ChannelId
  ids : ChannelIds
  mode : AckMode
  limit : ℕ
  credit : ℕ
  localId_eq : ids.localId = ch.localId
  local_ne : ids.localId.raw ≠ 0
  remote_ne : ids.remote.raw ≠ 0

namespace Observed

variable (w : Observed)

/-! ## The log -/

/-- A WRTE on the channel. -/
def isWrite : Event → Bool
  | .wrote pkt => pkt.command == .write && pkt.arg0 == w.ids.localId.raw
  | .received _ => false

/-- A READY for the channel. -/
def isReady : Event → Bool
  | .received pkt => pkt.command == .ready && pkt.arg1 == w.ids.localId.raw
  | .wrote _ => false

/-- A CLSE for the channel. -/
def isClose : Event → Bool
  | .received pkt => w.ids.closedBy pkt
  | .wrote _ => false

def payload : Event → Bytes
  | .wrote pkt => if w.isWrite (.wrote pkt) then pkt.data else []
  | .received _ => []

def grant : Event → ℕ
  | .received pkt => if w.isReady (.received pkt) then AckMode.delayed.grant pkt.data else 0
  | .wrote _ => 0

/-- The bytes written on the channel. -/
def written (log : List Event) : Bytes := log.flatMap w.payload

/-- The credit granted to the channel since it was opened. -/
def granted (log : List Event) : ℕ := (log.map w.grant).sum

/-- Every WRTE on the channel has a READY after it. -/
def Answered (log : List Event) : Prop :=
  ∀ before e after, log = before ++ e :: after → w.isWrite e = true → ∃ r ∈ after, w.isReady r = true

/-- What a WRTE needs from the log before it. -/
structure Allowed (before : List Event) (pkt : Packet) : Prop where
  size : pkt.data.length ≤ max w.limit 1
  window : w.mode = .delayed → (w.written before).length + pkt.data.length ≤ w.credit + w.granted before
  turn : w.mode = .classic → w.Answered before
  unclosed : ∀ e ∈ before, w.isClose e = false

/-- Every WRTE on the channel was allowed when it was written. -/
def Kept (log : List Event) : Prop :=
  ∀ before pkt after, log = before ++ .wrote pkt :: after → w.isWrite (.wrote pkt) = true → w.Allowed before pkt

/-- A packet that does not give the device's id of the channel to another one. -/
def Spares (pkt : Packet) : Prop :=
  (pkt.command = .«open» → pkt.arg0 ≠ w.ids.remote.raw) ∧
    (pkt.command = .ready → pkt.arg0 = w.ids.remote.raw → pkt.arg1 = w.ids.localId.raw)

variable {w} {log : List Event} {e : Event} {pkt : Packet}

@[simp] theorem written_received (log : List Event) (pkt : Packet) :
    w.written (log ++ [.received pkt]) = w.written log := by
  simp [written, payload]

theorem written_wrote (h : w.isWrite (.wrote pkt) = true) :
    w.written (log ++ [.wrote pkt]) = w.written log ++ pkt.data := by
  simp [written, payload, h]

theorem written_other (h : w.isWrite (.wrote pkt) = false) : w.written (log ++ [.wrote pkt]) = w.written log := by
  simp [written, payload, h]

theorem granted_append (log log' : List Event) : w.granted (log ++ log') = w.granted log + w.granted log' := by
  simp [granted]

@[simp] theorem granted_wrote (log : List Event) (pkt : Packet) :
    w.granted (log ++ [.wrote pkt]) = w.granted log := by
  simp [granted, grant]

theorem granted_le (log : List Event) (e : Event) : w.granted log ≤ w.granted (log ++ [e]) := by
  rw [granted_append]
  exact Nat.le_add_right _ _

/-- The last event, or one before it. -/
theorem snoc_split {α : Type} {xs before after : List α} {x y : α} (h : xs ++ [y] = before ++ x :: after) :
    (after = [] ∧ xs = before ∧ y = x) ∨ ∃ after', after = after' ++ [y] ∧ xs = before ++ x :: after' := by
  rcases List.eq_nil_or_concat after with rfl | ⟨after', z, rfl⟩
  · obtain ⟨hxs, hy⟩ := List.append_inj' h rfl
    exact .inl ⟨rfl, hxs, by simpa using hy⟩
  · have h' : xs ++ [y] = (before ++ x :: after') ++ [z] := by simpa using h
    obtain ⟨hxs, hy⟩ := List.append_inj' h' rfl
    cases hy
    exact .inr ⟨after', by simp, hxs⟩

theorem Answered.snoc (h : w.Answered log) (he : w.isWrite e = false) : w.Answered (log ++ [e]) := by
  intro before x after hsplit hx
  rcases snoc_split hsplit with ⟨-, -, rfl⟩ | ⟨after', rfl, hlog⟩
  · rw [he] at hx
    cases hx
  · obtain ⟨r, hr, hready⟩ := h before x after' hlog hx
    exact ⟨r, List.mem_append_left _ hr, hready⟩

theorem answered_of_ready (he : w.isReady e = true) : w.Answered (log ++ [e]) := by
  intro before x after hsplit hx
  rcases snoc_split hsplit with ⟨-, -, rfl⟩ | ⟨after', rfl, -⟩
  · cases e with
    | received pkt => cases hx
    | wrote pkt => cases he
  · exact ⟨e, by simp, he⟩

theorem Kept.snoc (h : w.Kept log)
    (he : ∀ pkt, e = .wrote pkt → w.isWrite (.wrote pkt) = true → w.Allowed log pkt) : w.Kept (log ++ [e]) := by
  intro before pkt after hsplit hpkt
  rcases snoc_split hsplit with ⟨-, rfl, heq⟩ | ⟨after', -, hlog⟩
  · exact he pkt heq hpkt
  · exact h before pkt after' hlog hpkt

/-! ## The slot -/

/-- What the slot says, against the log. -/
structure SlotKept (w : Observed) (slot : ChannelSlot) (log : List Event) : Prop where
  ids : slot.ids = some w.ids
  mode : slot.policy.ack = w.mode
  closed : ∀ e ∈ log, w.isClose e = true → slot.isClosed = true

/-- What the slot has left to spend, against the log. -/
structure Paid (w : Observed) (slot : ChannelSlot) (log : List Event) : Prop where
  low : -2 ^ 63 ≤ slot.sendBudget
  window : w.mode = .delayed → ((w.written log).length : ℤ) + slot.sendBudget ≤ w.credit + w.granted log
  turn : w.mode = .classic → slot.wrteAcked = true → w.Answered log

/-- An operation that has nothing to do with sending. -/
structure Calm (s s' : ChannelSlot) : Prop extends ChannelSlot.SendSide s s' where
  remote : s'.remote = s.remote
  closed : s.isClosed = true → s'.isClosed = true

variable {slot slot' : ChannelSlot}

theorem Calm.ids (h : Calm slot slot') : slot'.ids = slot.ids := by
  simp only [ChannelSlot.ids, h.remote, h.localId]

theorem SlotKept.calm (h : SlotKept w slot log) (hc : Calm slot slot') : SlotKept w slot' log :=
  ⟨hc.ids.trans h.ids, hc.policy ▸ h.mode, fun e he hclose => hc.closed (h.closed e he hclose)⟩

theorem Paid.calm (h : Paid w slot log) (hc : Calm slot slot') : Paid w slot' log :=
  ⟨hc.sendBudget ▸ h.low, hc.sendBudget ▸ h.window, hc.wrteAcked ▸ h.turn⟩

/-- A packet arrives that does not touch the slot; a CLSE for the channel found it closed. -/
theorem SlotKept.receive (h : SlotKept w slot log) (hclose : w.ids.closedBy pkt = true → slot.isClosed = true) :
    SlotKept w slot (log ++ [.received pkt]) := by
  refine ⟨h.ids, h.mode, ?_⟩
  intro e he hcl
  rcases List.mem_append.mp he with he | he
  · exact h.closed e he hcl
  · cases List.mem_singleton.mp he
    exact hclose hcl

theorem Paid.receive (h : Paid w slot log) (pkt : Packet) : Paid w slot (log ++ [.received pkt]) := by
  refine ⟨h.low, ?_, fun hm hacked => (h.turn hm hacked).snoc rfl⟩
  intro hm
  have hw := h.window hm
  have hg := granted_le (w := w) log (.received pkt)
  rw [written_received]
  omega

theorem SlotKept.wrote (h : SlotKept w slot log) (pkt : Packet) : SlotKept w slot (log ++ [.wrote pkt]) := by
  refine ⟨h.ids, h.mode, ?_⟩
  intro e he hcl
  rcases List.mem_append.mp he with he | he
  · exact h.closed e he hcl
  · cases List.mem_singleton.mp he
    cases hcl

theorem Paid.other (h : Paid w slot log) (hpkt : w.isWrite (.wrote pkt) = false) :
    Paid w slot (log ++ [.wrote pkt]) := by
  refine ⟨h.low, ?_, fun hm hacked => (h.turn hm hacked).snoc hpkt⟩
  intro hm
  rw [written_other hpkt, granted_wrote]
  exact h.window hm

theorem not_closedBy_of_isReady (h : w.isReady (.received pkt) = true) : w.ids.closedBy pkt = false := by
  simp only [isReady, Bool.and_eq_true, beq_iff_eq] at h
  simp [ChannelIds.closedBy, h.1]

theorem granted_ready (h : w.isReady (.received pkt) = true) :
    w.granted (log ++ [.received pkt]) = w.granted log + AckMode.delayed.grant pkt.data := by
  rw [granted_append]
  simp [granted, grant, h]

/-- A READY for the channel, applied. -/
theorem SlotKept.ready (h : SlotKept w slot log) (hpkt : w.isReady (.received pkt) = true)
    (happly : slot.applyReady pkt.data = .ok slot') : SlotKept w slot' (log ++ [.received pkt]) := by
  have hk : SlotKept w slot (log ++ [.received pkt]) := h.receive (by simp [not_closedBy_of_isReady hpkt])
  obtain ⟨-, rfl⟩ | ⟨-, rfl⟩ := ChannelSlot.applyReady_ok happly
  · exact ⟨hk.ids, hk.mode, hk.closed⟩
  · exact ⟨hk.ids, hk.mode, hk.closed⟩

theorem Paid.ready (h : Paid w slot log) (hmode : slot.policy.ack = w.mode) (hpkt : w.isReady (.received pkt) = true)
    (happly : slot.applyReady pkt.data = .ok slot') : Paid w slot' (log ++ [.received pkt]) := by
  have hlow := h.low
  obtain ⟨hm, rfl⟩ | ⟨hm, rfl⟩ := ChannelSlot.applyReady_ok happly
  · obtain ⟨hle, hge⟩ : wrapI64 (slot.sendBudget + AckMode.delayed.grant pkt.data) ≤ _ ∧ _ := wrapI64_le (by omega)
    refine ⟨hge, ?_, fun hw => ?_⟩
    · intro hw
      have hwindow := h.window hw
      rw [written_received, granted_ready hpkt]
      dsimp only
      omega
    · rw [← hmode, hm] at hw
      cases hw
  · refine ⟨hlow, fun hw => ?_, fun _ _ => answered_of_ready hpkt⟩
    rw [← hmode, hm] at hw
    cases hw

/-! ## The table -/

/-- The connection, against the log. -/
structure Inv (w : Observed) (table : ChannelTable) (incoming : IncomingQueue) (out : Outbound) (log : List Event) :
    Prop where
  next : table.nextLocalId ≠ 0
  opened : ∀ {j other}, table.at? j = some other → other.state ≠ .opening
  nonzero : ∀ {j other}, table.at? j = some other → other.localId.raw ≠ 0
  alone : ∀ {j other}, table.at? j = some other → other.localId = w.ch.localId → j = w.ch.slot
  remote : ∀ {j other}, table.at? j = some other → other.remote = some w.ids.remote → j = w.ch.slot
  queue : ∀ p ∈ incoming, p.remote ≠ w.ids.remote
  slot : ∀ {slot}, table.get w.ch = some slot → SlotKept w slot log ∧ (¬ out.Stuck → Paid w slot log)
  kept : w.Kept log

variable {t : ChannelTable} {incoming : IncomingQueue} {out : Outbound} {idx : ℕ}

namespace Inv

/-- A slot is written back under its ids. -/
theorem put (h : Inv w t incoming out log) (hat : t.at? idx = some slot) (hlocal : slot'.localId = slot.localId)
    (hremote : slot'.remote = slot.remote) (hstate : slot'.state = .opening → slot.state = .opening)
    (hown : t.get w.ch = some slot → SlotKept w slot' log ∧ (¬ out.Stuck → Paid w slot' log)) :
    Inv w (t.put idx (some slot')) incoming out log := by
  refine ⟨h.next, ?_, ?_, ?_, ?_, h.queue, ?_, h.kept⟩
  · intro j other hj hopening
    rcases ChannelTable.at?_put_cases hj with ⟨rfl, heq⟩ | ⟨-, hj⟩
    · cases heq
      exact h.opened hat (hstate hopening)
    · exact h.opened hj hopening
  · intro j other hj
    rcases ChannelTable.at?_put_cases hj with ⟨rfl, heq⟩ | ⟨-, hj⟩
    · cases heq
      rw [hlocal]
      exact h.nonzero hat
    · exact h.nonzero hj
  · intro j other hj hl
    rcases ChannelTable.at?_put_cases hj with ⟨rfl, heq⟩ | ⟨-, hj⟩
    · cases heq
      exact h.alone hat (hlocal.symm.trans hl)
    · exact h.alone hj hl
  · intro j other hj hr
    rcases ChannelTable.at?_put_cases hj with ⟨rfl, heq⟩ | ⟨-, hj⟩
    · cases heq
      exact h.remote hat (hremote.symm.trans hr)
    · exact h.remote hj hr
  · intro s hget
    obtain ⟨hs, hid⟩ := ChannelTable.get_eq_some.mp hget
    rcases ChannelTable.at?_put_cases hs with ⟨rfl, heq⟩ | ⟨-, hs⟩
    · cases heq
      exact hown (ChannelTable.get_eq_some.mpr ⟨hat, hlocal.symm.trans hid⟩)
    · exact h.slot (ChannelTable.get_eq_some.mpr ⟨hs, hid⟩)

theorem put_calm (h : Inv w t incoming out log) (hat : t.at? idx = some slot) (hc : Calm slot slot') :
    Inv w (t.put idx (some slot')) incoming out log :=
  h.put hat hc.localId hc.remote hc.opening fun hget =>
    ⟨(h.slot hget).1.calm hc, fun hlive => ((h.slot hget).2 hlive).calm hc⟩

/-- A slot is filled with another channel. -/
theorem put_other (h : Inv w t incoming out log) (hstate : slot'.state ≠ .opening) (hzero : slot'.localId.raw ≠ 0)
    (hlocal : slot'.localId ≠ w.ch.localId) (hremote : slot'.remote ≠ some w.ids.remote) :
    Inv w (t.put idx (some slot')) incoming out log := by
  refine ⟨h.next, ?_, ?_, ?_, ?_, h.queue, ?_, h.kept⟩
  · intro j other hj
    rcases ChannelTable.at?_put_cases hj with ⟨rfl, heq⟩ | ⟨-, hj⟩
    · cases heq
      exact hstate
    · exact h.opened hj
  · intro j other hj
    rcases ChannelTable.at?_put_cases hj with ⟨rfl, heq⟩ | ⟨-, hj⟩
    · cases heq
      exact hzero
    · exact h.nonzero hj
  · intro j other hj hl
    rcases ChannelTable.at?_put_cases hj with ⟨rfl, heq⟩ | ⟨-, hj⟩
    · cases heq
      exact absurd hl hlocal
    · exact h.alone hj hl
  · intro j other hj hr
    rcases ChannelTable.at?_put_cases hj with ⟨rfl, heq⟩ | ⟨-, hj⟩
    · cases heq
      exact absurd hr hremote
    · exact h.remote hj hr
  · intro s hget
    obtain ⟨hs, hid⟩ := ChannelTable.get_eq_some.mp hget
    rcases ChannelTable.at?_put_cases hs with ⟨rfl, heq⟩ | ⟨-, hs⟩
    · cases heq
      exact absurd hid hlocal
    · exact h.slot (ChannelTable.get_eq_some.mpr ⟨hs, hid⟩)

theorem put_none (h : Inv w t incoming out log) (idx : ℕ) : Inv w (t.put idx none) incoming out log := by
  have hold : ∀ {j other}, (t.put idx none).at? j = some other → t.at? j = some other := by
    intro j other hj
    rcases ChannelTable.at?_put_cases hj with ⟨-, heq⟩ | ⟨-, hj⟩
    · cases heq
    · exact hj
  refine ⟨h.next, fun hj => h.opened (hold hj), fun hj => h.nonzero (hold hj), fun hj => h.alone (hold hj),
    fun hj => h.remote (hold hj), h.queue, ?_, h.kept⟩
  intro s hget
  obtain ⟨hs, hid⟩ := ChannelTable.get_eq_some.mp hget
  exact h.slot (ChannelTable.get_eq_some.mpr ⟨hold hs, hid⟩)

theorem freed (h : Inv w t incoming out log) (c : ChannelId) : Inv w (t.freed c) incoming out log := by
  unfold ChannelTable.freed ChannelTable.free
  cases t.get c with
  | none => exact h
  | some s => exact h.put_none c.slot

theorem allocate {c : ChannelId} {t' : ChannelTable} (h : Inv w t incoming out log) (ha : t.allocate = some (c, t')) :
    Inv w t' incoming out log := by
  obtain ⟨-, -, hslots, -, -⟩ := ChannelTable.allocate_spec ha
  have hat : ∀ j, t'.at? j = t.at? j := by
    intro j
    simp only [ChannelTable.at?, hslots]
  have hnext : t'.nextLocalId ≠ 0 := by
    unfold ChannelTable.allocate at ha
    split at ha
    · cases ha
    · cases ha
      show (if t.nextLocalId + 1 ≤ 1 then (1 : UInt32) else t.nextLocalId + 1) ≠ 0
      split_ifs with hle
      · decide
      · rintro hzero
        rw [hzero] at hle
        exact hle (by decide)
  refine ⟨hnext, fun hj => h.opened (hat _ ▸ hj), fun hj => h.nonzero (hat _ ▸ hj), fun hj => h.alone (hat _ ▸ hj),
    fun hj => h.remote (hat _ ▸ hj), h.queue, ?_, h.kept⟩
  intro s hget
  obtain ⟨hs, hid⟩ := ChannelTable.get_eq_some.mp hget
  exact h.slot (ChannelTable.get_eq_some.mpr ⟨hat _ ▸ hs, hid⟩)

/-- A packet arrives; a CLSE for the channel finds its slot closed. -/
theorem receive (h : Inv w t incoming out log)
    (hclose : w.ids.closedBy pkt = true → ∀ slot, t.get w.ch = some slot → slot.isClosed = true) :
    Inv w t incoming out (log ++ [.received pkt]) := by
  refine ⟨h.next, h.opened, h.nonzero, h.alone, h.remote, h.queue, ?_, h.kept.snoc fun p hp => by cases hp⟩
  intro s hget
  obtain ⟨hk, hp⟩ := h.slot hget
  exact ⟨hk.receive fun hc => hclose hc s hget, fun hlive => (hp hlive).receive pkt⟩

/-- A packet is written that is not a WRTE on the channel. -/
theorem wrote (h : Inv w t incoming out log) (hpkt : w.isWrite (.wrote pkt) = false) :
    Inv w t incoming out (log ++ [.wrote pkt]) := by
  refine ⟨h.next, h.opened, h.nonzero, h.alone, h.remote, h.queue, ?_, h.kept.snoc ?_⟩
  · intro s hget
    obtain ⟨hk, hp⟩ := h.slot hget
    exact ⟨hk.wrote pkt, fun hlive => (hp hlive).other hpkt⟩
  · intro p hp hw
    cases hp
    rw [hpkt] at hw
    cases hw

theorem withOut {out' : Outbound} (h : Inv w t incoming out log) (hstuck : out.Stuck → out'.Stuck) :
    Inv w t incoming out' log :=
  ⟨h.next, h.opened, h.nonzero, h.alone, h.remote, h.queue, fun hget => ⟨(h.slot hget).1,
    fun hlive => (h.slot hget).2 fun hs => hlive (hstuck hs)⟩, h.kept⟩

theorem withIncoming {incoming' : IncomingQueue} (h : Inv w t incoming out log)
    (hq : ∀ p ∈ incoming', p.remote ≠ w.ids.remote) : Inv w t incoming' out log :=
  ⟨h.next, h.opened, h.nonzero, h.alone, h.remote, hq, h.slot, h.kept⟩

end Inv

variable [Usize]

/-! ## Dispatch -/

omit [Usize] in
theorem SlotKept.remote (h : SlotKept w slot log) : slot.remote = some w.ids.remote := by
  have hids := h.ids
  unfold ChannelSlot.ids at hids
  obtain ⟨r, hr, heq⟩ := Option.map_eq_some_iff.mp hids
  rw [hr, ← heq]

/-- A CLSE for the channel closes its slot. -/
theorem Inv.dispatch_closes (h : Inv w t incoming out log) (hclose : w.ids.closedBy pkt = true)
    (hget : t.get w.ch = some slot) : (t.dispatch pkt).2.get w.ch = some slot.applyClose := by
  obtain ⟨hat, hid⟩ := ChannelTable.get_eq_some.mp hget
  have hkept := (h.slot hget).1
  simp only [ChannelIds.closedBy, Bool.and_eq_true, beq_iff_eq, Bool.or_eq_true] at hclose
  obtain ⟨hcmd, hargs⟩ := hclose
  have hput : (t.put w.ch.slot (some slot.applyClose)).get w.ch = some slot.applyClose :=
    ChannelTable.get_put_self hat hid
  unfold ChannelTable.dispatch
  rw [if_neg (by rw [hcmd]; decide), if_neg (by rw [hcmd]; decide)]
  rcases hargs with hlocal | ⟨hzero, hremote⟩
  · have hne : pkt.arg1 ≠ 0 := by
      rw [hlocal]
      exact w.local_ne
    rw [if_neg (fun hc => hne hc.2)]
    have hraw : slot.localId.raw = pkt.arg1 := by rw [hlocal, w.localId_eq, hid]
    obtain ⟨i, hi⟩ := ChannelTable.slotOf_isSome hat
    obtain ⟨other, hother, hoid⟩ := ChannelTable.slotOf_spec hi
    have hi' : i = w.ch.slot := h.alone hother (by rw [← hid]; exact congrArg LocalId.mk hoid)
    subst hi'
    rw [hraw] at hi
    rw [hi]
    dsimp only
    rw [hat]
    dsimp only [ChannelTable.dispatchTo]
    rw [hcmd]
    exact hput
  · rw [if_pos ⟨hcmd, hzero⟩]
    obtain ⟨i, hi⟩ := ChannelTable.slotOfRemote_isSome hat hkept.remote
    obtain ⟨other, hother, hor⟩ := ChannelTable.slotOfRemote_spec hi
    have hi' : i = w.ch.slot := h.remote hother hor
    subst hi'
    have hraw : (⟨pkt.arg0⟩ : RemoteId) = w.ids.remote := by rw [hremote]
    rw [hraw]
    unfold ChannelTable.closeRemote
    rw [if_neg w.remote_ne, hi]
    dsimp only
    rw [hat]
    exact hput

omit [Usize] in
theorem Calm.applyClose (slot : ChannelSlot) : Calm slot slot.applyClose :=
  { ChannelSlot.SendSide.applyClose slot with remote := rfl, closed := fun _ => rfl }

theorem Calm.applyWrite {d : AckDecision} {payload : Bytes} (h : slot.applyWrite payload = .ok (d, slot')) :
    Calm slot slot' := by
  have hside := ChannelSlot.SendSide.applyWrite h
  obtain ⟨-, hle, ⟨-, rfl, -⟩ | ⟨ids, -, -, rfl, -⟩⟩ := ChannelSlot.applyWrite_ok h
  · exact { hside with remote := rfl, closed := id }
  · exact { hside with remote := rfl, closed := id }

omit [Usize] in
theorem Calm.settleTake {want : ℕ} {a : PendingAck} (h : slot.settleTake want = some (a, slot')) :
    Calm slot slot' := by
  have hside := ChannelSlot.SendSide.settleTake h
  obtain ⟨-, -, -, rfl⟩ := ChannelSlot.settleTake_some h
  exact { hside with remote := rfl, closed := id }

omit [Usize] in
theorem Calm.takeBuffered {want : ℕ} {bytes : Bytes} (h : slot.takeBuffered want = .ok (some (bytes, slot'))) :
    Calm slot slot' := by
  have hside := ChannelSlot.SendSide.takeBuffered h
  obtain ⟨-, -, hle, rfl⟩ := ChannelSlot.takeBuffered_some h
  exact { hside with remote := rfl, closed := id }

omit [Usize] in
theorem Calm.deliver (slot : ChannelSlot) (n : ℕ) : Calm slot (slot.deliver n).2 := by
  have hrefl : Calm slot slot := { ChannelSlot.SendSide.refl slot with remote := rfl, closed := id }
  unfold ChannelSlot.deliver
  split_ifs
  · exact hrefl
  · exact hrefl
  · cases slot.ack slot.unacked with
    | none => exact hrefl
    | some ack => exact ⟨⟨rfl, rfl, rfl, rfl, id⟩, rfl, id⟩

/-- What `dispatch` does to the table is calm, or a READY applied. -/
theorem Inv.dispatch_cases (h : Inv w t incoming out log) (pkt : Packet) :
    (t.dispatch pkt).2 = t ∨ ∃ i s s', t.at? i = some s ∧ (t.dispatch pkt).2 = t.put i (some s') ∧
      (Calm s s' ∨ pkt.command = .ready ∧ s.localId.raw = pkt.arg1 ∧ s.applyReady pkt.data = .ok s') := by
  have hd := ChannelTable.dispatch_spec t pkt
  revert hd
  generalize (t.dispatch pkt).1 = o
  generalize (t.dispatch pkt).2 = t1
  intro hd
  cases hd with
  | ignored => exact .inl rfl
  | opens _ => exact .inl rfl
  | withdraws _ _ _ => exact .inl rfl
  | stray _ _ _ _ => exact .inl rfl
  | faults _ _ _ _ _ _ _ => exact .inl rfl
  | closesRemote i s _ _ hat _ => exact .inr ⟨i, s, _, hat, rfl, .inl (.applyClose s)⟩
  | closes i s _ _ hat => exact .inr ⟨i, s, _, hat, rfl, .inl (.applyClose s)⟩
  | acks i s s' ack _ _ hat _ happly => exact .inr ⟨i, s, s', hat, rfl, .inl (.applyWrite happly)⟩
  | buffers i s s' _ _ hat _ happly => exact .inr ⟨i, s, s', hat, rfl, .inl (.applyWrite happly)⟩
  | accepts i s s' _ _ hat _ hstate _ => exact absurd hstate (h.opened hat)
  | grants i s s' hc hidx hat _ _ happly =>
    obtain ⟨s1, hs1, hraw⟩ := ChannelTable.slotOf_spec hidx
    cases hat.symm.trans hs1
    exact .inr ⟨i, s, s', hat, rfl, .inr ⟨hc, hraw, happly⟩⟩

omit [Usize] in
theorem applyReady_same {bytes : Bytes} (h : slot.applyReady bytes = .ok slot') :
    slot'.localId = slot.localId ∧ slot'.remote = slot.remote ∧ slot'.state = slot.state := by
  obtain ⟨-, rfl⟩ | ⟨-, rfl⟩ := ChannelSlot.applyReady_ok h
  · exact ⟨rfl, rfl, rfl⟩
  · exact ⟨rfl, rfl, rfl⟩

/-- The channel of `c` has the ids `ids`. -/
def Has (c : ChannelId) (ids : ChannelIds) (t : ChannelTable) : Prop := ∃ s, t.get c = some s ∧ s.ids = some ids

omit [Usize] in
theorem Has.put {c : ChannelId} {ids : ChannelIds} (h : Has c ids t) (hat : t.at? idx = some slot)
    (hlocal : slot'.localId = slot.localId) (hids : slot'.ids = slot.ids) : Has c ids (t.put idx (some slot')) := by
  obtain ⟨s, hget, hs⟩ := h
  by_cases hc : c.slot = idx
  · subst hc
    cases hat.symm.trans (ChannelTable.get_eq_some.mp hget).1
    exact ⟨slot', ChannelTable.get_put_self hat (hlocal.trans (ChannelTable.get_eq_some.mp hget).2), hids.trans hs⟩
  · exact ⟨s, (ChannelTable.get_put_ne _ hc).trans hget, hs⟩

theorem Inv.has_dispatch {c : ChannelId} {ids : ChannelIds} (h : Inv w t incoming out log) (hh : Has c ids t)
    (pkt : Packet) : Has c ids (t.dispatch pkt).2 := by
  rcases h.dispatch_cases pkt with heq | ⟨i, s, s', hat, heq, hc | ⟨-, -, happly⟩⟩
  · rw [heq]
    exact hh
  · rw [heq]
    exact hh.put hat hc.localId hc.ids
  · rw [heq]
    obtain ⟨hl, hr, -⟩ := applyReady_same happly
    exact hh.put hat hl (by simp only [ChannelSlot.ids, hl, hr])

omit [Usize] in
/-- A READY, applied to the slot it is for. -/
theorem Inv.ready (h : Inv w t incoming out log) (hat : t.at? idx = some slot) (hcmd : pkt.command = .ready)
    (hraw : slot.localId.raw = pkt.arg1) (happly : slot.applyReady pkt.data = .ok slot') :
    Inv w (t.put idx (some slot')) incoming out (log ++ [.received pkt]) := by
  obtain ⟨hl, hr, hs⟩ := applyReady_same happly
  have hlog : Inv w t incoming out (log ++ [.received pkt]) := by
    refine h.receive fun hc => ?_
    simp [ChannelIds.closedBy, hcmd] at hc
  refine hlog.put hat hl hr (fun ho => hs ▸ ho) fun hget => ?_
  have hready : w.isReady (.received pkt) = true := by
    simp only [isReady, hcmd, ← hraw, (ChannelTable.get_eq_some.mp hget).2, w.localId_eq, beq_self_eq_true,
      Bool.and_self]
  obtain ⟨hk, hp⟩ := h.slot hget
  exact ⟨hk.ready hready happly, fun hlive => (hp hlive).ready hk.mode hready happly⟩

/-- **`dispatch` keeps the table in step with the log.** -/
theorem Inv.dispatch (h : Inv w t incoming out log) :
    Inv w (t.dispatch pkt).2 incoming out (log ++ [.received pkt]) := by
  have hclosed : w.ids.closedBy pkt = true → ∀ slot, t.get w.ch = some slot →
      (t.dispatch pkt).2.get w.ch = some slot.applyClose := fun hc _ hget => h.dispatch_closes hc hget
  rcases h.dispatch_cases pkt with heq | ⟨i, s, s', hat, heq, hc | ⟨hcmd, hraw, happly⟩⟩
  · rw [heq] at hclosed ⊢
    refine h.receive fun hc slot hget => ?_
    rw [Option.some.inj (hget.symm.trans (hclosed hc slot hget))]
    rfl
  · -- the table first, then the log: by then the slot is closed, if the packet closes it
    rw [heq] at hclosed ⊢
    refine (h.put_calm hat hc).receive fun hcl slot hget => ?_
    cases hold : t.get w.ch with
    | some old =>
      rw [Option.some.inj (hget.symm.trans (hclosed hcl old hold))]
      rfl
    | none =>
      rw [ChannelTable.get_put hat hc.localId, hold] at hget
      simp at hget
  · rw [heq]
    exact h.ready hat hcmd hraw happly

/-! ## A CLSE for two handles -/

omit [Usize] in
/-- A CLSE for the channel that is one for the channel of `c` closes the slot of the channel. -/
theorem Inv.same_slot {c : ChannelId} {ids : ChannelIds} (h : Inv w t incoming out log) (hget : t.get c = some slot)
    (hids : slot.ids = some ids) (hc : ids.closedBy pkt = true) (hw : w.ids.closedBy pkt = true) :
    c.slot = w.ch.slot := by
  obtain ⟨hat, hid⟩ := ChannelTable.get_eq_some.mp hget
  obtain ⟨r, hr, rfl⟩ := Option.map_eq_some_iff.mp hids
  simp only [ChannelIds.closedBy, Bool.and_eq_true, beq_iff_eq, Bool.or_eq_true] at hc hw
  rcases hw.2 with hlocal | ⟨hzero, hremote⟩
  · rcases hc.2 with hl | ⟨hz, -⟩
    · refine h.alone hat ?_
      rw [← w.localId_eq]
      exact congrArg LocalId.mk (hl.symm.trans hlocal)
    · exact absurd (hlocal.symm.trans hz) w.local_ne
  · rcases hc.2 with hl | ⟨-, hr'⟩
    · exact absurd (hl.symm.trans hzero) (h.nonzero hat)
    · refine h.remote hat ?_
      rw [hr]
      exact congrArg some (congrArg RemoteId.mk (hr'.symm.trans hremote))

omit [Usize] in
/-- The slot of a handle is closed on a CLSE for it. -/
theorem Inv.close {c : ChannelId} {ids : ChannelIds} (h : Inv w t incoming out log) (hget : t.get c = some slot)
    (hids : slot.ids = some ids) (hc : ids.closedBy pkt = true) :
    Inv w (t.put c.slot (some slot.applyClose)) incoming out (log ++ [.received pkt]) := by
  obtain ⟨hat, -⟩ := ChannelTable.get_eq_some.mp hget
  refine (h.put_calm hat (.applyClose slot)).receive fun hw s hs => ?_
  obtain ⟨hs, -⟩ := ChannelTable.get_eq_some.mp hs
  rw [← h.same_slot hget hids hc hw, ChannelTable.at?_put_self _ (ChannelTable.at?_lt hat)] at hs
  cases hs
  rfl

/-! ## A WRTE -/

section Write

variable {n b : ℕ}

/-- The log allows what the slot has a budget for. -/
theorem Inv.allowed (h : Inv w t incoming out log) (hget : t.get w.ch = some slot) (hlive : ¬ out.Stuck)
    (hopen : slot.isClosed = false) (hb : slot.budget = some b) (hlen : pkt.data.length ≤ b)
    (hsize : pkt.data.length ≤ max w.limit 1) : w.Allowed log pkt := by
  obtain ⟨hk, hp⟩ := h.slot hget
  have hpaid := hp hlive
  refine ⟨hsize, ?_, ?_, ?_⟩
  · intro hm
    have hwindow := hpaid.window hm
    have hle : (b : ℤ) ≤ slot.sendBudget := by
      unfold ChannelSlot.budget at hb
      rw [hk.mode, hm] at hb
      dsimp only at hb
      split_ifs at hb with hpos
      cases hb
      have := Nat.mod_le slot.sendBudget.toNat (2 ^ Usize.bits)
      omega
    omega
  · intro hm
    refine hpaid.turn hm ?_
    unfold ChannelSlot.budget at hb
    rw [hk.mode, hm] at hb
    dsimp only at hb
    split_ifs at hb with hacked
    exact hacked
  · intro e he
    cases hc : w.isClose e with
    | false => rfl
    | true =>
      rw [hk.closed e he hc] at hopen
      cases hopen

omit [Usize] in
theorem spend_same (slot : ChannelSlot) (n : ℕ) :
    (slot.spend n).localId = slot.localId ∧ (slot.spend n).remote = slot.remote ∧
      (slot.spend n).state = slot.state ∧ (slot.spend n).policy = slot.policy := by
  unfold ChannelSlot.spend
  cases slot.policy.ack <;> exact ⟨rfl, rfl, rfl, rfl⟩

/-- Spending pays for what was written. -/
theorem Paid.spend (h : Paid w slot log) (hmode : slot.policy.ack = w.mode) (hb : slot.budget = some b)
    (hn : pkt.data.length ≤ b) (hpkt : w.isWrite (.wrote pkt) = true) :
    Paid w (slot.spend pkt.data.length) (log ++ [.wrote pkt]) := by
  have hlow := h.low
  unfold ChannelSlot.budget at hb
  unfold ChannelSlot.spend
  cases hm : slot.policy.ack with
  | delayed =>
    rw [hm] at hb
    dsimp only at hb ⊢
    split_ifs at hb with hpos
    cases hb
    have hmod := Nat.mod_le slot.sendBudget.toNat (2 ^ Usize.bits)
    obtain ⟨hle, hge⟩ : wrapI64 (slot.sendBudget - pkt.data.length) ≤ _ ∧ _ := wrapI64_le (by omega)
    refine ⟨hge, ?_, fun hw => ?_⟩
    · intro hw
      have hwindow := h.window hw
      rw [written_wrote hpkt, granted_wrote, List.length_append]
      dsimp only
      push_cast
      omega
    · rw [← hmode, hm] at hw
      cases hw
  | classic =>
    refine ⟨hlow, fun hw => ?_, fun _ hacked => by cases hacked⟩
    rw [← hmode, hm] at hw
    cases hw

/-- The WRTE went out and was paid for. -/
theorem Inv.wrote_paid {out' : Outbound} (h : Inv w t incoming out log) (hget : t.get w.ch = some slot)
    (hlive : ¬ out.Stuck) (hopen : slot.isClosed = false) (hb : slot.budget = some b) (hlen : pkt.data.length ≤ b)
    (hsize : pkt.data.length ≤ max w.limit 1) (hpkt : w.isWrite (.wrote pkt) = true) :
    Inv w (t.put w.ch.slot (some (slot.spend pkt.data.length))) incoming out' (log ++ [.wrote pkt]) := by
  obtain ⟨hat, -⟩ := ChannelTable.get_eq_some.mp hget
  obtain ⟨hk, hp⟩ := h.slot hget
  obtain ⟨hl, hr, hs, hpol⟩ := spend_same slot pkt.data.length
  have hlog : Inv w t incoming ⟨out.transport, true⟩ (log ++ [.wrote pkt]) :=
    ⟨h.next, h.opened, h.nonzero, h.alone, h.remote, h.queue,
      fun hg => ⟨(h.slot hg).1.wrote pkt, fun hstuck => absurd (.inl rfl) hstuck⟩,
      h.kept.snoc fun p hp _ => by cases hp; exact h.allowed hget hlive hopen hb hlen hsize⟩
  have hput : Inv w (t.put w.ch.slot (some (slot.spend pkt.data.length))) incoming ⟨out.transport, true⟩
      (log ++ [.wrote pkt]) := by
    refine hlog.put hat hl hr (fun ho => hs ▸ ho) fun _ => ⟨?_, fun hstuck => absurd (.inl rfl) hstuck⟩
    have hk' := hk.wrote pkt
    exact ⟨by simpa only [ChannelSlot.ids, hl, hr] using hk'.ids, hpol ▸ hk'.mode, fun e he hc => by
      simpa only [ChannelSlot.isClosed, hs] using hk'.closed e he hc⟩
  refine ⟨hput.next, hput.opened, hput.nonzero, hput.alone, hput.remote, hput.queue, ?_, hput.kept⟩
  intro s hgs
  refine ⟨(hput.slot hgs).1, fun _ => ?_⟩
  obtain ⟨hats, -⟩ := ChannelTable.get_eq_some.mp hgs
  rw [ChannelTable.at?_put_self _ (ChannelTable.at?_lt hat)] at hats
  cases hats
  exact (hp hlive).spend hk.mode hb hlen hpkt

/-- The WRTE was torn: nothing more goes out. -/
theorem Inv.wrote_torn {out' : Outbound} (h : Inv w t incoming out log) (hget : t.get w.ch = some slot)
    (hlive : ¬ out.Stuck) (hopen : slot.isClosed = false) (hb : slot.budget = some b) (hlen : pkt.data.length ≤ b)
    (hsize : pkt.data.length ≤ max w.limit 1) (hstuck : out'.Stuck) :
    Inv w t incoming out' (log ++ [.wrote pkt]) :=
  ⟨h.next, h.opened, h.nonzero, h.alone, h.remote, h.queue,
    fun hg => ⟨(h.slot hg).1.wrote pkt, fun hs => absurd hstuck hs⟩,
    h.kept.snoc fun p hp _ => by cases hp; exact h.allowed hget hlive hopen hb hlen hsize⟩

end Write

end Observed

end LibAdb
