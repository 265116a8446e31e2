import LibAdb.Split.Credit
import LibAdb.Base.FairQueue
import LibAdb.Base.Handles

/-!
# LibAdb.Split.Waiting — who waits for credit

`Writer::waits_for_credit` reads a channel's queue of writers.  In every state of a split connection that queue holds
one place for each `write_channel` call between `enqueue` and the end of its `QueueGuard`, and counts one for each
call with a `CreditGuard`: every event is at most one `Turn` of one call (`Task.Moves.turns`).

A call is known to the queue by a number only.  So it has to be the queue it joined: a `ChannelId` that comes round
while an old call still has a guard lets that guard work on the new channel's queue (`Reuses`).
-/

namespace LibAdb.Split

open Tasks SendQueue

/-! ## Where a writer stands in line -/

/-- The place of a call whose `QueueGuard` is alive. -/
def WritePc.place : WritePc → Option ℕ
  | .listen place | .reserve place _ | .live place _ | .parked place _ | .leave place _ => some place
  | _ => none

/-- The place of a call, and whether its `CreditGuard` is alive. -/
def WriteCall.stand (c : WriteCall) : Option ℕ × Bool := (c.pc.place, c.pc.credit.isSome)

/-- What the task is to the queue of `ch`. -/
def Task.stand (ch : ChannelId) (t : Task) : Option ℕ × Bool :=
  ((t.writes ch).map WriteCall.stand).getD (none, false)

/-- The places of all tasks in the queue of `ch`. -/
def placeOf (ch : ChannelId) (tasks : List Task) (i : ℕ) : Option ℕ := tasks[i]?.bind fun t => (t.stand ch).1

/-- The reservations in flight on `ch`. -/
def inFlight (ch : ChannelId) (tasks : List Task) : ℕ := total (fun t => (t.stand ch).2.toNat) tasks

/-- `Writer::waits_for_credit` -/
def Shared.waitsForCredit [Usize] (sh : Shared) (ch : ChannelId) : Bool :=
  match sh.channels.get ch with
  | none => false
  | some slot =>
    if slot.isClosed || slot.budget.isSome then false
    else !slot.sendQueue.isEmpty && !slot.sendQueue.isSending

/-! ## What leaves every line alone -/

/-- Every channel of `t'` is one of `t` with the same queue, or new with an empty one and the next local id. -/
def SameLines (t t' : ChannelTable) : Prop :=
  ∀ idx slot', t'.at? idx = some slot' →
    (∃ slot, t.at? idx = some slot ∧ slot'.localId = slot.localId ∧ slot'.sendQueue = slot.sendQueue) ∨
      (t.at? idx = none ∧ slot'.sendQueue = .empty ∧ slot'.localId.raw = t.nextLocalId)

section SameLines

variable {t t' : ChannelTable} {idx : ℕ} {slot slot' : ChannelSlot} {ch : ChannelId}

theorem SameLines.refl (t : ChannelTable) : SameLines t t := fun _ slot h => Or.inl ⟨slot, h, rfl, rfl⟩

theorem SameLines.put (hat : t.at? idx = some slot) (hid : slot'.localId = slot.localId)
    (hq : slot'.sendQueue = slot.sendQueue) : SameLines t (t.put idx (some slot')) := by
  intro j s hs
  rcases ChannelTable.at?_put_cases hs with ⟨rfl, ⟨⟩⟩ | ⟨-, hs⟩
  · exact Or.inl ⟨slot, hat, hid, hq⟩
  · exact Or.inl ⟨s, hs, rfl, rfl⟩

theorem SameLines.put_get (hget : t.get ch = some slot) (hid : slot'.localId = slot.localId)
    (hq : slot'.sendQueue = slot.sendQueue) : SameLines t (t.put ch.slot (some slot')) :=
  .put (ChannelTable.get_eq_some.mp hget).1 hid hq

theorem SameLines.freed (ch : ChannelId) : SameLines t (t.freed ch) := by
  unfold ChannelTable.freed ChannelTable.free
  cases t.get ch with
  | none => exact .refl t
  | some slot =>
    intro j s hs
    rcases ChannelTable.at?_put_cases hs with ⟨-, ⟨⟩⟩ | ⟨-, hs⟩
    exact Or.inl ⟨s, hs, rfl, rfl⟩

theorem SameLines.filled (halloc : t.allocate = some (ch, t')) (hq : slot.sendQueue = .empty)
    (hid : slot.localId = ch.localId) : SameLines t (t'.put ch.slot (some slot)) := by
  obtain ⟨hfree, -, hslots, -, hnext⟩ := ChannelTable.allocate_spec halloc
  intro j s hs
  rcases ChannelTable.at?_put_cases hs with ⟨rfl, ⟨⟩⟩ | ⟨-, hs⟩
  · exact Or.inr ⟨hfree, hq, hid ▸ hnext⟩
  · rw [show t'.at? j = t.at? j by simp only [ChannelTable.at?, hslots]] at hs
    exact Or.inl ⟨s, hs, rfl, rfl⟩

theorem SameLines.closeRemote {remote : RemoteId} (h : t.closeRemote remote = some (idx, t')) : SameLines t t' := by
  obtain ⟨s, hat, -, rfl⟩ := ChannelTable.closeRemote_spec h
  exact .put hat rfl rfl

/-- A packet leaves every line alone. -/
theorem SameLines.dispatches [Usize] {pkt : Packet} {outcome : DispatchOutcome}
    (h : ChannelTable.Dispatches t pkt outcome t') : SameLines t t' := by
  cases h with
  | closesRemote idx s hcmd hzero hat hr => exact .put hat rfl rfl
  | closes idx s hcmd hidx hat => exact .put hat rfl rfl
  | acks idx s s' ack hcmd hidx hat hf happly | buffers idx s s' hcmd hidx hat hf happly =>
    obtain ⟨-, -, ⟨-, rfl, -⟩ | ⟨ids, -, -, rfl, -⟩⟩ := ChannelSlot.applyWrite_ok happly <;> exact .put hat rfl rfl
  | accepts idx s s' hcmd hidx hat hf hstate happly =>
    obtain ⟨b, rfl⟩ := ChannelSlot.acceptOpenReady_ok happly
    exact .put hat rfl rfl
  | grants idx s s' hcmd hidx hat hf hstate happly =>
    rcases ChannelSlot.applyReady_ok happly with ⟨-, rfl⟩ | ⟨-, rfl⟩ <;> exact .put hat rfl rfl
  | _ => exact .refl t

/-- Seen from a handle. -/
theorem SameLines.get (h : SameLines t t') (hget : t'.get ch = some slot') :
    (∃ slot, t.get ch = some slot ∧ slot'.sendQueue = slot.sendQueue) ∨
      (t.get ch = none ∧ slot'.sendQueue = .empty ∧ ch.localId.raw = t.nextLocalId) := by
  obtain ⟨hat, hid⟩ := ChannelTable.get_eq_some.mp hget
  rcases h _ _ hat with ⟨slot, hat0, hid0, hq⟩ | ⟨hnone, hq, hnext⟩
  · exact Or.inl ⟨slot, ChannelTable.get_eq_some.mpr ⟨hat0, hid0.symm.trans hid⟩, hq⟩
  · exact Or.inr ⟨by simp [ChannelTable.get, hnone], hq, hid ▸ hnext⟩

end SameLines

/-! ### The shared operations -/

section Shared

variable {sh sh' : Shared}

theorem SameLines.takeIncomingPast {cap : ℕ} {h : Holder} (ht : sh.takeIncomingPast cap = some (h, sh')) :
    SameLines sh.channels sh'.channels := by
  unfold Shared.takeIncomingPast at ht
  split_ifs at ht
  split at ht
  · cases ht
  · cases ht
    exact .refl _

theorem SameLines.handOut {h : Holder} (ht : sh.handOut = some (h, sh')) : SameLines sh.channels sh'.channels := by
  obtain ⟨⟨h1, sh1⟩, htake, ⟨⟩⟩ := Option.map_eq_some_iff.mp ht
  exact (SameLines.takeIncomingPast htake :)

theorem SameLines.queueIncoming {n : ℕ} {p : PendingOpen} (hq : sh.queueIncoming n p = some sh') :
    SameLines sh.channels sh'.channels := by
  unfold Shared.queueIncoming at hq
  split_ifs at hq
  cases hq
  exact .refl _

theorem SameLines.withdrawOpen (remote : RemoteId) : SameLines sh.channels (sh.withdrawOpen remote).channels := by
  unfold Shared.withdrawOpen
  split
  · rename_i idx channels hc
    exact (SameLines.closeRemote hc :)
  · exact .refl _

theorem SameLines.failChannel (idx : ℕ) (ids : ChannelIds) (fault : ChannelFault) :
    SameLines sh.channels (sh.failChannel idx ids fault).channels := by
  unfold Shared.failChannel
  split
  · rename_i s hs
    exact SameLines.put (ChannelTable.get_eq_some.mp hs).1 rfl rfl
  · exact .refl _

theorem SameLines.dropSlot (ch : ChannelId) : SameLines sh.channels (sh.dropSlot ch).channels := by
  unfold Shared.dropSlot
  split
  · exact .refl _
  · rename_i s channels hfree
    have hk : SameLines sh.channels channels := by
      have := @SameLines.freed sh.channels ch
      simpa only [ChannelTable.freed, hfree] using this
    dsimp only
    split <;> exact hk

end Shared

/-! ### Calls that do not write -/

section Steps

variable {sh sh' : Shared} {use : Option Use}

theorem CloseCall.Moves.lines {c c' : CloseCall} (h : c.Moves sh c' use sh') : SameLines sh.channels sh'.channels := by
  cases h with
  | frees => exact .freed _
  | _ => exact .refl _

theorem TakePc.Moves.lines {ch : ChannelId} {want : ℕ} {pc : TakePc} {next : TakeNext}
    (h : TakePc.Moves ch want sh pc next use sh') : SameLines sh.channels sh'.channels := by
  cases h with
  | takes s s' out hs hacks htake =>
    obtain ⟨-, -, -, rfl⟩ := ChannelSlot.takeBuffered_some htake
    exact .put_get hs rfl rfl
  | _ => exact .refl _

theorem ReadCall.Moves.lines {c c' : ReadCall} (h : c.Moves sh c' use sh') : SameLines sh.channels sh'.channels := by
  cases h with
  | takes pc pc' use sh' hpc ht => exact ht.lines
  | fails pc e use sh1 hpc ht => exact ht.lines
  | empty pc use sh' hpc ht => exact ht.lines
  | returns pc out use sh' hpc ht => exact ht.lines
  | _ => exact .refl _

variable [Usize] {ng : Negotiated}

theorem takeSlot_lines {destination : Bytes} {ch : ChannelId} {u : Use}
    (h : takeSlot ng destination sh = .ok (ch, u, sh')) : SameLines sh.channels sh'.channels := by
  unfold takeSlot at h
  split at h
  · cases h
  · rename_i ch1 channels halloc
    cases h
    exact .filled halloc rfl rfl

theorem OpenCall.Moves.lines {c c' : OpenCall} (h : c.Moves ng sh c' use sh') :
    SameLines sh.channels sh'.channels := by
  cases h with
  | takes ch1 u sh' hpc htake => exact takeSlot_lines htake
  | unguards => exact .dropSlot _
  | _ => exact .refl _

theorem HolderCall.Moves.lines {c c' : HolderCall} (h : c.Moves ng sh c' use sh') :
    SameLines sh.channels sh'.channels := by
  cases h with
  | reserves pending ch1 channels hpc hp hflag halloc => exact .filled halloc rfl rfl
  | frees => exact .freed _
  | _ => exact .refl _

omit [Usize] in
theorem ListenCall.Moves.lines {c c' : ListenCall} (h : c.Moves sh c' use sh') :
    SameLines sh.channels sh'.channels := by
  cases h with
  | idle => exact .refl _
  | takes hd sh' hpc hout => exact .handOut hout

omit [Usize] in
theorem ReaderTask.Says.channels {c : ReaderTask} (h : c.Says sh sh') : sh'.channels = sh.channels := by
  rcases h with rfl | ⟨ch, want, e, -, rfl⟩ <;> rfl

omit [Usize] in
theorem ReaderTask.Says.lines {c : ReaderTask} (h : c.Says sh sh') : SameLines sh.channels sh'.channels := by
  rw [h.channels]
  exact .refl _

theorem ReaderTask.dispatch_lines (c : ReaderTask) (pkt : Packet) :
    SameLines sh.channels (c.dispatch pkt sh).2.2.channels := by
  obtain ⟨outcome, t', hd, hc, -⟩ := c.dispatch_shared pkt sh
  rw [hc]
  exact .dispatches hd

theorem ReaderTask.receive_lines (c : ReaderTask) (pkt : Packet) :
    SameLines sh.channels (c.receive pkt sh).2.2.channels := by
  unfold ReaderTask.receive
  split
  · rename_i g hg
    split_ifs
    · unfold ReaderTask.openReady
      split
      · exact .refl _
      · rename_i slot hget
        split
        · rename_i slot' happly
          obtain ⟨b, rfl⟩ := ChannelSlot.acceptOpenReady_ok happly
          exact SameLines.put_get hget rfl rfl
        · exact .refl _
    · have hsaid := ReaderTask.Says.leave c .channelClosed (sh.note (.received pkt .unmatched))
      exact hsaid.lines
    · exact c.dispatch_lines pkt
  · exact c.dispatch_lines pkt

theorem ReaderTask.Moves.lines {c c' : ReaderTask} (h : c.Moves ng sh c' use sh') :
    SameLines sh.channels sh'.channels := by
  cases h with
  | plain c' use sh' hl hl' huse hsaid => exact hsaid.lines
  | ends e sh' hpc hsaid => exact (hsaid.lines :)
  | allocates destination ch1 u sh' hpc htake => exact takeSlot_lines htake
  | takes ch1 want pc pc' d use sh' hcall hpc hm => exact hm.lines
  | taken ch1 want pc d r sh1 hcall hpc hm =>
    rw [(c.taken_said d r sh1).2.2.channels]
    exact hm.lines
  | drains h sh' hpc htake => exact .takeIncomingPast htake
  | refuses h sh' hpc htake => exact .takeIncomingPast htake
  | handsOut h sh' hpc hcall htake => exact .handOut htake
  | inner h h' pc' use sh' hpc hpc' hm => exact hm.lines
  | refused h r c' sh' hpc hdone hl' hsaid => exact hsaid.lines
  | received pkt hpc => exact c.receive_lines pkt
  | fails => exact .failChannel _ _ _
  | queues pending sh' hpc hq => exact .queueIncoming hq
  | withdraws => exact .withdrawOpen _
  | unguards => exact .dropSlot _
  | _ => exact .refl _

end Steps

/-! ### Uses of the write half -/

section Uses

variable [Usize] {ng : Negotiated} {sh sh' : Shared} {u : Use} {i : ℕ} {a : Act} {next : UseNext}

omit [Usize] in
theorem Use.settled_lines {ch : ChannelId} {want : ℕ} {ack : PendingAck}
    (h : Use.settled sh ch want = some (ack, sh')) : SameLines sh.channels sh'.channels := by
  obtain ⟨s, s', hs1, hs2, rfl⟩ := Use.settled_some h
  obtain ⟨-, -, -, rfl⟩ := ChannelSlot.settleTake_some hs2
  exact SameLines.put_get hs1 rfl rfl

theorem Use.Moves.lines (h : u.Moves ng i sh a next sh') : SameLines sh.channels sh'.channels := by
  cases h with
  | debtRefused | debtFailed | flushed =>
    rw [Shared.release_channels]
    exact .refl _
  | failed pkt whole e hpc =>
    rw [Shared.release_channels]
    unfold Shared.writeFailed
    split_ifs <;> exact .refl _
  | own _ _ hpc hown =>
    cases hown with
    | begun => exact .refl _
    | okay ch' want ack sh1 hjob h1 hok => exact (Use.settled_lines h1 :)
    | release | refused =>
      rw [Shared.release_channels]
      exact .refl _
    | settled ch' want ack sh1 hjob h1 =>
      rw [Shared.release_channels]
      exact Use.settled_lines h1
  | _ => exact .refl _

omit [Usize] in
theorem Use.drop_lines (h : u.drop sh = some sh') : SameLines sh.channels sh'.channels := by
  unfold Use.drop at h
  split at h
  · cases h
    exact .refl _
  · cases h
    rw [Shared.release_channels]
    exact .refl _
  · cases h
    rw [Shared.release_channels]
    exact .refl _
  · cases h

end Uses

/-! ## The writer's own steps -/

section Writing

variable [Usize] {ng : Negotiated} {sh sh' : Shared} {c c' : WriteCall} {use : Option Use}

/-- What a step of a writer does to the queue of its channel, if that is still there. -/
structure WriteCall.Turns (c : WriteCall) (sh : Shared) (c' : WriteCall) (sh' : Shared) : Prop where
  ch : c'.ch = c.ch
  turn : sh.channels.get c.ch = none ∧ sh'.channels = sh.channels ∨
    c'.stand = c.stand ∧ sh'.channels = sh.channels ∨
    ∃ slot slot', sh.channels.get c.ch = some slot ∧ slot'.localId = slot.localId ∧
      sh'.channels = sh.channels.put c.ch.slot (some slot') ∧
      Turn slot.sendQueue c.stand c'.stand slot'.sendQueue

omit [Usize] in
theorem WriteCall.Turns.stays (hch : c'.ch = c.ch) (hstand : c'.stand = c.stand) : c.Turns sh c' sh :=
  ⟨hch, Or.inr (Or.inl ⟨hstand, rfl⟩)⟩

theorem WriteCall.tryReserve_serves {place n : ℕ} (h : c.tryReserve ng place sh = .ok (some (n, sh'))) :
    ∃ slot slot', sh.channels.get c.ch = some slot ∧ slot.sendQueue.turn = place ∧ slot'.localId = slot.localId ∧
      sh'.channels = sh.channels.put c.ch.slot (some slot') ∧ slot'.sendQueue = slot.sendQueue.serve := by
  unfold WriteCall.tryReserve at h
  split at h
  · cases h
  · rename_i s hs
    split_ifs at h with hclosed hturn
    · cases h
    · split at h
      · cases h
      · rename_i n1 s1 hr
        obtain ⟨rfl, -, -⟩ := ChannelSlot.tryReserveSend_some hr
        have hq : (s.spend n1).sendQueue = s.sendQueue := by
          unfold ChannelSlot.spend
          split <;> rfl
        cases h
        refine ⟨s, { s.spend n with sendQueue := (s.spend n).sendQueue.serve }, hs, of_not_not hturn,
          s.spend_localId n, ?_, congrArg SendQueue.serve hq⟩
        split_ifs <;> rfl

theorem WriteCall.step_turns {a : Act} (h : c.step ng a sh = some (c', use, sh')) : c.Turns sh c' sh' := by
  unfold WriteCall.step at h
  have stand : ∀ {pc}, c.pc = pc → c.stand = (pc.place, pc.credit.isSome) := fun hpc => by rw [WriteCall.stand, hpc]
  split at h
  · rename_i hpc
    split at h
    · cases h
      exact .stays rfl (stand hpc).symm
    · cases h
      refine .stays rfl (Eq.trans ?_ (stand hpc).symm)
      split_ifs <;> rfl
  · rename_i hpc
    split_ifs at h
    · cases h
      exact .stays rfl (stand hpc).symm
    · split at h
      · cases h
        exact .stays rfl (stand hpc).symm
      · rename_i slot hget
        split_ifs at h
        · cases h
          exact .stays rfl (stand hpc).symm
        · cases h
          refine ⟨rfl, Or.inr (Or.inr ⟨slot, { slot with sendQueue := slot.sendQueue.enqueue.2 }, hget, rfl, rfl, ?_⟩)⟩
          rw [stand hpc]
          exact .joins false
  · rename_i place hpc
    cases h
    exact .stays rfl (stand hpc).symm
  · rename_i place gen hpc
    split at h
    · cases h
      exact .stays rfl (stand hpc).symm
    · cases h
      exact .stays rfl (stand hpc).symm
    · rename_i n sh1 hres
      cases h
      obtain ⟨slot, slot', hget, rfl, hid, hput, hq⟩ := WriteCall.tryReserve_serves hres
      refine ⟨rfl, Or.inr (Or.inr ⟨slot, slot', hget, hid, hput, ?_⟩)⟩
      rw [stand hpc, hq]
      exact .served
  · rename_i place gen hpc
    split at h <;> (cases h; exact .stays rfl (stand hpc).symm)
  · rename_i place gen hpc
    split_ifs at h
    cases h
    exact .stays rfl (stand hpc).symm
  · rename_i place r hpc
    cases h
    refine ⟨rfl, ?_⟩
    unfold Shared.leaveQueue
    split
    · rename_i slot hget
      refine Or.inr (Or.inr ⟨slot, { slot with sendQueue := (slot.sendQueue.leave place).2 }, hget, rfl, ?_, ?_⟩)
      · dsimp only
        split_ifs <;> rfl
      · rw [stand hpc]
        exact .leaves place false
    · rename_i hget
      exact Or.inl ⟨hget, rfl⟩
  · rename_i n hpc
    split at h
    · cases h
      exact .stays rfl (stand hpc).symm
    · cases h
      exact .stays rfl (stand hpc).symm
  · rename_i n committed r hpc
    have hsettle : ∀ c'' : WriteCall, c''.ch = c.ch → c''.stand = (none, false) →
        c.Turns sh c'' (sh.dropCredit c.ch n committed) := by
      intro c'' hch hstand
      refine ⟨hch, ?_⟩
      unfold Shared.dropCredit
      cases hget : sh.channels.get c.ch with
      | none =>
        refine Or.inl ⟨rfl, ?_⟩
        dsimp only
        split_ifs <;> rfl
      | some slot =>
        dsimp only
        have hrefund : ∀ s : ChannelSlot, (s.refund n).sendQueue = s.sendQueue := by
          intro s
          unfold ChannelSlot.refund
          split <;> rfl
        refine Or.inr (Or.inr ⟨slot, if committed then { slot with sendQueue := slot.sendQueue.finish }
          else ({ slot with sendQueue := slot.sendQueue.finish } : ChannelSlot).refund n, rfl, ?_, ?_, ?_⟩)
        · split_ifs
          · rfl
          · exact ChannelSlot.refund_localId _ n
        · split_ifs <;> rfl
        · rw [stand hpc, hstand]
          split_ifs
          · exact .finishes
          · rw [hrefund]
            exact .finishes
    dsimp only at h
    split_ifs at h with hcommitted hmore
    · cases h
      exact hsettle _ rfl rfl
    · cases h
      exact hsettle _ rfl rfl
    · cases h
      exact hsettle _ rfl rfl
  · cases h

omit [Usize] in
theorem WriteCall.stand_resume (c : WriteCall) (r : Option Error) :
    (c.resume r).ch = c.ch ∧ (c.resume r).stand = c.stand := by
  unfold WriteCall.resume
  split
  · rename_i hpc
    exact ⟨rfl, by simp [WriteCall.stand, WriteCall.goto, hpc, WritePc.place, WritePc.credit]⟩
  · rename_i hpc
    exact ⟨rfl, by simp [WriteCall.stand, WriteCall.goto, hpc, WritePc.place, WritePc.credit]⟩
  · exact ⟨rfl, rfl⟩

omit [Usize] in
theorem WriteCall.stand_drop (h : c.drop = some c') : c'.ch = c.ch ∧ c'.stand = c.stand := by
  unfold WriteCall.drop at h
  split at h
  · rename_i hpc
    cases h
    exact ⟨rfl, by simp [WriteCall.stand, WriteCall.goto, hpc, WritePc.place, WritePc.credit]⟩
  · rename_i hpc
    cases h
    exact ⟨rfl, by simp [WriteCall.stand, WriteCall.goto, hpc, WritePc.place, WritePc.credit]⟩
  · cases h

end Writing

/-! ## Every event -/

section Events

variable {sh sh' : Shared} {t t' : Task} {i : ℕ} {ch : ChannelId} {slot' : ChannelSlot}
  {e : Event}

theorem Task.stand_write (c : WriteCall) (u : Option Use) :
    (Task.mk (.write c) u).stand ch = if c.ch = ch then c.stand else (none, false) := by
  unfold Task.stand
  rw [Task.writes_write]
  split_ifs <;> rfl

/-- Two calls on one channel that stand alike. -/
theorem Task.stand_congr {c c' : WriteCall} {u u' : Option Use} (h : c'.ch = c.ch ∧ c'.stand = c.stand) :
    (Task.mk (.write c') u').stand ch = (Task.mk (.write c) u).stand ch := by
  rw [Task.stand_write, Task.stand_write, h.1, h.2]

/-- What happens to the queue of `ch` when task `i` moves. -/
def Task.Line (ch : ChannelId) (t t' : Task) (sh sh' : Shared) : Prop :=
  ∀ slot', sh'.channels.get ch = some slot' →
    (∃ slot, sh.channels.get ch = some slot ∧ Turn slot.sendQueue (t.stand ch) (t'.stand ch) slot'.sendQueue) ∨
      (sh.channels.get ch = none ∧ slot'.sendQueue = .empty ∧ ch.localId.raw = sh.channels.nextLocalId ∧
        t'.stand ch = t.stand ch)

theorem Task.Line.same (h : SameLines sh.channels sh'.channels) (hstand : t'.stand ch = t.stand ch) :
    Task.Line ch t t' sh sh' := by
  intro slot' hget
  rcases h.get hget with ⟨slot, hget0, hq⟩ | ⟨hnone, hq, hnext⟩
  · refine Or.inl ⟨slot, hget0, ?_⟩
    rw [hstand, hq]
    exact .stays _
  · exact Or.inr ⟨hnone, hq, hnext, hstand⟩

/-- A writer's step, seen from any channel. -/
theorem WriteCall.Turns.line {c c' : WriteCall} {u u' : Option Use} (h : c.Turns sh c' sh') :
    Task.Line ch ⟨.write c, u⟩ ⟨.write c', u'⟩ sh sh' := by
  by_cases hc : c.ch = ch
  · subst hc
    rcases h.turn with ⟨hnone, hsame⟩ | ⟨hstand, hsame⟩ | ⟨slot, slot1, hget, hid, hput, hturn⟩
    · intro slot' hget'
      rw [hsame, hnone] at hget'
      cases hget'
    · refine .same ?_ (Task.stand_congr ⟨h.ch, hstand⟩)
      rw [hsame]
      exact .refl _
    · intro slot' hget'
      obtain ⟨hat, hidc⟩ := ChannelTable.get_eq_some.mp hget
      rw [hput, ChannelTable.get_put_self hat (hid.trans hidc)] at hget'
      cases hget'
      refine Or.inl ⟨slot, hget, ?_⟩
      rw [Task.stand_write, Task.stand_write, h.ch, if_pos rfl, if_pos rfl]
      exact hturn
  · -- another channel's writer
    have hstand : (Task.mk (.write c') u').stand ch = (Task.mk (.write c) u).stand ch := by
      rw [Task.stand_write, Task.stand_write, h.ch, if_neg hc, if_neg hc]
    rcases h.turn with ⟨-, hsame⟩ | ⟨-, hsame⟩ | ⟨slot, slot1, hget, hid, hput, -⟩
    · refine .same ?_ hstand
      rw [hsame]
      exact .refl _
    · refine .same ?_ hstand
      rw [hsame]
      exact .refl _
    · intro slot' hget'
      refine Or.inl ⟨slot', ?_, by rw [hstand]; exact .stays _⟩
      obtain ⟨hat', hid'⟩ := ChannelTable.get_eq_some.mp hget'
      rw [hput] at hat'
      rcases ChannelTable.at?_put_cases hat' with ⟨hidx, ⟨⟩⟩ | ⟨-, hat'⟩
      · refine absurd ?_ hc
        have hidc := (ChannelTable.get_eq_some.mp hget).2
        cases ch
        cases hcc : c.ch
        simp_all
      · exact ChannelTable.get_eq_some.mpr ⟨hat', hid'⟩

theorem Ctl.stand_resume (ctl : Ctl) (r : Option Error) (u u' : Option Use) (sh : Shared) :
    (Task.mk (ctl.resume r sh).1 u').stand ch = (Task.mk ctl u).stand ch := by
  cases ctl with
  | write c => exact Task.stand_congr (c.stand_resume r)
  | _ => rfl

theorem Ctl.resume_lines (ctl : Ctl) (r : Option Error) (sh : Shared) : (ctl.resume r sh).2.channels = sh.channels := by
  cases ctl with
  | reader c => exact (c.resume_resumes r sh).2.channels
  | _ => rfl

theorem Ctl.stand_cancel {ctl ctl' : Ctl} {u u' : Option Use} (h : ctl.cancel sh = some ctl') :
    (Task.mk ctl' u').stand ch = (Task.mk ctl u).stand ch := by
  cases ctl with
  | close c | read c | reader c =>
    obtain ⟨c', -, rfl⟩ := Option.map_eq_some_iff.mp h
    rfl
  | _ => cases h

theorem Ctl.stand_drop {ctl ctl' : Ctl} {u u' : Option Use} (h : ctl.drop = some ctl') :
    (Task.mk ctl' u').stand ch = (Task.mk ctl u).stand ch := by
  cases ctl with
  | write c =>
    obtain ⟨c', hc, rfl⟩ := Option.map_eq_some_iff.mp h
    exact Task.stand_congr (WriteCall.stand_drop hc)
  | _ =>
    obtain ⟨c', -, rfl⟩ := Option.map_eq_some_iff.mp h
    rfl

theorem Ctl.stand_handOver {ctl ctl' : Ctl} {u u' : Option Use} {h : Holder} (hh : ctl.handOver = some (h, ctl')) :
    (Task.mk ctl' u').stand ch = (Task.mk ctl u).stand ch := by
  unfold Ctl.handOver at hh
  split at hh
  · split at hh
    · cases hh
      rfl
    · cases hh
  · split at hh
    · cases hh
      rfl
    · cases hh
  · cases hh

variable [Usize] {ng : Negotiated}

/-- A step of a writer that has no use of the write half under way. -/
theorem State.step_write {s s' : State} {c : WriteCall} {a : Act} (ht : s.tasks[i]? = some ⟨.write c, none⟩)
    (h : s.step ng (.step i a) = some s') :
    ∃ c' use' sh', c.step ng a s.sh = some (c', use', sh') ∧ s' = s.set i ⟨.write c', use'⟩ sh' := by
  simp only [State.step, ht] at h
  obtain ⟨⟨t1, sh1⟩, hstep, rfl⟩ := Option.map_eq_some_iff.mp h
  obtain ⟨⟨ctl1, use1, sh2⟩, hctl, ⟨⟩⟩ := Option.map_eq_some_iff.mp hstep
  obtain ⟨⟨c1, use2, sh3⟩, hc, ⟨⟩⟩ := Option.map_eq_some_iff.mp hctl
  exact ⟨c1, use1, sh1, hc, rfl⟩

omit [Usize] in
theorem placeOf_set {tasks : List Task} (ht : tasks[i]? = some t) :
    placeOf ch (tasks.set i t') = Function.update (placeOf ch tasks) i (t'.stand ch).1 := by
  funext j
  unfold placeOf
  by_cases hj : j = i
  · subst hj
    rw [Function.update_self, List.getElem?_set_self' , ht]
    rfl
  · rw [Function.update_of_ne hj, List.getElem?_set_ne (Ne.symm hj)]

omit [Usize] in
theorem inFlight_set {tasks : List Task} (ht : tasks[i]? = some t) :
    inFlight ch (tasks.set i t') + (t.stand ch).2.toNat = inFlight ch tasks + (t'.stand ch).2.toNat :=
  total_set _ t' ht

omit [Usize] in
/-- A task that stands where it stood. -/
theorem placeOf_same {tasks : List Task} (ht : tasks[i]? = some t) (hstand : t'.stand ch = t.stand ch) :
    placeOf ch (tasks.set i t') = placeOf ch tasks ∧ inFlight ch (tasks.set i t') = inFlight ch tasks := by
  constructor
  · have hplace : placeOf ch tasks i = (t.stand ch).1 := by
      unfold placeOf
      rw [ht]
      rfl
    rw [placeOf_set ht, hstand, ← hplace, Function.update_eq_self]
  · have hset := @inFlight_set t t' i ch tasks ht
    rw [hstand] at hset
    omega

omit [Usize] in
/-- A task that stands in no line joins the others. -/
theorem placeOf_append {tasks : List Task} (hstand : t.stand ch = (none, false)) :
    placeOf ch (tasks ++ [t]) = placeOf ch tasks ∧ inFlight ch (tasks ++ [t]) = inFlight ch tasks := by
  constructor
  · funext j
    unfold placeOf
    rw [List.getElem?_append]
    split_ifs with hj
    · rfl
    · rw [List.getElem?_eq_none (not_lt.mp hj), List.getElem?_singleton]
      split_ifs
      · rw [Option.bind_some, hstand]
        rfl
      · rfl
  · unfold inFlight
    rw [total_append, hstand]
    rfl

/-- **What an event is to every line**: one task's turn, or nothing. -/
theorem State.step_line {s s' : State} (h : s.step ng e = some s') :
    (∃ i t t', s.tasks[i]? = some t ∧ s'.tasks = s.tasks.set i t' ∧ ∀ ch, Task.Line ch t t' s.sh s'.sh) ∨
      (s'.sh.channels = s.sh.channels ∧ ∀ ch, placeOf ch s'.tasks = placeOf ch s.tasks ∧
        inFlight ch s'.tasks = inFlight ch s.tasks) := by
  cases State.step_moves h with
  | task i e t t' sh' ht hm =>
    refine Or.inl ?_
    obtain ⟨ctl, use⟩ := t
    cases hm with
    | ctl a ctl' use' sh' hu hctl =>
      cases hctl with
      | write c c' use1 sh1 hc =>
        obtain rfl : use = none := hu
        obtain ⟨c1, use2, sh2, hstep, heq⟩ := State.step_write ht h
        rw [heq]
        exact ⟨i, _, _, ht, rfl, fun ch => (WriteCall.step_turns hstep).line⟩
      | close c c' use1 sh1 hc | read c c' use1 sh1 hc | «open» c c' use1 sh1 hc | holder c c' use1 sh1 hc
      | listen c c' use1 sh1 hc | reader c c' use1 sh1 hc => exact ⟨i, _, _, ht, rfl, fun ch => .same hc.lines rfl⟩
    | more u a u' sh' hu hm => exact ⟨i, _, _, ht, rfl, fun ch => .same hm.lines rfl⟩
    | ended u a r sh' hu hm =>
      refine ⟨i, _, _, ht, rfl, fun ch => .same ?_ (Ctl.stand_resume ctl r _ _ sh')⟩
      rw [State.set_sh, Ctl.resume_lines]
      exact hm.lines
    | cancel u ctl' sh' hu hc hd => exact ⟨i, _, _, ht, rfl, fun ch => .same (Use.drop_lines hd) (Ctl.stand_cancel hc)⟩
    | drop u ctl' sh' hu hc hd => exact ⟨i, _, _, ht, rfl, fun ch => .same (Use.drop_lines hd) (Ctl.stand_drop hc)⟩
    | dropIdle ctl' hu hc => exact ⟨i, _, _, ht, rfl, fun ch => .same (.refl _) (Ctl.stand_drop hc)⟩
    | begin c call c' hu hctl _ =>
      obtain rfl : ctl = .reader c := hctl
      exact ⟨i, _, _, ht, rfl, fun ch => .same (.refl _) rfl⟩
    | decide c accept hu hctl _ =>
      obtain rfl : ctl = .holder c := hctl
      exact ⟨i, _, _, ht, rfl, fun ch => .same (.refl _) rfl⟩
    | dropReader c hu hctl _ =>
      obtain rfl : ctl = .reader c := hctl
      exact ⟨i, _, _, ht, rfl, fun ch => .same (.refl _) rfl⟩
  | call c =>
    refine Or.inr ⟨rfl, fun ch => placeOf_append ?_⟩
    cases c with
    | write ch' data =>
      rw [AppCall.start, Task.stand_write]
      split_ifs <;> rfl
    | _ => rfl
  | handOver i t hd ctl' ht hu hh =>
    refine Or.inr ⟨rfl, fun ch => ?_⟩
    obtain ⟨ctl, use⟩ := t
    obtain ⟨hp, hf⟩ := @placeOf_same ⟨ctl, use⟩ ⟨ctl', none⟩ i ch s.tasks ht (Ctl.stand_handOver hh)
    obtain ⟨hp', hf'⟩ := @placeOf_append ⟨.holder ⟨hd, .held⟩, none⟩ ch (s.tasks.set i ⟨ctl', none⟩) rfl
    exact ⟨hp'.trans hp, hf'.trans hf⟩
  | listeners e n he => exact Or.inr ⟨rfl, fun _ => ⟨rfl, rfl⟩⟩

end Events

/-! ## Over a whole run -/

/-- The task is a `write_channel` call on `ch` with its `QueueGuard` alive. -/
def Task.Queued (ch : ChannelId) (t : Task) : Prop :=
  ∃ c place, t.ctl = .write c ∧ c.ch = ch ∧ c.pc.place = some place

/-- The task is a `write_channel` call on `ch` with its `CreditGuard` alive. -/
def Task.Reserved (ch : ChannelId) (t : Task) : Prop :=
  ∃ c credit, t.ctl = .write c ∧ c.ch = ch ∧ c.pc.credit = some credit

section Run

variable {ch : ChannelId} {s s' : State} {t : Task} {e : Event}

theorem Task.writes_eq_some {c : WriteCall} : t.writes ch = some c ↔ t.ctl = .write c ∧ c.ch = ch := by
  unfold Task.writes
  constructor
  · intro h
    split at h
    · rename_i c' hctl
      split_ifs at h with hch
      cases h
      exact ⟨hctl, hch⟩
    · cases h
  · rintro ⟨hctl, hch⟩
    rw [hctl]
    exact if_pos hch

theorem Task.queued_iff : t.Queued ch ↔ ∃ p, (t.stand ch).1 = some p := by
  unfold Task.stand
  constructor
  · rintro ⟨c, place, hctl, hch, hplace⟩
    rw [Task.writes_eq_some.mpr ⟨hctl, hch⟩]
    exact ⟨place, hplace⟩
  · rintro ⟨p, hp⟩
    cases hw : t.writes ch with
    | none =>
      rw [hw] at hp
      cases hp
    | some c =>
      rw [hw] at hp
      obtain ⟨hctl, hch⟩ := Task.writes_eq_some.mp hw
      exact ⟨c, p, hctl, hch, hp⟩

theorem Task.reserved_iff : t.Reserved ch ↔ (t.stand ch).2 = true := by
  unfold Task.stand
  constructor
  · rintro ⟨c, credit, hctl, hch, hcredit⟩
    rw [Task.writes_eq_some.mpr ⟨hctl, hch⟩]
    exact Option.isSome_iff_exists.mpr ⟨credit, hcredit⟩
  · intro h
    cases hw : t.writes ch with
    | none =>
      rw [hw] at h
      cases h
    | some c =>
      rw [hw] at h
      obtain ⟨hctl, hch⟩ := Task.writes_eq_some.mp hw
      obtain ⟨credit, hcredit⟩ := Option.isSome_iff_exists.mp h
      exact ⟨c, credit, hctl, hch, hcredit⟩

/-- Every channel's queue knows its writers. -/
def Lined (s : State) : Prop :=
  ∀ ch slot, s.sh.channels.get ch = some slot → Held slot.sendQueue (placeOf ch s.tasks) (inFlight ch s.tasks)

/-- A channel on which nobody has a guard. -/
theorem Held.unused (hnone : ∀ t ∈ s.tasks, ¬ (t.Queued ch ∨ t.Reserved ch)) :
    Held .empty (placeOf ch s.tasks) (inFlight ch s.tasks) := by
  have hflight : inFlight ch s.tasks = 0 := by
    unfold inFlight total
    rw [List.sum_eq_zero_iff]
    intro n hn
    obtain ⟨t, ht, rfl⟩ := List.mem_map.mp hn
    have hfree : (t.stand ch).2 = false :=
      Bool.eq_false_iff.mpr fun hres => hnone t ht (Or.inr (Task.reserved_iff.mpr hres))
    rw [hfree]
    rfl
  rw [hflight]
  refine Held.empty fun i => ?_
  unfold placeOf
  cases ht : s.tasks[i]? with
  | none => rfl
  | some t =>
    rw [Option.bind_some]
    by_contra hne
    obtain ⟨p, hp⟩ := Option.ne_none_iff_exists'.mp hne
    exact hnone t (List.mem_of_getElem? ht) (Or.inl (Task.queued_iff.mpr ⟨p, hp⟩))

variable [Usize] {ng : Negotiated}

/-- The event puts a channel under a `ChannelId` on which a call of an earlier channel still has a guard. -/
def Reuses (ng : Negotiated) (s : State) (e : Event) : Prop :=
  ∃ s' ch, s.step ng e = some s' ∧ s.sh.channels.get ch = none ∧ (s'.sh.channels.get ch).isSome ∧
    ∃ t ∈ s.tasks, t.Queued ch ∨ t.Reserved ch

/-- **One step.** -/
theorem Lined.step (h : Lined s) (hno : ¬ Reuses ng s e) (hs : s.step ng e = some s') : Lined s' := by
  intro ch slot' hget'
  rcases State.step_line hs with ⟨i, t, t', ht, htasks, hline⟩ | ⟨hchannels, hplaces⟩
  · rcases hline ch slot' hget' with ⟨slot, hget, hturn⟩ | ⟨hnone, hq, -, hstand⟩
    · have hplace : placeOf ch s.tasks i = (t.stand ch).1 := by
        unfold placeOf
        rw [ht]
        rfl
      rw [htasks, placeOf_set ht]
      exact (h ch slot hget).turn hplace hturn (inFlight_set ht)
    · -- a new channel: its id was not in use
      obtain ⟨hp, hf⟩ := @placeOf_same t t' i ch s.tasks ht hstand
      rw [htasks, hp, hf, hq]
      refine Held.unused fun t1 ht1 hguard => hno ⟨s', ch, hs, hnone, ?_, t1, ht1, hguard⟩
      rw [hget']
      rfl
  · rw [hchannels] at hget'
    rw [(hplaces ch).1, (hplaces ch).2]
    exact h ch slot' hget'

/-- `waits_for_credit`, where the queue knows its writers. -/
theorem Lined.waitsForCredit (h : Lined s) : s.sh.waitsForCredit ch = true ↔
    ∃ slot, s.sh.channels.get ch = some slot ∧ slot.isClosed = false ∧ slot.budget = none ∧
      (∃ t ∈ s.tasks, t.Queued ch) ∧ ∀ t ∈ s.tasks, ¬ t.Reserved ch := by
  unfold Shared.waitsForCredit
  cases hget : s.sh.channels.get ch with
  | none => simp
  | some slot =>
    have hheld := h ch slot hget
    have hqueued : slot.sendQueue.isEmpty = false ↔ ∃ t ∈ s.tasks, t.Queued ch := by
      rw [← Bool.not_eq_true, hheld.sound.isEmpty_iff]
      constructor
      · intro hsome
        push Not at hsome
        obtain ⟨p, hp⟩ := hsome
        obtain ⟨i, hi⟩ := (hheld.waits p).mp hp
        obtain ⟨t, ht, hstand⟩ := Option.bind_eq_some_iff.mp hi
        exact ⟨t, List.mem_of_getElem? ht, Task.queued_iff.mpr ⟨p, hstand⟩⟩
      · rintro ⟨t, ht, hq⟩ hnone
        obtain ⟨p, hp⟩ := Task.queued_iff.mp hq
        obtain ⟨i, hi⟩ := List.getElem?_of_mem ht
        exact hnone p ((hheld.waits p).mpr ⟨i, Option.bind_eq_some_iff.mpr ⟨t, hi, hp⟩⟩)
    have hflight : slot.sendQueue.isSending = false ↔ ∀ t ∈ s.tasks, ¬ t.Reserved ch := by
      unfold SendQueue.isSending
      rw [decide_eq_false_iff_not, hheld.sending, not_lt, Nat.le_zero]
      unfold inFlight total
      rw [List.sum_eq_zero_iff, List.forall_mem_map]
      refine forall₂_congr fun t _ => ?_
      rw [Task.reserved_iff]
      cases (t.stand ch).2 <;> simp
    constructor
    · intro hw
      dsimp only at hw
      split_ifs at hw with hstop
      rw [Bool.or_eq_true, not_or] at hstop
      rw [Bool.and_eq_true, Bool.not_eq_true', Bool.not_eq_true'] at hw
      exact ⟨slot, rfl, Bool.eq_false_iff.mpr hstop.1, by simpa using hstop.2, hqueued.mp hw.1, hflight.mp hw.2⟩
    · rintro ⟨slot1, ⟨⟩, hclosed, hbudget, hq, hr⟩
      dsimp only
      rw [hclosed, hbudget, hqueued.mpr hq, hflight.mpr hr]
      rfl

/-! ### The table a `Connection` hands over -/

/-- Nobody stands in line. -/
def Unlined (t : ChannelTable) : Prop := ∀ idx slot, t.at? idx = some slot → slot.sendQueue = .empty

theorem tableStep_lines {h h' : TableHistory} {op : TableOp} (hs : h.step op = some h') :
    SameLines h.table h'.table := by
  have hinsert : ∀ {fill : ChannelTable → ChannelId → ChannelTable},
      (∀ t ch, ∃ slot : ChannelSlot, slot.sendQueue = .empty ∧ slot.localId = ch.localId ∧
        fill t ch = t.put ch.slot (some slot)) → SameLines h.table (h.insert fill).table := by
    intro fill hfill
    unfold TableHistory.insert
    split
    · exact .refl _
    · rename_i ch t halloc
      obtain ⟨slot, hq, hid, heq⟩ := hfill t ch
      show SameLines h.table (fill t ch)
      rw [heq]
      exact .filled halloc hq hid
  cases op with
  | «open» | accept remote credit =>
    cases hs
    exact hinsert fun t ch => ⟨_, rfl, rfl, rfl⟩
  | free ch =>
    cases hs
    have hfreed := @SameLines.freed h.table ch
    unfold TableHistory.release
    unfold ChannelTable.freed at hfreed
    cases hfree : h.table.free ch with
    | none => exact .refl _
    | some p =>
      rw [hfree] at hfreed
      exact hfreed
  | dispatch pkt =>
    cases hs
    exact .dispatches (h.table.dispatch_spec pkt)

theorem Unlined.run {len : ℕ} {policy : RxPolicy} {ops : List TableOp} {h : TableHistory}
    (hrun : Runs.Run TableHistory.step Runs.Any (TableHistory.start len policy) ops h) : Unlined h.table := by
  refine hrun.invariant (I := fun h => Unlined h.table) (fun idx slot hat => ?_) fun a op b ha _ hs => ?_
  · simp [TableHistory.start, ChannelTable.new, ChannelTable.at?, List.getElem?_replicate] at hat
    split_ifs at hat <;> cases hat
  · intro idx slot hat
    rcases tableStep_lines hs idx slot hat with ⟨slot0, hat0, -, hq⟩ | ⟨-, hq, -⟩
    · rw [hq]
      exact ha idx slot0 hat0
    · exact hq

omit [Usize] in
theorem Lined.start {table : ChannelTable} (h : Unlined table) (incoming : IncomingQueue) (desync : Bool) :
    Lined (State.start table incoming desync) := by
  intro ch slot hget
  rw [h _ _ (ChannelTable.get_eq_some.mp hget).1]
  refine Held.unused fun t ht hguard => ?_
  obtain rfl : t = ⟨.reader .fresh, none⟩ := List.mem_singleton.mp ht
  rcases hguard with ⟨c, -, hctl, -⟩ | ⟨c, -, hctl, -⟩ <;> cases hctl

/-- **The credit queue is fair, and `waits_for_credit` says what it says**: in every run of queue operations, and in
every state of a split connection none of whose channels took over the `ChannelId` of one that still has writers. -/
theorem credit_queue_fair (ng : Negotiated) :
    (∀ (ops : List Line.Op) (l : Line), Runs.exec Line.step Line.start ops = some l →
      (∀ p, (∃ who, (who, p) ∈ l.waiting) ↔ l.queue.head ≤ p ∧ p < l.queue.tail ∧ p ∉ l.queue.gone) ∧
      (∀ w rest, l.waiting = w :: rest → l.queue.turn = w.2 ∧ ∀ w' ∈ rest, w.1 < w'.1) ∧
      (l.queue.isEmpty = true ↔ l.waiting = []) ∧
      (l.served.Pairwise (· < ·) ∧ ∀ n ∈ l.served, ∀ w ∈ l.waiting, n < w.1) ∧
      (l.waiting.map Prod.snd).Nodup ∧
      (∀ g ∈ l.queue.gone, l.queue.head < g ∧ g < l.queue.tail) ∧
      (l.queue.isSending = true ↔ 0 < l.unfinished) ∧
      (l.issued < 2 ^ 64 → l.queue.head < 2 ^ 64 ∧ l.queue.tail < 2 ^ 64 ∧ l.queue.sending = l.unfinished)) ∧
    (∀ (len : ℕ) (policy : RxPolicy) (ops : List TableOp) (h : TableHistory) (incoming : IncomingQueue) (desync : Bool)
      (es : List Event) (s : State),
      Runs.Run TableHistory.step Runs.Any (TableHistory.start len policy) ops h →
      Runs.Run (State.step ng) (fun a e => ¬ Reuses ng a e) (State.start h.table incoming desync) es s →
      ∀ ch, s.sh.waitsForCredit ch = true ↔
        ∃ slot, s.sh.channels.get ch = some slot ∧ slot.isClosed = false ∧ slot.budget = none ∧
          (∃ t ∈ s.tasks, t.Queued ch) ∧ ∀ t ∈ s.tasks, ¬ t.Reserved ch) := by
  constructor
  · intro ops l hrun
    have hinv := Line.Inv.run hrun
    exact ⟨fun p => (hinv.places p).symm, fun w rest => hinv.turn, hinv.isEmpty, ⟨hinv.fair, hinv.before⟩,
      hinv.nodup, hinv.sound.gone, hinv.isSending, hinv.no_overflow⟩
  · intro len policy ops h incoming desync es s htable hrun ch
    have hlined : Lined s := hrun.invariant (.start (.run htable) incoming desync)
      fun _ _ _ ha hno hs => ha.step hno hs
    exact hlined.waitsForCredit

end Run

/-! ### One writer, and one that comes after it -/

/-- A writer that finds no credit. -/
def parks : List Event :=
  [.call (.write ⟨0, ⟨1⟩⟩ [7]), .step 1 .go, .step 1 .go, .step 1 .go, .step 1 .go, .step 1 .go]

/-- Whether the channels are the same after the step, by their ids. -/
def keepsIds (s : State) (e : Event) : Bool :=
  (@State.step usize64 sampleNegotiated s e).all fun b =>
    b.sh.channels.slots.map (Option.map ChannelSlot.localId) = s.sh.channels.slots.map (Option.map ChannelSlot.localId)

theorem not_reuses_of_keepsIds {s : State} {e : Event} (h : keepsIds s e = true) :
    ¬ @Reuses usize64 sampleNegotiated s e := by
  rintro ⟨s', ch, hs, hnone, hsome, -⟩
  unfold keepsIds at h
  rw [hs, Option.all_some, decide_eq_true_iff] at h
  have hid : s'.sh.channels.idAt ch.slot = s.sh.channels.idAt ch.slot := by
    have := congrArg (fun l => (l[ch.slot]?).join) h
    simpa [ChannelTable.idAt, ChannelTable.at?, Option.join_map_eq_map_join] using this
  rw [ChannelTable.get_isSome_iff, hid, ← ChannelTable.get_isSome_iff, hnone] at hsome
  cases hsome

set_option maxRecDepth 20000 in
theorem credit_queue_fair_parked :
    (∃ l, Runs.exec Line.step Line.start [.enqueue, .enqueue, .leave 1, .enqueue, .serve 0] = some l ∧
      l.waiting = [(2, 1)] ∧ l.queue.turn = 1) ∧
    ∃ s, Runs.exec (Runs.guarded (@State.step usize64 sampleNegotiated) keepsIds) (State.start sampleTable [] false)
        parks = some s ∧ @Shared.waitsForCredit usize64 s.sh ⟨0, ⟨1⟩⟩ = true ∧ ∃ t ∈ s.tasks, t.Queued ⟨0, ⟨1⟩⟩ := by
  obtain ⟨hqueue, hsystem⟩ := @credit_queue_fair usize64 sampleNegotiated
  have hturn : ∀ l, Runs.exec Line.step Line.start [.enqueue, .enqueue, .leave 1, .enqueue, .serve 0] = some l →
      l.waiting = [(2, 1)] → l.queue.turn = 1 := fun l hrun hw => ((hqueue _ l hrun).2.1 _ _ hw).1
  have hwaits : ∀ s, Runs.exec (Runs.guarded (@State.step usize64 sampleNegotiated) keepsIds)
      (State.start sampleTable [] false) parks = some s →
      @Shared.waitsForCredit usize64 s.sh ⟨0, ⟨1⟩⟩ = true → ∃ t ∈ s.tasks, t.Queued ⟨0, ⟨1⟩⟩ := by
    intro s hrun hw
    obtain ⟨slot, -, -, -, hq, -⟩ := (hsystem 2 (@Negotiated.rxPolicy usize64 sampleNegotiated) [.accept ⟨9⟩ 0]
      ⟨sampleTable, [], 1⟩ [] false _ s (.of_exec rfl)
      (Runs.Run.of_guarded (fun _ _ => not_reuses_of_keepsIds) hrun) ⟨0, ⟨1⟩⟩).mp hw
    exact hq
  exact ⟨⟨_, rfl, rfl, hturn _ rfl rfl⟩, _, rfl, rfl, hwaits _ rfl rfl⟩

/-- The writer waits, its channel is closed, an `open_channel` is given the same `ChannelId`, another writer waits on
the new channel, and the first one is dropped. -/
def outlived : List Event :=
  parks ++ [.call (.close ⟨0, ⟨1⟩⟩), .step 2 .go, .step 2 .go,
    .call (.«open» []), .step 3 .go, .step 3 .go,
    .call (.write ⟨0, ⟨1⟩⟩ [8]), .step 4 .go, .step 4 .go, .step 4 .go, .step 4 .go, .step 4 .go,
    .drop 1, .step 1 .go]

theorem not_reserved_of_all {tasks : List Task} {ch : ChannelId} (h : (tasks.all fun t => !(t.stand ch).2) = true) :
    ∀ t ∈ tasks, ¬ t.Reserved ch := by
  intro t ht hres
  have hnone := List.all_eq_true.mp h t ht
  rw [Task.reserved_iff.mp hres] at hnone
  cases hnone

/-- The table of `sampleTable` when the local ids have come round. -/
def roundTable : ChannelTable := { sampleTable with nextLocalId := 1 }

/-- The local ids come round while the channel stays open. -/
theorem roundTable_reached : ∃ ops h, Runs.Run (@TableHistory.step usize64) Runs.Any
    (TableHistory.start 2 (@Negotiated.rxPolicy usize64 sampleNegotiated)) ops h ∧ h.table = roundTable := by
  let policy := @Negotiated.rxPolicy usize64 sampleNegotiated
  let a : ChannelSlot := ChannelSlot.accepted ⟨⟨1⟩, ⟨9⟩⟩ 0 policy
  have hfirst : Runs.Run (@TableHistory.step usize64) Runs.Any (TableHistory.start 2 policy) [.accept ⟨9⟩ 0]
      ⟨⟨[some a, none], 2, policy⟩, [], 1⟩ := .of_exec rfl
  obtain ⟨ops, s1, n1, hrun, hs1, hn1⟩ := @TableHistory.idCycles_run ⟨⟨[some a, none], 2, policy⟩, [], 1⟩ a 2
    policy usize64 (2 ^ 32 - 3) rfl (by decide)
  have hmax : n1 = 2 ^ 32 - 1 := UInt32.toNat_inj.mp (by rw [hn1]; rfl)
  obtain ⟨s2, hexec, hs2⟩ := @TableHistory.idCycle_exec s1 a n1 policy usize64 hs1
  have hone : ChannelTable.nextId n1 = 1 := by rw [hmax]; decide
  rw [hone] at hs2
  exact ⟨_, s2, (hfirst.append hrun).append (.of_exec hexec), hs2⟩

set_option maxRecDepth 20000 in
/-- The old writer leaves the new channel's queue, in the place of the one that waits there. -/
theorem waits_for_credit_misled :
    (∃ ops h, Runs.Run (@TableHistory.step usize64) Runs.Any
        (TableHistory.start 2 (@Negotiated.rxPolicy usize64 sampleNegotiated)) ops h ∧ h.table = roundTable) ∧
    ∃ s, Runs.exec (@State.step usize64 sampleNegotiated) (State.start roundTable [] false) outlived = some s ∧
      (∃ slot, s.sh.channels.get ⟨0, ⟨1⟩⟩ = some slot ∧ slot.isClosed = false ∧ @ChannelSlot.budget usize64 slot = none) ∧
      (∃ t ∈ s.tasks, t.Queued ⟨0, ⟨1⟩⟩) ∧ (∀ t ∈ s.tasks, ¬ t.Reserved ⟨0, ⟨1⟩⟩) ∧
      @Shared.waitsForCredit usize64 s.sh ⟨0, ⟨1⟩⟩ = false := by
  refine ⟨roundTable_reached, _, rfl, ⟨_, rfl, rfl, rfl⟩, ?_, not_reserved_of_all rfl, rfl⟩
  exact ⟨⟨.write ⟨⟨0, ⟨1⟩⟩, [8], 0, .parked 0 0⟩, none⟩, List.mem_of_getElem? (i := 4) rfl, _, 0, rfl, rfl, rfl⟩

end LibAdb.Split
