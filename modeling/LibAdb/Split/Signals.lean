import LibAdb.Split.System

/-!
# LibAdb.Split.Signals — what a step tells those who wait at a channel

`Tells` says what a step of any task owes to those who wait at a channel: the signal of its slot is woken, or the
channel is no readier than before (`NoReadier`); and who waits is woken when the connection ends.

Three steps tell nobody.  `close_channel` frees its slot before it wakes (`WillWake`).  The guard of an `open_channel`
and of an accept frees a slot whose `ChannelId` nobody was given, and `Reader::open_channel` takes the READY for it
(`Guards`).
-/

namespace LibAdb

/-! ## Slots -/

namespace ChannelSlot

variable [Usize] {s s' s'' : ChannelSlot}

/-- Nobody who waits at the slot gets on by the change. -/
structure NoReadier (s s' : ChannelSlot) : Prop where
  state : s'.state = s.state
  data : s.hasData = false → s'.hasData = false
  line : s'.budget = none ∨ s'.budget = s.budget ∧ s'.sendQueue.turn = s.sendQueue.turn

namespace NoReadier

theorem refl (s : ChannelSlot) : NoReadier s s := ⟨rfl, id, .inr ⟨rfl, rfl⟩⟩

theorem trans (h : NoReadier s s') (h' : NoReadier s' s'') : NoReadier s s'' := by
  refine ⟨h'.state.trans h.state, fun hd => h'.data (h.data hd), ?_⟩
  rcases h'.line with hnone | ⟨hbudget, hturn⟩
  · exact .inl hnone
  · rcases h.line with hnone | ⟨hbudget1, hturn1⟩
    · exact .inl (hbudget.trans hnone)
    · exact .inr ⟨hbudget.trans hbudget1, hturn.trans hturn1⟩

theorem queue (s : ChannelSlot) {q : SendQueue} (h : q.turn = s.sendQueue.turn) :
    NoReadier s { s with sendQueue := q } := ⟨rfl, id, .inr ⟨rfl, h⟩⟩

theorem settles {want : ℕ} {a : PendingAck} (h : s.settleTake want = some (a, s')) : NoReadier s s' := by
  obtain ⟨-, -, -, rfl⟩ := settleTake_some h
  exact ⟨rfl, id, .inr ⟨rfl, rfl⟩⟩

theorem takes {buf : ℕ} {out : Bytes} (h : s.takeBuffered buf = .ok (some (out, s'))) : NoReadier s s' := by
  obtain ⟨hdata, -, -, rfl⟩ := takeBuffered_some h
  exact ⟨rfl, fun hno => absurd (hno.symm.trans hdata) Bool.false_ne_true, .inr ⟨rfl, rfl⟩⟩

end NoReadier

end ChannelSlot

namespace Split

open ChannelTable

/-! ## What a step tells those who wait -/

/-- How often the signal of a slot was woken. -/
def Shared.woken (sh : Shared) (idx : ℕ) : ℕ := sh.signals.getD idx 0

/-- What a step owes to those who wait at channels other than `but`. -/
structure Tells [Usize] (but : Option ChannelId) (sh sh' : Shared) : Prop where
  signals : sh'.signals.length = sh.signals.length
  slots : sh'.channels.len = sh.channels.len
  count : ∀ idx, sh.woken idx ≤ sh'.woken idx
  live : sh.checkLive = none → sh'.checkLive = none ∨ ∀ idx < sh.signals.length, sh.woken idx < sh'.woken idx
  channel : ∀ ch slot, some ch ≠ but → sh.channels.get ch = some slot → ch.slot < sh.signals.length →
    sh.woken ch.slot < sh'.woken ch.slot ∨ ∃ slot', sh'.channels.get ch = some slot' ∧ slot.NoReadier slot'

namespace Tells

variable [Usize] {but : Option ChannelId} {sh sh' sh'' : Shared} {idx : ℕ} {slot slot' : ChannelSlot}

theorem same (hsignals : sh'.signals = sh.signals) (hchannels : sh'.channels = sh.channels)
    (hlive : sh'.checkLive = sh.checkLive) : Tells but sh sh' := by
  refine ⟨by rw [hsignals], by rw [hchannels], fun idx => ?_, fun h => .inl (hlive.trans h), fun ch slot _ hget _ => ?_⟩
  · rw [Shared.woken, Shared.woken, hsignals]
  · exact .inr ⟨slot, by rw [hchannels, hget], .refl slot⟩

theorem refl (sh : Shared) : Tells but sh sh := same rfl rfl rfl

theorem trans (h : Tells but sh sh') (h' : Tells but sh' sh'') : Tells but sh sh'' := by
  refine ⟨h'.signals.trans h.signals, h'.slots.trans h.slots, fun idx => (h.count idx).trans (h'.count idx),
    fun hlive => ?_, fun ch slot hne hget hlt => ?_⟩
  · rcases h.live hlive with hlive' | hall
    · rcases h'.live hlive' with hlive'' | hall
      · exact .inl hlive''
      · exact .inr fun idx hlt => (h.count idx).trans_lt (hall idx (h.signals ▸ hlt))
    · exact .inr fun idx hlt => (hall idx hlt).trans_le (h'.count idx)
  · rcases h.channel ch slot hne hget hlt with hwoken | ⟨slot1, hget1, hno⟩
    · exact .inl (hwoken.trans_le (h'.count _))
    · rcases h'.channel ch slot1 hne hget1 (h.signals ▸ hlt) with hwoken | ⟨slot2, hget2, hno2⟩
      · exact .inl ((h.count _).trans_lt hwoken)
      · exact .inr ⟨slot2, hget2, hno.trans hno2⟩

omit [Usize] in
theorem woken_wake (sh : Shared) (idx j : ℕ) :
    (sh.wake idx).woken j = if j = idx ∧ j < sh.signals.length then sh.woken j + 1 else sh.woken j := by
  simp only [Shared.woken, Shared.wake, List.getD, List.getElem?_modify]
  by_cases hj : idx = j
  · subst hj
    by_cases hlt : idx < sh.signals.length
    · simp [hlt]
    · simp [hlt]
  · simp [hj, Ne.symm hj]

omit [Usize] in
theorem woken_wakeAll (sh : Shared) (j : ℕ) (h : j < sh.signals.length) : sh.wakeAll.woken j = sh.woken j + 1 := by
  simp [Shared.woken, Shared.wakeAll, List.getD, h]

/-- A wake, after any change to the slot it is for. -/
theorem wakes (hsignals : sh'.signals = sh.signals) (hslots : sh'.channels.len = sh.channels.len)
    (hlive : sh'.checkLive = sh.checkLive)
    (hother : ∀ ch : ChannelId, ch.slot ≠ idx → sh'.channels.get ch = sh.channels.get ch) :
    Tells but sh (sh'.wake idx) := by
  have hwoken : ∀ j, sh'.woken j = sh.woken j := fun j => by rw [Shared.woken, Shared.woken, hsignals]
  refine ⟨?_, hslots, fun j => ?_, fun h => .inl (hlive.trans h), fun ch slot _ hget hlt => ?_⟩
  · rw [Shared.wake, List.length_modify, hsignals]
  · rw [woken_wake, hwoken]
    split_ifs <;> omega
  · by_cases hidx : ch.slot = idx
    · refine .inl ?_
      rw [woken_wake, if_pos ⟨hidx, hsignals ▸ hlt⟩, hwoken]
      omega
    · exact .inr ⟨slot, (hother ch hidx).trans hget, .refl slot⟩

theorem wake (sh : Shared) (idx : ℕ) : Tells but sh (sh.wake idx) := wakes rfl rfl rfl fun _ _ => rfl

/-- Everybody is woken: what happened before does not matter. -/
theorem wakesAll (hsignals : sh'.signals = sh.signals) (hchannels : sh'.channels = sh.channels) :
    Tells but sh sh'.wakeAll := by
  have hbump : ∀ j < sh.signals.length, sh.woken j < sh'.wakeAll.woken j := by
    intro j hlt
    rw [woken_wakeAll _ _ (hsignals ▸ hlt), Shared.woken, Shared.woken, hsignals]
    omega
  refine ⟨?_, by rw [Shared.wakeAll, hchannels], fun j => ?_, fun _ => .inr hbump,
    fun ch slot _ _ hlt => .inl (hbump _ hlt)⟩
  · rw [Shared.wakeAll, List.length_map, hsignals]
  · by_cases hlt : j < sh.signals.length
    · exact (hbump j hlt).le
    · rw [Shared.woken, List.getD_eq_default _ _ (Nat.le_of_not_lt hlt)]
      exact Nat.zero_le _

theorem put (hat : sh.channels.at? idx = some slot) (hid : slot'.localId = slot.localId) (hno : slot.NoReadier slot') :
    Tells but sh { sh with channels := sh.channels.put idx (some slot') } := by
  refine ⟨rfl, by simp [ChannelTable.len, ChannelTable.put], fun _ => le_rfl, fun h => .inl h,
    fun ch slot1 _ hget _ => .inr ?_⟩
  show ∃ slot'', (sh.channels.put idx (some slot')).get ch = some slot'' ∧ _
  rw [ChannelTable.get_put hat hid]
  split_ifs with hidx
  · subst hidx
    rw [hget]
    rw [(get_eq_some.mp hget).1] at hat
    cases hat
    exact ⟨slot', rfl, hno⟩
  · exact ⟨slot1, hget, .refl slot1⟩

theorem put_wake (v : Option ChannelSlot) (idx : ℕ) :
    Tells but sh ({ sh with channels := sh.channels.put idx v }.wake idx) :=
  wakes rfl (by simp [ChannelTable.len, ChannelTable.put]) rfl fun _ hne => get_put_ne _ hne

/-- A slot is taken and filled. -/
theorem fill {ch : ChannelId} {t : ChannelTable} (h : sh.channels.allocate = some (ch, t)) (v : Option ChannelSlot) :
    Tells but sh { sh with channels := t.put ch.slot v } := by
  obtain ⟨-, -, hslots, -, -⟩ := allocate_spec h
  refine ⟨rfl, by simp [ChannelTable.len, ChannelTable.put, hslots], fun _ => le_rfl, fun h => .inl h,
    fun ch' slot' _ hget _ => .inr ⟨slot', get_filled h hget v, .refl slot'⟩⟩

omit [Usize] in
/-- Two handles to one slot are one. -/
theorem eq_of_get {t : ChannelTable} {ch ch' : ChannelId} (h : t.get ch = some slot) (h' : t.get ch' = some slot')
    (hslot : ch'.slot = ch.slot) : ch' = ch := by
  obtain ⟨hat, hid⟩ := get_eq_some.mp h
  obtain ⟨hat', hid'⟩ := get_eq_some.mp h'
  rw [hslot, hat] at hat'
  cases hat'
  obtain ⟨i, l⟩ := ch
  obtain ⟨i', l'⟩ := ch'
  simp only at hslot hid hid'
  rw [hslot, ← hid', hid]

/-- A slot is freed. -/
theorem freed (sh : Shared) (ch : ChannelId) : Tells (some ch) sh { sh with channels := sh.channels.freed ch } := by
  refine ⟨rfl, ?_, fun _ => le_rfl, fun h => .inl h, fun ch' slot' hne hget _ => .inr ⟨slot', ?_, .refl slot'⟩⟩
  · unfold ChannelTable.freed ChannelTable.free
    cases sh.channels.get ch <;> simp [ChannelTable.len, ChannelTable.put]
  · show (sh.channels.freed ch).get ch' = some slot'
    rw [get_freed]
    split_ifs with hboth
    · obtain ⟨hslot, hsome⟩ := hboth
      obtain ⟨slot, hget0⟩ := Option.isSome_iff_exists.mp hsome
      exact absurd (congrArg some (eq_of_get hget0 hget hslot)) hne
    · exact hget

/-- A slot changes, and nobody is told. -/
theorem put_but {ch : ChannelId} (hget : sh.channels.get ch = some slot) (v : Option ChannelSlot) :
    Tells (some ch) sh { sh with channels := sh.channels.put ch.slot v } := by
  refine ⟨rfl, by simp [ChannelTable.len, ChannelTable.put], fun _ => le_rfl, fun h => .inl h,
    fun ch' slot' hne hget' _ => .inr ⟨slot', ?_, .refl slot'⟩⟩
  have hslot : ch'.slot ≠ ch.slot := fun heq => hne (congrArg some (eq_of_get hget hget' heq))
  exact (get_put_ne v hslot).trans hget'

/-! ### The shared operations -/

theorem note (sh : Shared) (o : Obs) : Tells but sh (sh.note o) := same rfl rfl rfl

theorem owe (sh : Shared) (d : Owed) : Tells but sh (sh.owe d) := same rfl rfl rfl

theorem stop (sh : Shared) : Tells but sh sh.stop := wakesAll rfl rfl

theorem endStream (sh : Shared) : Tells but sh sh.endStream := wakesAll rfl rfl

theorem release (sh : Shared) : Tells but sh sh.release := by
  unfold Shared.release
  dsimp only
  split_ifs
  · exact wakesAll rfl rfl
  · exact same rfl rfl rfl

/-- The flag is set by a task that holds the write half, and everybody is woken when it lets go. -/
theorem desyncs (sh : Shared) : Tells but sh { sh with desync := true }.release := wakesAll rfl rfl

theorem writeFails (sh : Shared) (e : Error) : Tells but sh (sh.writeFailed e).release := by
  unfold Shared.writeFailed
  split_ifs
  · have hgone : Tells but sh { sh with gone := true } := same rfl rfl rfl
    exact hgone.trans (release _)
  · exact desyncs sh

theorem takeIncomingPast {cap : ℕ} {h : Holder} (ht : sh.takeIncomingPast cap = some (h, sh')) : Tells but sh sh' := by
  unfold Shared.takeIncomingPast at ht
  split_ifs at ht
  split at ht
  · cases ht
  · cases ht
    exact same rfl rfl rfl

theorem handOut {h : Holder} (ht : sh.handOut = some (h, sh')) : Tells but sh sh' := by
  obtain ⟨⟨h1, sh1⟩, hin, ⟨⟩⟩ := Option.map_eq_some_iff.mp ht
  exact (takeIncomingPast hin).trans (note _ _)

theorem queueIncoming {n : ℕ} {p : PendingOpen} (hq : sh.queueIncoming n p = some sh') : Tells but sh sh' := by
  unfold Shared.queueIncoming at hq
  split_ifs at hq
  cases hq
  exact same rfl rfl rfl

theorem withdrawOpen (sh : Shared) (remote : RemoteId) : Tells but sh (sh.withdrawOpen remote) := by
  unfold Shared.withdrawOpen
  split
  · rename_i idx channels hclose
    obtain ⟨slot, -, -, rfl⟩ := closeRemote_spec hclose
    exact put_wake _ idx
  · exact same rfl rfl rfl

theorem failChannel (sh : Shared) (idx : ℕ) (ids : ChannelIds) (fault : ChannelFault) :
    Tells but sh (sh.failChannel idx ids fault) := by
  unfold Shared.failChannel
  split
  · exact put_wake _ idx
  · exact refl sh

theorem dropSlot (sh : Shared) (ch : ChannelId) : Tells (some ch) sh (sh.dropSlot ch) := by
  unfold Shared.dropSlot
  split
  · exact refl sh
  · rename_i slot channels hfree
    have hfreed : sh.channels.freed ch = channels := by rw [ChannelTable.freed, hfree]
    have htells := freed sh ch
    rw [hfreed] at htells
    dsimp only
    split
    · exact htells.trans (owe _ _)
    · exact htells

theorem dropCredit (sh : Shared) (ch : ChannelId) (n : ℕ) (committed : Bool) :
    Tells but sh (sh.dropCredit ch n committed) := by
  unfold Shared.dropCredit
  cases hget : sh.channels.get ch with
  | none =>
    cases committed with
    | true => exact refl sh
    | false => exact wake sh _
  | some slot =>
    cases committed with
    | true => exact put (get_eq_some.mp hget).1 rfl (.queue slot rfl)
    | false => exact put_wake _ _

theorem leaveQueue (sh : Shared) (ch : ChannelId) (place : ℕ) : Tells but sh (sh.leaveQueue ch place) := by
  unfold Shared.leaveQueue
  split
  · rename_i slot hget
    cases hleave : slot.sendQueue.leave place with
    | mk moved q =>
      cases moved with
      | true => exact put_wake _ _
      | false =>
        refine put (get_eq_some.mp hget).1 rfl (.queue slot ?_)
        -- a place that is not the head leaves the head alone
        unfold SendQueue.leave at hleave
        split_ifs at hleave <;> cases hleave <;> rfl
  · exact refl sh

end Tells

/-! ## Every step tells -/

/-- The call has a slot whose `ChannelId` was not returned yet. -/
def Ctl.Guards (ctl : Ctl) (ch : ChannelId) : Prop :=
  match ctl with
  | .«open» c => c.pc.guards = some ch
  | .reader c => c.guard = some ch ∨ ∃ h, ReaderTask.Refusing h c.pc ∧ h.holder.reserved = some ch
  | .holder c => c.holder.reserved = some ch
  | _ => False

/-- `close_channel` has freed the slot and is about to wake. -/
def Ctl.WillWake (ctl : Ctl) (ch : ChannelId) : Prop := ∃ c ids, ctl = .close c ∧ c.pc = .owe ids ∧ c.ch = ch

section Steps

variable [Usize] {ng : Negotiated} {but : Option ChannelId} {sh sh' : Shared} {use : Option Use}

/-- A step of a call tells all but those at a slot it guards or is about to wake. -/
def TellsAll (ctl ctl' : Ctl) (sh sh' : Shared) : Prop :=
  ∃ but, Tells but sh sh' ∧ ∀ ch, but = some ch → ctl.Guards ch ∨ ctl'.WillWake ch

/-- Nobody is left out. -/
theorem Tells.nobody {P : ChannelId → Prop} (h : Tells none sh sh') :
    ∃ but, Tells but sh sh' ∧ ∀ ch, but = some ch → P ch := by
  refine ⟨none, h, fun ch hch => ?_⟩
  cases hch

theorem Tells.all {ctl ctl' : Ctl} (h : Tells none sh sh') : TellsAll ctl ctl' sh sh' := h.nobody

theorem WriteCall.tryReserve_tells {c : WriteCall} {place n : ℕ} (h : c.tryReserve ng place sh = .ok (some (n, sh'))) :
    Tells but sh sh' := by
  unfold WriteCall.tryReserve at h
  split at h
  · cases h
  · rename_i slot hget
    split_ifs at h
    · cases h
    split at h
    · cases h
    · rename_i n1 slot1 hres
      cases h
      have hid : slot1.localId = slot.localId ∧ slot1.state = slot.state ∧ slot1.hasData = slot.hasData := by
        obtain ⟨b, -, hspend⟩ := Option.map_eq_some_iff.mp hres
        cases hspend
        unfold ChannelSlot.spend
        split <;> exact ⟨rfl, rfl, rfl⟩
      split_ifs with hbudget
      · exact Tells.put_wake _ _
      · -- nobody is woken: there is no credit left
        refine Tells.put (get_eq_some.mp hget).1 hid.1 ⟨hid.2.1, fun hd => hid.2.2.trans hd, .inl ?_⟩
        simpa using hbudget

theorem WriteCall.step_tells {c c' : WriteCall} {a : Act} (h : c.step ng a sh = some (c', use, sh')) :
    Tells but sh sh' := by
  unfold WriteCall.step at h
  split at h
  · split at h <;> (cases h; exact .refl sh)
  · split_ifs at h
    · cases h
      exact .refl sh
    · split at h
      · cases h
        exact .refl sh
      · rename_i slot hget
        split_ifs at h
        · cases h
          exact .refl sh
        · cases h
          exact Tells.put (get_eq_some.mp hget).1 rfl (.queue slot rfl)
  · cases h
    exact .refl sh
  · split at h
    · cases h
      exact .refl sh
    · cases h
      exact .refl sh
    · rename_i n sh1 hres
      cases h
      exact tryReserve_tells hres
  · split at h <;> (cases h; exact .refl sh)
  · split_ifs at h
    cases h
    exact .refl sh
  · cases h
    exact .leaveQueue sh _ _
  · split at h <;> (cases h; exact .refl sh)
  · rename_i n committed r hpc
    dsimp only at h
    split_ifs at h <;> (cases h; exact .dropCredit sh _ _ _)
  · cases h

theorem CloseCall.Moves.tells {c c' : CloseCall} (h : c.Moves sh c' use sh') :
    TellsAll (.close c) (.close c') sh sh' := by
  cases h with
  | idle pc' h h' => exact (Tells.refl sh).all
  | frees ids hpc hids =>
    refine ⟨some c.ch, .freed sh c.ch, fun ch hch => .inr ⟨_, ids, rfl, rfl, ?_⟩⟩
    exact Option.some.inj hch
  | owes ids hpc => exact ((Tells.wake sh _).trans (.owe _ _)).all
  | locks hpc => exact (Tells.refl sh).all

theorem TakePc.Moves.tells {ch : ChannelId} {want : ℕ} {pc : TakePc} {next : TakeNext}
    (h : TakePc.Moves ch want sh pc next use sh') : Tells but sh sh' := by
  cases h with
  | takes slot slot' out hget hacks htake =>
    obtain ⟨-, -, hle, hslot'⟩ := ChannelSlot.takeBuffered_some htake
    exact (Tells.put (get_eq_some.mp hget).1 (by rw [hslot']) (.takes htake)).trans (.note _ _)
  | _ => exact .refl sh

theorem ReadCall.Moves.tells {c c' : ReadCall} (h : c.Moves sh c' use sh') : Tells but sh sh' := by
  cases h with
  | noSlot | dead => exact .note sh _
  | takes pc pc' use sh' hpc hm => exact hm.tells
  | fails pc e use sh1 hpc hm => exact hm.tells.trans (.note _ _)
  | empty pc use sh' hpc hm => exact hm.tells
  | returns pc out use sh' hpc hm => exact hm.tells
  | _ => exact .refl sh

theorem takeSlot_tells {destination : Bytes} {ch : ChannelId} {u : Use}
    (h : takeSlot ng destination sh = .ok (ch, u, sh')) : Tells but sh sh' := by
  unfold takeSlot at h
  split at h
  · cases h
  · rename_i ch1 channels halloc
    cases h
    exact .fill halloc _

theorem OpenCall.Moves.tells {c c' : OpenCall} (h : c.Moves ng sh c' use sh') :
    TellsAll (.«open» c) (.«open» c') sh sh' := by
  cases h with
  | takes ch u sh' hpc htake => exact (takeSlot_tells htake).all
  | opened => exact (Tells.note sh _).all
  | unguards ch r hpc =>
    have hguards : c.pc.guards = some ch := by rw [hpc]; rfl
    exact ⟨some ch, .dropSlot sh ch, fun ch1 hch => .inl (hguards.trans hch)⟩
  | _ => exact (Tells.refl sh).all

/-- A verdict tells all but those at the slot it has reserved. -/
theorem HolderCall.Moves.tells {c c' : HolderCall} (h : c.Moves ng sh c' use sh') :
    ∃ but, Tells but sh sh' ∧ ∀ ch, but = some ch → c.holder.reserved = some ch := by
  cases h with
  | reserves pending ch channels hpc hp hflag halloc => exact Tells.nobody (.fill halloc _)
  | frees r ch hpc hr => exact ⟨some ch, .freed sh ch, fun ch1 hch => hr.trans hch⟩
  | ends | returns => exact Tells.nobody (.same rfl rfl rfl)
  | _ => exact Tells.nobody (.refl sh)

theorem ListenCall.Moves.tells {c c' : ListenCall} (h : c.Moves sh c' use sh') : Tells but sh sh' := by
  cases h with
  | idle => exact .refl sh
  | takes h sh' hpc hout => exact .handOut hout

namespace ReaderTask

variable {c c' : ReaderTask}

theorem Says.tells (h : c.Says sh sh') : Tells but sh sh' := by
  rcases h with rfl | ⟨ch, want, e, -, rfl⟩
  · exact .refl _
  · exact .note sh _

/-- A packet for a slot, and the wake that goes with it. -/
theorem dispatched_tells (v : Option ChannelSlot) (idx : ℕ) (o : Obs) :
    Tells but sh (({ sh with channels := sh.channels.put idx v }.note o).wake idx) :=
  .wakes rfl (by simp [Shared.note, ChannelTable.len, ChannelTable.put]) rfl fun _ hne => get_put_ne _ hne

theorem dispatch_tells (c : ReaderTask) (pkt : Packet) (sh : Shared) : Tells but sh (c.dispatch pkt sh).2.2 := by
  have hd := dispatch_spec sh.channels pkt
  unfold ReaderTask.dispatch
  generalize sh.channels.dispatch pkt = r at hd ⊢
  obtain ⟨outcome, t'⟩ := r
  dsimp only at hd ⊢
  cases hd with
  | closesRemote | closes | acks | buffers | accepts | grants => exact dispatched_tells _ _ _
  | faults =>
    unfold ChannelTable.fault ReaderTask.actOn
    dsimp only
    split_ifs <;> exact .same rfl rfl rfl
  | _ => exact .same rfl rfl rfl

theorem receive_tells (c : ReaderTask) (pkt : Packet) (sh : Shared) :
    ∃ but, Tells but sh (c.receive pkt sh).2.2 ∧ ∀ ch, but = some ch → c.guard = some ch := by
  unfold ReaderTask.receive
  split
  · rename_i g hg
    split_ifs
    · refine ⟨some g, ?_, fun ch hch => hg.trans hch⟩
      unfold ReaderTask.openReady
      split
      · exact (Tells.note sh _).trans (.note _ _)
      · rename_i slot hget
        split
        · rename_i slot' happly
          obtain ⟨b, rfl⟩ := ChannelSlot.acceptOpenReady_ok happly
          exact ((Tells.put_but hget _).trans (.note _ _)).trans (.note _ _)
        · exact .note sh _
    · exact ((Tells.note sh _).trans (Says.leave c .channelClosed _).tells).nobody
    · exact (c.dispatch_tells pkt sh).nobody
  · exact (c.dispatch_tells pkt sh).nobody

theorem Moves.tells (h : c.Moves ng sh c' use sh') : TellsAll (.reader c) (.reader c') sh sh' := by
  cases h with
  | plain c' use sh' hl hl' huse hsaid => exact hsaid.tells.all
  | ends e sh' hpc hsaid => exact ((Tells.endStream sh).trans hsaid.tells).all
  | allocates destination ch u sh' hpc htake => exact (takeSlot_tells htake).all
  | takes ch want pc pc' d use sh' hcall hpc hm => exact hm.tells.all
  | taken ch want pc d r sh1 hcall hpc hm => exact (hm.tells.trans (c.taken_said d r sh1).2.2.tells).all
  | drains h sh' hpc htake | refuses h sh' hpc htake => exact (Tells.takeIncomingPast htake).all
  | handsOut h sh' hpc hcall htake => exact (Tells.handOut htake).all
  | inner h h' pc' use sh' hpc hpc' hm =>
    obtain ⟨but, htells, hbut⟩ := hm.tells
    exact ⟨but, htells, fun ch hch => .inl (.inr ⟨h, hpc, hbut ch hch⟩)⟩
  | refused h r c' sh' hpc hdone hl' hsaid => exact hsaid.tells.all
  | received pkt hpc =>
    obtain ⟨but, htells, hbut⟩ := c.receive_tells pkt sh
    exact ⟨but, htells, fun ch hch => .inl (.inl (hbut ch hch))⟩
  | fails => exact (Tells.failChannel sh _ _ _).all
  | owes => exact (Tells.owe sh _).all
  | queues pending sh' hpc hq => exact (Tells.queueIncoming hq).all
  | stages pending hpc =>
    have htells : Tells none sh (sh.holdIncoming pending).2 := .same rfl rfl rfl
    exact htells.all
  | withdraws => exact (Tells.withdrawOpen sh _).all
  | unguards ch hpc hguard =>
    exact ⟨some ch, .dropSlot sh ch, fun ch1 hch => .inl (.inl (hguard.trans hch))⟩
  | stops => exact (Tells.stop sh).all
  | _ => exact (Tells.refl sh).all

theorem resume_tells (c : ReaderTask) (r : Option Error) (sh : Shared) : Tells but sh (c.resume r sh).2 :=
  (c.resume_resumes r sh).2.tells

end ReaderTask

theorem Use.settled_tells {ch : ChannelId} {want : ℕ} {ack : PendingAck}
    (h : Use.settled sh ch want = some (ack, sh')) : Tells but sh sh' := by
  obtain ⟨s, s', hs1, hs2, rfl⟩ := Use.settled_some h
  obtain ⟨-, -, -, hs'⟩ := ChannelSlot.settleTake_some hs2
  exact (Tells.put (get_eq_some.mp hs1).1 (by rw [hs']) (.settles hs2)).trans (.note _ _)

theorem Use.Moves.tells {u : Use} {i : ℕ} {a : Act} {next : UseNext} (h : u.Moves ng i sh a next sh') :
    Tells but sh sh' := by
  cases h with
  | debtRefused => exact .release sh
  | debtFailed => exact .desyncs sh
  | flushed => exact (Tells.note sh _).trans (.release _)
  | failed pkt whole e hpc => exact .writeFails sh e
  | own _ _ hpc hown =>
    cases hown with
    | begun => exact .note sh _
    | okay ch' want ack sh1 hjob h1 hok => exact (Use.settled_tells h1).trans (.note _ _)
    | release | refused => exact .release sh
    | settled ch' want ack sh1 hjob h1 => exact (Use.settled_tells h1).trans (.release _)
  | _ => exact .same rfl rfl rfl

theorem Use.drop_tells {u : Use} (h : u.drop sh = some sh') : Tells but sh sh' := by
  unfold Use.drop at h
  split at h
  · cases h
    exact .refl sh
  · cases h
    exact .desyncs sh
  · cases h
    exact .desyncs sh
  · cases h

end Steps

end Split

end LibAdb
