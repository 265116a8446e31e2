import LibAdb.Split.Debts
import LibAdb.Lib.Purse

/-!
# LibAdb.Split.Credit — writers share a channel's credit

Writers reserve credit under the lock of the table, send without it, and commit or refund later, the refund from a
destructor.  Seen from one channel this is the purse of `LibAdb.Lib.Purse`: every event of the system is at most one
step of it (`CreditMove`), whichever task moves.  With delayed ack a unit is a byte; without it a unit is the leave to
have one WRTE unanswered, which a READY sets rather than adds: that it was spent before is what the device's own
good behaviour gives.
-/

namespace LibAdb.Split

open Tasks Purse

/-! ## What leaves the sending side of a channel alone -/

/-- What table `t'` has for `ch`, if anything, has the sending side of `slot`. -/
def Keeps (ch : ChannelId) (slot : ChannelSlot) (t' : ChannelTable) : Prop :=
  ∀ slot', t'.get ch = some slot' → slot.SendSide slot'

section Keeps

variable {ch : ChannelId} {slot s s' : ChannelSlot} {t : ChannelTable} {idx : ℕ}

theorem Keeps.refl (hget : t.get ch = some slot) : Keeps ch slot t := by
  intro slot' h
  rw [hget] at h
  cases h
  exact .refl slot

theorem Keeps.put (hget : t.get ch = some slot) (hat : t.at? idx = some s) (hs : s.SendSide s') :
    Keeps ch slot (t.put idx (some s')) := by
  intro slot' h
  rw [ChannelTable.get_put hat hs.localId, hget] at h
  split_ifs at h with hidx
  · cases h
    subst hidx
    rw [(ChannelTable.get_eq_some.mp hget).1] at hat
    cases hat
    exact hs
  · cases h
    exact .refl slot

theorem Keeps.put_get (ch' : ChannelId) (hget : t.get ch = some slot) (hget' : t.get ch' = some s)
    (hs : s.SendSide s') : Keeps ch slot (t.put ch'.slot (some s')) :=
  .put hget (ChannelTable.get_eq_some.mp hget').1 hs

theorem Keeps.put_ne {v : Option ChannelSlot} (hget : t.get ch = some slot) (hne : ch.slot ≠ idx) :
    Keeps ch slot (t.put idx v) := by
  intro slot' h
  rw [ChannelTable.get_put_ne v hne, hget] at h
  cases h
  exact .refl slot

/-- A slot another handle names is another slot. -/
theorem Keeps.put_other (ch' : ChannelId) {v : Option ChannelSlot} (hget : t.get ch = some slot)
    (hget' : t.get ch' = some s) (hne : ch' ≠ ch) : Keeps ch slot (t.put ch'.slot v) := by
  refine .put_ne hget fun heq => hne ?_
  obtain ⟨hat, hid⟩ := ChannelTable.get_eq_some.mp hget
  obtain ⟨hat', hid'⟩ := ChannelTable.get_eq_some.mp hget'
  rw [heq, hat'] at hat
  cases hat
  cases ch
  cases ch'
  simp_all

theorem Keeps.freed (ch' : ChannelId) (hget : t.get ch = some slot) : Keeps ch slot (t.freed ch') := by
  intro slot' h
  rw [ChannelTable.get_freed, hget] at h
  split_ifs at h
  cases h
  exact .refl slot

theorem Keeps.filled {ch' : ChannelId} {t' : ChannelTable} {v : Option ChannelSlot} (hget : t.get ch = some slot)
    (halloc : t.allocate = some (ch', t')) : Keeps ch slot (t'.put ch'.slot v) := by
  intro slot' h
  rw [ChannelTable.get_filled halloc hget] at h
  cases h
  exact .refl slot

theorem Keeps.closeRemote {remote : RemoteId} {t' : ChannelTable} (hget : t.get ch = some slot)
    (h : t.closeRemote remote = some (idx, t')) : Keeps ch slot t' := by
  obtain ⟨s, hat, -, rfl⟩ := ChannelTable.closeRemote_spec h
  exact .put hget hat (.applyClose s)

end Keeps

/-! ## The trace of a channel -/

namespace Obs

/-- The READY that gave credit to the channel in slot `idx`. -/
def granted (idx : ℕ) : Obs → Option Packet
  | .received pkt (.creditGranted i) => if i = idx then some pkt else none
  | _ => none

/-- Neither credit for slot `idx` nor a packet of a call's own. -/
def apart (idx : ℕ) : Obs → Bool
  | .received _ (.creditGranted i) => i ≠ idx
  | .wrote _ false _ => false
  | _ => true

end Obs

/-- The sending side of `ch` keeps what it has, and the trace tells nothing of it. -/
structure Aside (ch : ChannelId) (slot : ChannelSlot) (sh sh' : Shared) : Prop where
  keeps : Keeps ch slot sh'.channels
  trace : ∃ obs, sh'.trace = sh.trace ++ obs ∧ ∀ o ∈ obs, o.apart ch.slot = true

namespace Aside

variable {ch : ChannelId} {slot : ChannelSlot} {sh sh' sh'' : Shared}

theorem same (hk : Keeps ch slot sh'.channels) (htr : sh'.trace = sh.trace) : Aside ch slot sh sh' :=
  ⟨hk, [], by simp [htr], by simp⟩

theorem of_eq (hget : sh.channels.get ch = some slot) (hc : sh'.channels = sh.channels)
    (htr : sh'.trace = sh.trace) : Aside ch slot sh sh' :=
  same (hc ▸ .refl hget) htr

theorem noted {o : Obs} (hget : sh.channels.get ch = some slot) (hc : sh'.channels = sh.channels)
    (htr : sh'.trace = sh.trace ++ [o]) (ho : o.apart ch.slot = true) : Aside ch slot sh sh' :=
  ⟨hc ▸ .refl hget, [o], htr, by simpa using ho⟩

/-- Something else is noted after it. -/
theorem note (h : Aside ch slot sh sh') {o : Obs} (ho : o.apart ch.slot = true) : Aside ch slot sh (sh'.note o) := by
  obtain ⟨hk, obs, htr, hobs⟩ := h
  refine ⟨hk, obs ++ [o], by simp [htr], fun o' ho' => ?_⟩
  rcases List.mem_append.mp ho' with h1 | h1
  · exact hobs o' h1
  · rw [List.mem_singleton.mp h1]
    exact ho

variable (hget : sh.channels.get ch = some slot)

include hget

theorem refl : Aside ch slot sh sh := of_eq hget rfl rfl

theorem owe (d : Owed) : Aside ch slot sh (sh.owe d) := ⟨.refl hget, [.owed d], rfl, by simp [Obs.apart]⟩

theorem takeIncomingPast {cap : ℕ} {h : Holder} (ht : sh.takeIncomingPast cap = some (h, sh')) :
    Aside ch slot sh sh' := by
  unfold Shared.takeIncomingPast at ht
  split_ifs at ht
  split at ht
  · cases ht
  · cases ht
    exact of_eq hget rfl rfl

theorem handOut {h : Holder} (ht : sh.handOut = some (h, sh')) : Aside ch slot sh sh' := by
  obtain ⟨⟨h1, sh1⟩, htake, ⟨⟩⟩ := Option.map_eq_some_iff.mp ht
  exact (takeIncomingPast hget htake).note rfl

theorem queueIncoming {n : ℕ} {p : PendingOpen} (hq : sh.queueIncoming n p = some sh') : Aside ch slot sh sh' := by
  unfold Shared.queueIncoming at hq
  split_ifs at hq
  cases hq
  exact of_eq hget rfl rfl

theorem withdrawOpen (remote : RemoteId) : Aside ch slot sh (sh.withdrawOpen remote) := by
  unfold Shared.withdrawOpen
  split
  · rename_i idx channels hc
    exact same (.closeRemote hget hc) rfl
  · exact of_eq hget rfl rfl

theorem failChannel (idx : ℕ) (ids : ChannelIds) (fault : ChannelFault) :
    Aside ch slot sh (sh.failChannel idx ids fault) := by
  unfold Shared.failChannel
  split
  · rename_i s hs
    exact same (.put_get ⟨idx, ids.localId⟩ hget hs (.fail s fault)) rfl
  · exact refl hget

theorem dropSlot (ch' : ChannelId) : Aside ch slot sh (sh.dropSlot ch') := by
  unfold Shared.dropSlot
  split
  · exact refl hget
  · rename_i s channels hfree
    have hk : Keeps ch slot channels := by
      have := Keeps.freed ch' hget
      simpa only [ChannelTable.freed, hfree] using this
    dsimp only
    split
    · rename_i ids _
      exact ⟨hk, [.owed (.close ids)], rfl, by simp [Obs.apart]⟩
    · exact same hk rfl

theorem leaveQueue (ch' : ChannelId) (place : ℕ) : Aside ch slot sh (sh.leaveQueue ch' place) := by
  unfold Shared.leaveQueue
  split
  · rename_i s hs
    dsimp only
    split_ifs <;> exact same (.put_get ch' hget hs (.sendQueue s _)) rfl
  · exact refl hget

/-- A reservation another channel's call drops, or one that is committed. -/
theorem dropCredit {ch' : ChannelId} (n : ℕ) {committed : Bool} (h : committed = true ∨ ch' ≠ ch) :
    Aside ch slot sh (sh.dropCredit ch' n committed) := by
  unfold Shared.dropCredit
  cases hs : sh.channels.get ch' with
  | none =>
    dsimp only
    split_ifs <;> exact of_eq hget rfl rfl
  | some s =>
    dsimp only
    cases committed with
    | true => exact same (.put_get ch' hget hs (.sendQueue s _)) rfl
    | false => exact same (.put_other ch' hget hs (h.resolve_left nofun)) rfl

end Aside

/-! ### Control steps of the other calls -/

section Steps

variable {ch : ChannelId} {slot : ChannelSlot} {sh sh' : Shared} {use : Option Use}

theorem CloseCall.Moves.aside {c c' : CloseCall} (hget : sh.channels.get ch = some slot)
    (h : c.Moves sh c' use sh') : Aside ch slot sh sh' := by
  cases h with
  | idle => exact .refl hget
  | frees => exact .same (.freed _ hget) rfl
  | owes ids hpc => exact ⟨.refl hget, [.owed (.close ids)], rfl, by simp [Obs.apart]⟩
  | locks => exact .refl hget

theorem TakePc.Moves.aside {ch' : ChannelId} {want : ℕ} {pc : TakePc} {next : TakeNext}
    (hget : sh.channels.get ch = some slot) (h : TakePc.Moves ch' want sh pc next use sh') : Aside ch slot sh sh' := by
  cases h with
  | takes s s' out hs hacks htake =>
    exact ⟨.put_get _ hget hs (.takeBuffered htake), [.read ch' out], rfl, by simp [Obs.apart]⟩
  | _ => exact .refl hget

theorem ReadCall.Moves.aside {c c' : ReadCall} (hget : sh.channels.get ch = some slot)
    (h : c.Moves sh c' use sh') : Aside ch slot sh sh' := by
  cases h with
  | takes pc pc' use sh' hpc ht => exact ht.aside hget
  | fails pc e use sh1 hpc ht => exact (ht.aside hget).note rfl
  | empty pc use sh' hpc ht => exact ht.aside hget
  | returns pc out use sh' hpc ht => exact ht.aside hget
  | noSlot => exact (Aside.refl hget).note rfl
  | dead => exact (Aside.refl hget).note rfl
  | _ => exact .refl hget

variable [Usize] {ng : Negotiated}

theorem takeSlot_aside {destination : Bytes} {ch' : ChannelId} {u : Use} (hget : sh.channels.get ch = some slot)
    (h : takeSlot ng destination sh = .ok (ch', u, sh')) : Aside ch slot sh sh' := by
  unfold takeSlot at h
  split at h
  · cases h
  · rename_i ch1 channels halloc
    cases h
    exact .same (.filled hget halloc) rfl

theorem OpenCall.Moves.aside {c c' : OpenCall} (hget : sh.channels.get ch = some slot)
    (h : c.Moves ng sh c' use sh') : Aside ch slot sh sh' := by
  cases h with
  | idle => exact .refl hget
  | takes ch1 u sh' hpc htake => exact takeSlot_aside hget htake
  | waits => exact .refl hget
  | opened => exact (Aside.refl hget).note rfl
  | unguards => exact .dropSlot hget _

theorem HolderCall.Moves.aside {c c' : HolderCall} (hget : sh.channels.get ch = some slot)
    (h : c.Moves ng sh c' use sh') : Aside ch slot sh sh' := by
  cases h with
  | withdrawn => exact .refl hget
  | noSlot => exact .refl hget
  | reserves pending ch1 channels hpc hp hflag halloc => exact .same (.filled hget halloc) rfl
  | rejects => exact .refl hget
  | frees => exact .same (.freed _ hget) rfl
  | noneReserved => exact .refl hget
  | ends => exact .of_eq hget rfl rfl
  | returns => exact .of_eq hget rfl rfl

omit [Usize] in
theorem ListenCall.Moves.aside {c c' : ListenCall} (hget : sh.channels.get ch = some slot)
    (h : c.Moves sh c' use sh') : Aside ch slot sh sh' := by
  cases h with
  | idle => exact .refl hget
  | takes hd sh' hpc hout => exact .handOut hget hout

omit [Usize] in
theorem Aside.said {c : ReaderTask} {sh'' : Shared} (h : Aside ch slot sh sh') (hsaid : c.Says sh' sh'') :
    Aside ch slot sh sh'' := by
  rcases hsaid with rfl | ⟨ch', want, e, -, rfl⟩
  · exact h
  · exact h.note rfl

omit [Usize] in
theorem ReaderTask.Says.aside {c : ReaderTask} (hget : sh.channels.get ch = some slot) (h : c.Says sh sh') :
    Aside ch slot sh sh' :=
  (Aside.refl hget).said h

/-- The credit a READY gives to the channel, by way of `apply_ready`. -/
structure Granted (ch : ChannelId) (slot : ChannelSlot) (sh : Shared) (pkt : Packet) (sh' : Shared) : Prop where
  channels : ∀ slot', sh'.channels.get ch = some slot' → slot.applyReady pkt.data = .ok slot'
  trace : sh'.trace = sh.trace ++ [.received pkt (.creditGranted ch.slot)]

/-- A packet gives the channel credit, or leaves its sending side alone. -/
theorem dispatches_credit {t t' : ChannelTable} {pkt : Packet} {outcome : DispatchOutcome}
    (h : ChannelTable.Dispatches t pkt outcome t') (hget : t.get ch = some slot) (hopen : slot.state ≠ .opening) :
    (Keeps ch slot t' ∧ (Obs.received pkt outcome).apart ch.slot = true) ∨
      (outcome = .creditGranted ch.slot ∧ ∀ slot', t'.get ch = some slot' → slot.applyReady pkt.data = .ok slot') := by
  obtain ⟨hat0, hid0⟩ := ChannelTable.get_eq_some.mp hget
  have hother : ∀ {idx v}, ch.slot ≠ idx → Keeps ch slot (t.put idx v) ∧
      (Obs.received pkt (.creditGranted idx)).apart ch.slot = true :=
    fun hne => ⟨.put_ne hget hne, by simpa [Obs.apart] using Ne.symm hne⟩
  cases h with
  | ignored => exact Or.inl ⟨.refl hget, rfl⟩
  | opens => exact Or.inl ⟨.refl hget, rfl⟩
  | withdraws => exact Or.inl ⟨.refl hget, rfl⟩
  | closesRemote idx s hcmd hzero hat hr => exact Or.inl ⟨.put hget hat (.applyClose s), rfl⟩
  | stray => exact Or.inl ⟨.refl hget, rfl⟩
  | closes idx s hcmd hidx hat => exact Or.inl ⟨.put hget hat (.applyClose s), rfl⟩
  | acks idx s s' ack hcmd hidx hat hf happly | buffers idx s s' hcmd hidx hat hf happly =>
    exact Or.inl ⟨.put hget hat (.applyWrite happly), rfl⟩
  | accepts idx s s' hcmd hidx hat hf hstate happly =>
    -- the channel is past this
    refine Or.inl (hother ?_)
    rintro rfl
    rw [hat0] at hat
    cases hat
    exact hopen hstate
  | grants idx s s' hcmd hidx hat hf hstate happly =>
    by_cases hne : ch.slot = idx
    · subst hne
      rw [hat0] at hat
      cases hat
      refine Or.inr ⟨rfl, fun slot' h => ?_⟩
      have hid : s'.localId = slot.localId := by
        rcases ChannelSlot.applyReady_ok happly with ⟨-, rfl⟩ | ⟨-, rfl⟩ <;> rfl
      rw [ChannelTable.get_put_self hat0 (hid.trans hid0)] at h
      cases h
      exact happly
    · exact Or.inl (hother hne)
  | faults => exact Or.inl ⟨.refl hget, rfl⟩

omit [Usize] in
theorem ReaderTask.actOn_shared (c : ReaderTask) (outcome : DispatchOutcome) (sh : Shared) :
    (c.actOn outcome sh).2.channels = sh.channels ∧ (c.actOn outcome sh).2.trace = sh.trace := by
  unfold ReaderTask.actOn
  cases outcome with
  | channelFault =>
    dsimp only
    split_ifs <;> exact ⟨rfl, rfl⟩
  | _ => exact ⟨rfl, rfl⟩

/-- What `dispatch` leaves behind. -/
theorem ReaderTask.dispatch_shared (c : ReaderTask) (pkt : Packet) (sh : Shared) :
    ∃ outcome t', ChannelTable.Dispatches sh.channels pkt outcome t' ∧ (c.dispatch pkt sh).2.2.channels = t' ∧
      (c.dispatch pkt sh).2.2.trace = sh.trace ++ [.received pkt outcome] := by
  obtain ⟨hc, ht⟩ := c.actOn_shared (sh.channels.dispatch pkt).1
    ({ sh with channels := (sh.channels.dispatch pkt).2 }.note (.received pkt (sh.channels.dispatch pkt).1))
  exact ⟨_, _, sh.channels.dispatch_spec pkt, hc, ht⟩

theorem ReaderTask.dispatch_credit (c : ReaderTask) (pkt : Packet) (hget : sh.channels.get ch = some slot)
    (hopen : slot.state ≠ .opening) :
    Aside ch slot sh (c.dispatch pkt sh).2.2 ∨ Granted ch slot sh pkt (c.dispatch pkt sh).2.2 := by
  obtain ⟨outcome, t', hd, hc, ht⟩ := c.dispatch_shared pkt sh
  rcases dispatches_credit hd hget hopen with ⟨hk, ho⟩ | ⟨rfl, happly⟩
  · exact Or.inl ⟨hc ▸ hk, _, ht, by simpa using ho⟩
  · exact Or.inr ⟨hc ▸ happly, ht⟩

/-- `await_open_ack` is about the slot it waits for. -/
theorem ReaderTask.receive_credit (c : ReaderTask) (pkt : Packet) (hget : sh.channels.get ch = some slot)
    (hopen : slot.state ≠ .opening) (hguard : ∀ g, c.guard = some g → g.slot ≠ ch.slot) :
    Aside ch slot sh (c.receive pkt sh).2.2 ∨ Granted ch slot sh pkt (c.receive pkt sh).2.2 := by
  unfold ReaderTask.receive
  split
  · rename_i g hg
    have hne := hguard g hg
    split_ifs
    · refine Or.inl ?_
      unfold ReaderTask.openReady
      split
      · exact ((Aside.refl hget).note rfl).note rfl
      · split
        · exact ⟨.put_ne hget (Ne.symm hne), [.received pkt (.creditGranted g.slot), .opened g], by simp,
            by simp [Obs.apart, hne]⟩
        · exact (Aside.refl hget).note rfl
    · have h1 : Aside ch slot sh (sh.note (.received pkt .unmatched)) := (Aside.refl hget).note rfl
      exact Or.inl (h1.said (.leave c .channelClosed _))
    · exact c.dispatch_credit pkt hget hopen
  · exact c.dispatch_credit pkt hget hopen

/-- A control step of the Reader: READY for the channel, or nothing to its sending side. -/
theorem ReaderTask.Moves.credit {c c' : ReaderTask} (hget : sh.channels.get ch = some slot)
    (hopen : slot.state ≠ .opening) (hguard : ∀ g, c.guard = some g → g.slot ≠ ch.slot)
    (h : c.Moves ng sh c' use sh') : Aside ch slot sh sh' ∨ ∃ pkt, Granted ch slot sh pkt sh' := by
  cases h with
  | plain c' use sh' hl hl' huse hsaid => exact Or.inl (hsaid.aside hget)
  | ends e sh' hpc hsaid =>
    have h1 : Aside ch slot sh.endStream sh' := hsaid.aside hget
    exact Or.inl ⟨h1.keeps, h1.trace⟩
  | allocates destination ch1 u sh' hpc htake => exact Or.inl (takeSlot_aside hget htake)
  | takes ch1 want pc pc' d use sh' hcall hpc hm => exact Or.inl (hm.aside hget)
  | taken ch1 want pc d r sh1 hcall hpc hm =>
    exact Or.inl ((hm.aside hget).said (c.taken_said d r sh1).2.2)
  | drains h sh' hpc htake | refuses h sh' hpc htake => exact Or.inl (.takeIncomingPast hget htake)
  | handsOut h sh' hpc hcall htake => exact Or.inl (.handOut hget htake)
  | inner h h' pc' use sh' hpc hpc' hm => exact Or.inl (hm.aside hget)
  | refused h r c' sh' hpc hdone hl' hsaid => exact Or.inl (hsaid.aside hget)
  | receives => exact Or.inl (.refl hget)
  | received pkt hpc => exact (c.receive_credit pkt hget hopen hguard).imp id fun hg => ⟨pkt, hg⟩
  | fails => exact Or.inl (.failChannel hget _ _ _)
  | owes => exact Or.inl (.owe hget _)
  | queues pending sh' hpc hq => exact Or.inl (.queueIncoming hget hq)
  | overflows => exact Or.inl (.refl hget)
  | stages => exact Or.inl (.of_eq hget rfl rfl)
  | withdraws => exact Or.inl (.withdrawOpen hget _)
  | looks => exact Or.inl (.refl hget)
  | unguards => exact Or.inl (.dropSlot hget _)
  | stops => exact Or.inl (.of_eq hget rfl rfl)

end Steps

/-! ## Where a writer stands -/

/-- Whether the transport has all of the call's own packet. -/
def Use.onWire (u : Use) : Bool :=
  match u.pc with
  | .sending _ true => true
  | _ => false

/-- The standing of a reservation, in units of `mode`. -/
def standingOf (mode : AckMode) : Option (ℕ × Bool) → Bool → Standing
  | none, _ => .idle
  | some (n, true), _ => .committed (mode.worth n)
  | some (n, false), true => .onWire (mode.worth n)
  | some (n, false), false => .waits (mode.worth n)

namespace Task

/-- The call, if it writes to `ch`. -/
def writes (ch : ChannelId) (t : Task) : Option WriteCall :=
  match t.ctl with
  | .write c => if c.ch = ch then some c else none
  | _ => none

def onWire (t : Task) : Bool := t.use.any Use.onWire

/-- What the call has of the channel's credit. -/
def standing (mode : AckMode) (ch : ChannelId) (t : Task) : Standing :=
  standingOf mode ((t.writes ch).bind fun c => c.pc.credit) t.onWire

/-- The bytes it has committed so far. -/
def offset (ch : ChannelId) (t : Task) : ℕ := ((t.writes ch).map WriteCall.offset).getD 0

/-- A write call sends what it reserved, and nothing else. -/
structure Apt (t : Task) : Prop where
  bound : ∀ c n k, t.ctl = .write c → c.pc.credit = some (n, k) → c.offset + n ≤ c.data.length
  sends : ∀ c u, t.ctl = .write c → t.use = some u →
    ∃ n pkt, c.pc = .sending n ∧ u.job = .send pkt ∧ pkt.data.length = n
  own : ∀ u pkt whole pkt', t.use = some u → u.pc = .sending pkt whole → u.job = .send pkt' → pkt = pkt'

end Task

/-- What one event does to the credit of `ch`, seen from the task that moves. -/
inductive CreditMove (mode : AckMode) (ch : ChannelId) (i : ℕ) (t t' : Task) (slot slot' : ChannelSlot)
    (sh sh' : Shared) : Prop
  | calm (obs : List Obs) (hst : t'.standing mode ch = t.standing mode ch) (hoff : t'.offset ch = t.offset ch)
      (hside : slot.SendSide slot') (htr : sh'.trace = sh.trace ++ obs)
      (hobs : ∀ o ∈ obs, o.apart ch.slot = true ∨ (∃ pkt, o = .wrote i false pkt) ∧ t.writes ch = none)
  | reserve (n : ℕ) (hst : t.standing mode ch = .idle) (hst' : t'.standing mode ch = .waits (mode.worth n))
      (hoff : t'.offset ch = t.offset ch) (hside : (slot.spend n).SendSide slot')
      (hn : (slot.policy.ack = .delayed ∧ (n : ℤ) ≤ slot.sendBudget) ∨
        (slot.policy.ack = .classic ∧ slot.wrteAcked = true)) (htr : sh'.trace = sh.trace)
  | refund (n : ℕ) (hst : t.standing mode ch = .waits (mode.worth n)) (hst' : t'.standing mode ch = .idle)
      (hoff : t'.offset ch = t.offset ch) (hside : (slot.refund n).SendSide slot') (htr : sh'.trace = sh.trace)
  | write (n : ℕ) (pkt : Packet) (hst : t.standing mode ch = .waits (mode.worth n))
      (hst' : t'.standing mode ch = .onWire (mode.worth n)) (hoff : t'.offset ch = t.offset ch)
      (hside : slot.SendSide slot') (htr : sh'.trace = sh.trace ++ [.wrote i false pkt]) (hlen : pkt.data.length = n)
      (hw : (t.writes ch).isSome) (hlive : sh.gone = false)
      (hpc : ∃ u, t.use = some u ∧ u.pc = .sending pkt false)
  | commit (n : ℕ) (obs : List Obs) (hst : t.standing mode ch = .onWire (mode.worth n))
      (hst' : t'.standing mode ch = .committed (mode.worth n)) (hoff : t'.offset ch = t.offset ch)
      (hside : slot.SendSide slot') (htr : sh'.trace = sh.trace ++ obs) (hobs : ∀ o ∈ obs, o.apart ch.slot = true)
  | advance (n : ℕ) (hst : t.standing mode ch = .committed (mode.worth n)) (hst' : t'.standing mode ch = .idle)
      (hoff : t'.offset ch = t.offset ch + n) (hside : slot.SendSide slot') (htr : sh'.trace = sh.trace)
  | tear (n : ℕ) (obs : List Obs) (hst : t.standing mode ch = .onWire (mode.worth n))
      (hst' : t'.standing mode ch = .waits (mode.worth n)) (hoff : t'.offset ch = t.offset ch)
      (hside : slot.SendSide slot') (htr : sh'.trace = sh.trace ++ obs) (hobs : ∀ o ∈ obs, o.apart ch.slot = true)
      (hbad : sh'.desync = true ∨ sh'.gone = true)
  | grant (pkt : Packet) (hst : t'.standing mode ch = t.standing mode ch) (hoff : t'.offset ch = t.offset ch)
      (happly : slot.applyReady pkt.data = .ok slot')
      (htr : sh'.trace = sh.trace ++ [.received pkt (.creditGranted ch.slot)])

/-! ### Uses of the write half -/

section Uses

variable [Usize] {ng : Negotiated} {ch : ChannelId} {slot : ChannelSlot} {sh sh' : Shared} {u u' : Use} {i : ℕ}
  {a : Act} {r : Option Error}

omit [Usize] in
theorem Use.settled_aside {ch' : ChannelId} {want : ℕ} {ack : PendingAck} (hget : sh.channels.get ch = some slot)
    (h : Use.settled sh ch' want = some (ack, sh')) : Aside ch slot sh sh' := by
  obtain ⟨s, s', hs1, hs2, rfl⟩ := Use.settled_some h
  exact ⟨.put_get _ hget hs1 (.settleTake hs2), [.settled ack], rfl, by simp [Obs.apart]⟩

omit [Usize] in
theorem Aside.release (h : Aside ch slot sh sh') : Aside ch slot sh sh'.release := by
  exact ⟨by simpa using h.keeps, by simpa using h.trace⟩

/-- A use that goes on puts its packet on the wire, or does nothing to the sending side. -/
theorem Use.Moves.more_credit (hget : sh.channels.get ch = some slot) (h : u.Moves ng i sh a (.more u') sh') :
    (Aside ch slot sh sh' ∧ u.onWire = false ∧ u'.onWire = false) ∨
      ∃ pkt, u.pc = .sending pkt false ∧ u'.pc = .sending pkt true ∧ sh' = sh.note (.wrote i false pkt) ∧
        sh.gone = false := by
  have hoff : ∀ {pc}, u.pc = pc → (∀ pkt, pc ≠ .sending pkt true) → u.onWire = false := by
    intro pc hpc hne
    unfold Use.onWire
    split
    · rename_i pkt heq
      exact absurd (hpc.symm.trans heq) (hne pkt)
    · rfl
  cases h with
  | acquire hpc _ =>
    refine Or.inl ⟨.noted hget rfl rfl rfl, hoff hpc nofun, ?_⟩
    unfold Use.first
    split <;> rfl
  | noDebt hpc _ => exact Or.inl ⟨.refl hget, hoff hpc nofun, rfl⟩
  | debtBegun _ _ hpc _ _ | debtWritten _ hpc _ | debtFlushed _ hpc =>
    exact Or.inl ⟨(Aside.refl hget).note rfl, hoff hpc nofun, rfl⟩
  | debtGone _ _ _ hpc _ => exact Or.inl ⟨.of_eq hget rfl rfl, hoff hpc nofun, rfl⟩
  | popped _ hpc | forgiven hpc => exact Or.inl ⟨.noted hget rfl rfl rfl, hoff hpc nofun, rfl⟩
  | written pkt hpc hlive => exact Or.inr ⟨pkt, hpc, rfl, rfl, hlive⟩
  | own _ _ hpc hown =>
    cases hown with
    | begun pkt hjob hok => exact Or.inl ⟨(Aside.refl hget).note rfl, hoff hpc nofun, rfl⟩
    | okay ch' want ack sh1 hjob h1 hok =>
      exact Or.inl ⟨(Use.settled_aside hget h1).note rfl, hoff hpc nofun, rfl⟩

/-- A use ends in success only with the packet flushed, and a packet on the wire that does not end so costs the
connection. -/
theorem Use.Moves.ended_credit (hget : sh.channels.get ch = some slot) (h : u.Moves ng i sh a (.ended r) sh') :
    Aside ch slot sh sh' ∧ (u.onWire = true → r = none ∨ sh'.desync = true ∨ sh'.gone = true) ∧
      (r = none → (∃ pkt, u.job = .send pkt) → u.onWire = true) := by
  have hoff : ∀ {pc}, u.pc = pc → (∀ pkt, pc ≠ .sending pkt true) → u.onWire = true → False := by
    intro pc hpc hne hw
    unfold Use.onWire at hw
    split at hw
    · rename_i pkt heq
      exact hne pkt (hpc.symm.trans heq)
    · cases hw
  cases h with
  | debtRefused _ _ _ hpc => exact ⟨(Aside.refl hget).release, fun hw => (hoff hpc nofun hw).elim, nofun⟩
  | debtFailed _ _ _ hpc =>
    exact ⟨Aside.release (.of_eq hget rfl rfl), fun hw => (hoff hpc nofun hw).elim, nofun⟩
  | flushed pkt hpc =>
    refine ⟨((Aside.refl hget).note rfl).release, fun _ => Or.inl rfl, fun _ _ => ?_⟩
    unfold Use.onWire
    rw [hpc]
  | failed pkt whole e hpc =>
    have hfail : Aside ch slot sh (sh.writeFailed e) := by
      unfold Shared.writeFailed
      split_ifs <;> exact .of_eq hget rfl rfl
    refine ⟨hfail.release, fun _ => Or.inr ?_, ?_⟩
    · rw [Shared.release_desync, Shared.release_gone]
      unfold Shared.writeFailed
      split_ifs
      · exact Or.inr rfl
      · exact Or.inl rfl
    · rintro hr ⟨pkt', hjob⟩
      rw [hjob] at hr
      cases hr
  | own _ _ hpc hown =>
    cases hown with
    | release hjob =>
      refine ⟨(Aside.refl hget).release, fun hw => (hoff hpc nofun hw).elim, ?_⟩
      rintro - ⟨pkt, hp⟩
      exact absurd hp (hjob pkt).1
    | refused => exact ⟨(Aside.refl hget).release, fun hw => (hoff hpc nofun hw).elim, nofun⟩
    | settled ch' want ack sh1 hjob h1 =>
      refine ⟨(Use.settled_aside hget h1).release, fun hw => (hoff hpc nofun hw).elim, ?_⟩
      rintro - ⟨pkt, hp⟩
      cases hjob.symm.trans hp

omit [Usize] in
theorem Use.drop_credit (hget : sh.channels.get ch = some slot) (h : u.drop sh = some sh') :
    Aside ch slot sh sh' ∧ (u.onWire = true → sh'.desync = true) := by
  unfold Use.drop at h
  split at h
  · rename_i hpc
    cases h
    refine ⟨.refl hget, fun hw => ?_⟩
    unfold Use.onWire at hw
    rw [hpc] at hw
    cases hw
  · cases h
    exact ⟨Aside.release (.of_eq hget rfl rfl), fun _ => by simp⟩
  · cases h
    exact ⟨Aside.release (.of_eq hget rfl rfl), fun _ => by simp⟩
  · cases h

end Uses

/-! ### Every event -/

section Events

variable [Usize] {ng : Negotiated} {mode : AckMode} {ch : ChannelId} {slot slot' : ChannelSlot} {sh sh' : Shared}
  {t t' : Task} {i : ℕ} {use : Option Use}

/-- What `try_reserve` does when it reserves. -/
theorem WriteCall.tryReserve_some {c : WriteCall} {place n : ℕ} (h : c.tryReserve ng place sh = .ok (some (n, sh'))) :
    ∃ s s1 q, sh.channels.get c.ch = some s ∧ s.tryReserveSend (c.want ng) = some (n, s1) ∧
      sh'.channels = sh.channels.put c.ch.slot (some { s1 with sendQueue := q }) ∧ sh'.trace = sh.trace := by
  unfold WriteCall.tryReserve at h
  split at h
  · cases h
  · rename_i s hs
    split_ifs at h
    · cases h
    · split at h
      · cases h
      · rename_i n1 s1 hr
        cases h
        refine ⟨s, s1, s1.sendQueue.serve, hs, hr, ?_, ?_⟩
        · split_ifs <;> rfl
        · split_ifs <;> rfl

/-- A writer on another channel. -/
theorem WriteCall.Moves.aside {c c' : WriteCall} (hget : sh.channels.get ch = some slot) (hne : c.ch ≠ ch)
    (h : c.Moves ng sh c' use sh') : Aside ch slot sh sh' := by
  cases h with
  | idle => exact .refl hget
  | joins s place q hpc hs => exact .same (.put_get _ hget hs (.sendQueue s q)) rfl
  | reserves place gen n sh' hpc hres =>
    obtain ⟨s, s1, q, hs, -, hc, ht⟩ := WriteCall.tryReserve_some hres
    exact .same (hc ▸ .put_other _ hget hs hne) ht
  | leaves => exact .leaveQueue hget _ _
  | unnamed => exact .refl hget
  | sends => exact .refl hget
  | commits => exact .dropCredit hget _ (Or.inl rfl)
  | refunds => exact .dropCredit hget _ (Or.inr hne)

section

omit [Usize]

theorem Task.standing_other (h : t.writes ch = none) : t.standing mode ch = .idle ∧ t.offset ch = 0 := by
  simp [Task.standing, Task.offset, standingOf, h]

/-- The channel keeps its sending side and the task its standing. -/
theorem CreditMove.aside (h : Aside ch slot sh sh') (hget' : sh'.channels.get ch = some slot')
    (hst : t'.standing mode ch = t.standing mode ch) (hoff : t'.offset ch = t.offset ch) :
    CreditMove mode ch i t t' slot slot' sh sh' := by
  obtain ⟨obs, htr, hobs⟩ := h.trace
  exact .calm obs hst hoff (h.keeps slot' hget') htr fun o ho => Or.inl (hobs o ho)

theorem CreditMove.other (h : Aside ch slot sh sh') (hget' : sh'.channels.get ch = some slot')
    (hw : t.writes ch = none) (hw' : t'.writes ch = none) : CreditMove mode ch i t t' slot slot' sh sh' := by
  obtain ⟨h1, h2⟩ := @Task.standing_other mode ch t hw
  obtain ⟨h3, h4⟩ := @Task.standing_other mode ch t' hw'
  exact .aside h hget' (h3.trans h1.symm) (h4.trans h2.symm)

@[simp] theorem Task.writes_write (c : WriteCall) (u : Option Use) (ch : ChannelId) :
    (Task.mk (.write c) u).writes ch = if c.ch = ch then some c else none := rfl

theorem Task.standing_write (c : WriteCall) (u : Option Use) :
    (Task.mk (.write c) u).standing mode c.ch = standingOf mode c.pc.credit (u.any Use.onWire) := by
  simp [Task.standing, Task.onWire]

theorem Task.offset_write (c : WriteCall) (u : Option Use) : (Task.mk (.write c) u).offset c.ch = c.offset := by
  simp [Task.offset]

end

/-- A control step of a writer on the channel. -/
theorem WriteCall.Moves.credit {c c' : WriteCall} (hget : sh.channels.get c.ch = some slot)
    (hget' : sh'.channels.get c.ch = some slot') (h : c.Moves ng sh c' use sh') :
    CreditMove mode c.ch i ⟨.write c, none⟩ ⟨.write c', use⟩ slot slot' sh sh' := by
  have hat := (ChannelTable.get_eq_some.mp hget).1
  have hid := (ChannelTable.get_eq_some.mp hget).2
  have hch : c'.ch = c.ch := by cases h <;> rfl
  have hst' : (Task.mk (.write c') use).standing mode c.ch = standingOf mode c'.pc.credit (use.any Use.onWire) := by
    rw [← hch]
    exact Task.standing_write c' use
  have hoff' : (Task.mk (.write c') use).offset c.ch = c'.offset := by
    rw [← hch]
    exact Task.offset_write c' use
  have hst := @Task.standing_write mode c none
  have hoff := Task.offset_write c none
  cases h with
  | idle pc' hnone hnone' =>
    exact .aside (.refl hget) hget' (by rw [hst', hst, hnone, goto_pc, hnone']) (by rw [hoff', hoff, goto_offset])
  | joins s place q hpc hs =>
    exact .aside (.same (.put_get _ hget hs (.sendQueue s q)) rfl) hget'
      (by rw [hst', hst, hpc]; rfl) (by rw [hoff', hoff, goto_offset])
  | reserves place gen n sh' hpc hres =>
    obtain ⟨s, s1, q, hs, hr, hc, ht⟩ := WriteCall.tryReserve_some hres
    rw [hget] at hs
    cases hs
    obtain ⟨rfl, -, hn⟩ := ChannelSlot.tryReserveSend_some hr
    have hid1 : ({ slot.spend n with sendQueue := q } : ChannelSlot).localId = c.ch.localId :=
      (slot.spend_localId n).trans hid
    rw [hc, ChannelTable.get_put_self hat hid1] at hget'
    cases hget'
    exact .reserve n (by rw [hst, hpc]; rfl) (by rw [hst']; rfl) (by rw [hoff', hoff, goto_offset])
      (.sendQueue _ q) hn ht
  | leaves place r hpc =>
    exact .aside (.leaveQueue hget _ _) hget' (by rw [hst', hst, hpc]; rfl) (by rw [hoff', hoff, goto_offset])
  | unnamed n e hpc | sends n ids hpc hids =>
    exact .aside (.refl hget) hget' (by rw [hst', hst, hpc]; rfl) (by rw [hoff', hoff, goto_offset])
  | commits n r pc' hpc hnone' =>
    have haside : Aside c.ch slot sh (sh.dropCredit c.ch n true) := .dropCredit hget n (Or.inl rfl)
    refine .advance n (by rw [hst, hpc]; rfl) (by rw [hst', hnone']; rfl) (by rw [hoff', hoff])
      (haside.keeps slot' hget') ?_
    unfold Shared.dropCredit
    rw [hget]
    rfl
  | refunds n r hpc =>
    refine .refund n (by rw [hst, hpc]; rfl) (by rw [hst']; rfl) (by rw [hoff', hoff, goto_offset]) ?_ ?_
    · have hc : (sh.dropCredit c.ch n false).channels = sh.channels.put c.ch.slot
          (some (({ slot with sendQueue := slot.sendQueue.finish } : ChannelSlot).refund n)) := by
        unfold Shared.dropCredit
        rw [hget]
        rfl
      have hid1 : (({ slot with sendQueue := slot.sendQueue.finish } : ChannelSlot).refund n).localId =
          c.ch.localId := (ChannelSlot.refund_localId _ n).trans hid
      rw [hc, ChannelTable.get_put_self hat hid1] at hget'
      cases hget'
      exact .refund slot _ n
    · unfold Shared.dropCredit
      rw [hget]
      rfl

omit [Usize]

/-- What `resume` and `drop` make of a writer's reservation. -/
theorem WriteCall.resume_sending {c : WriteCall} {n : ℕ} (hpc : c.pc = .sending n) (r : Option Error) :
    (c.resume r).ch = c.ch ∧ (c.resume r).offset = c.offset ∧ (c.resume r).data = c.data ∧
      (c.resume r).pc.credit = some (n, r.isNone) := by
  unfold WriteCall.resume
  cases r <;> simp [hpc, WriteCall.goto, WritePc.credit]

theorem WriteCall.drop_inv {c c' : WriteCall} (h : c.drop = some c') :
    c'.ch = c.ch ∧ c'.offset = c.offset ∧ c'.data = c.data ∧
      ((∃ n, c.pc = .sending n ∧ c'.pc.credit = some (n, false)) ∨ c.pc.credit = none ∧ c'.pc.credit = none) := by
  unfold WriteCall.drop at h
  split at h
  · rename_i place gen hpc
    cases h
    exact ⟨rfl, rfl, rfl, Or.inr ⟨by rw [hpc]; rfl, rfl⟩⟩
  · rename_i n hpc
    cases h
    exact ⟨rfl, rfl, rfl, Or.inl ⟨n, hpc, rfl⟩⟩
  · cases h

/-- The Reader is not opening the slot of `ch`. -/
def Task.Clear (ch : ChannelId) (t : Task) : Prop :=
  ∀ c g, t.ctl = .reader c → c.guard = some g → g.slot ≠ ch.slot

theorem Ctl.resume_writes {ctl : Ctl} (h : (Task.mk ctl use).writes ch = none) (r : Option Error) (sh : Shared) :
    (Task.mk (ctl.resume r sh).1 none).writes ch = none := by
  cases ctl with
  | write c =>
    have hch : (c.resume r).ch = c.ch := by
      unfold WriteCall.resume
      split <;> rfl
    simpa only [Ctl.resume, Task.writes_write, hch, ite_eq_right_iff, reduceCtorEq, imp_false] using h
  | _ => rfl

theorem Aside.resume (h : Aside ch slot sh sh') (ctl : Ctl) (r : Option Error) :
    Aside ch slot sh (ctl.resume r sh').2 := by
  cases ctl with
  | reader c => exact h.said (c.resume_resumes r sh').2
  | _ => exact h

end Events

end LibAdb.Split
