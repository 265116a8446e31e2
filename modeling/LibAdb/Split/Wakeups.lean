import LibAdb.Split.Budget
import LibAdb.Split.Signals
import LibAdb.Split.Waiting

/-!
# LibAdb.Split.Wakeups — no wakeup of a channel is lost

A `write_channel`, `select_channel` or `open_channel` that has to wait makes its listener, looks at its channel, looks
whether the connection is live, and parks.  As every step `Tells`, a call that has looked was notified since or would
find the same (`Watching`): parked and not notified, it would park again if it were polled.

A slot under the guard of an `open_channel` or of an accept changes without a wake.  Nobody was given its `ChannelId`;
but a call that waits with a `ChannelId` from before the local ids came round is left parked (`Apart`).
-/

namespace LibAdb.Split

open Runs Tasks ChannelTable

/-! ## Where a call waits -/

/-- The listener a call has made, and for which channel. -/
def Ctl.listens : Ctl → Option (ChannelId × ℕ)
  | .write c =>
    match c.pc with
    | .reserve _ gen | .live _ gen | .parked _ gen => some (c.ch, gen)
    | _ => none
  | .read c =>
    match c.pc with
    | .start | .take _ | .live => c.listener.map fun gen => (c.ch, gen)
    | .waiting gen => some (c.ch, gen)
    | _ => none
  | .«open» c =>
    match c.pc with
    | .look ch gen | .live ch gen | .parked ch gen => some (ch, gen)
    | _ => none
  | _ => none

/-- The same for a call that has looked at its channel since, and whether it is parked. -/
def Ctl.watch : Ctl → Option (ChannelId × ℕ × Bool)
  | .write c =>
    match c.pc with
    | .live _ gen => some (c.ch, gen, false)
    | .parked _ gen => some (c.ch, gen, true)
    | _ => none
  | .read c =>
    match c.pc with
    | .live => c.listener.map fun gen => (c.ch, gen, false)
    | .waiting gen => some (c.ch, gen, true)
    | _ => none
  | .«open» c =>
    match c.pc with
    | .live ch gen => some (ch, gen, false)
    | .parked ch gen => some (ch, gen, true)
    | _ => none
  | _ => none

theorem Ctl.listens_of_watch {ctl : Ctl} {ch : ChannelId} {gen : ℕ} {parked : Bool}
    (h : ctl.watch = some (ch, gen, parked)) : ctl.listens = some (ch, gen) := by
  cases ctl with
  | write c =>
    obtain ⟨c1, data, offset, pc⟩ := c
    cases pc <;> cases h <;> rfl
  | read c =>
    obtain ⟨c1, want, listener, pc⟩ := c
    cases pc with
    | live =>
      obtain ⟨gen1, rfl, ⟨⟩⟩ := Option.map_eq_some_iff.mp h
      rfl
    | _ => cases h <;> rfl
  | «open» c =>
    obtain ⟨destination, pc⟩ := c
    cases pc <;> cases h <;> rfl
  | _ => cases h

section Steps

variable [Usize] {ng : Negotiated} {but : Option ChannelId} {sh sh' : Shared} {use : Option Use}

/-! ## What the call itself does -/

/-- What a call that has to wait finds at its channel. -/
def Ctl.Blocked (slot : ChannelSlot) : Ctl → Prop
  | .write c => slot.isClosed = false ∧
      ∀ place, c.pc.place = some place → slot.budget = none ∨ slot.sendQueue.turn ≠ place
  | .read _ => slot.isClosed = false ∧ slot.hasData = false
  | .«open» _ => slot.state = .opening
  | _ => False

theorem Ctl.Blocked.mono {ctl : Ctl} {slot slot' : ChannelSlot} (h : ctl.Blocked slot) (hno : slot.NoReadier slot') :
    ctl.Blocked slot' := by
  have hclosed : slot.isClosed = false → slot'.isClosed = false := fun hc => by
    rw [ChannelSlot.isClosed, hno.state]
    exact hc
  cases ctl with
  | write c =>
    refine ⟨hclosed h.1, fun place hplace => ?_⟩
    rcases hno.line with hnone | ⟨hbudget, hturn⟩
    · exact .inl hnone
    · rw [hbudget, hturn]
      exact h.2 place hplace
  | read c => exact ⟨hclosed h.1, hno.data h.2⟩
  | «open» c => exact hno.state.trans h
  | _ => exact h

/-- What a step does to where its own call waits. -/
inductive Ctl.Next (sh sh' : Shared) (ctl ctl' : Ctl) : Prop
  | same (hctl : ctl' = ctl) (htells : Tells none sh sh')
  | off (hw : ctl'.watch = none)
      (hl : ∀ ch gen, ctl'.listens = some (ch, gen) → ctl.listens = some (ch, gen) ∨ gen = sh.woken ch.slot)
  | looks (ch : ChannelId) (gen : ℕ) (slot : ChannelSlot) (hsh : sh' = sh) (hl : ctl.listens = some (ch, gen))
      (hw : ctl'.watch = some (ch, gen, false)) (hget : sh.channels.get ch = some slot) (hblocked : ctl'.Blocked slot)
  | parks (ch : ChannelId) (gen : ℕ) (hsh : sh' = sh) (hw : ctl.watch = some (ch, gen, false))
      (hw' : ctl'.watch = some (ch, gen, true)) (hblocked : ∀ slot, ctl.Blocked slot → ctl'.Blocked slot)
      (hlive : sh.checkLive = none)

theorem Ctl.Next.gone {ctl ctl' : Ctl} (hw : ctl'.watch = none) (hl : ctl'.listens = none) : Next sh sh' ctl ctl' := by
  refine .off hw fun ch gen h => ?_
  cases hl.symm.trans h

theorem Ctl.Next.keeps {ctl ctl' : Ctl} (hw : ctl'.watch = none) (hl : ctl'.listens = ctl.listens) :
    Next sh sh' ctl ctl' :=
  .off hw fun _ _ h => .inl (hl.symm.trans h)

theorem WriteCall.tryReserve_none {c : WriteCall} {place : ℕ} (h : c.tryReserve ng place sh = .ok none) :
    ∃ slot, sh.channels.get c.ch = some slot ∧ slot.isClosed = false ∧
      (slot.budget = none ∨ slot.sendQueue.turn ≠ place) := by
  unfold WriteCall.tryReserve at h
  split at h
  · cases h
  · rename_i slot hget
    split_ifs at h with hclosed hturn
    · exact ⟨slot, hget, by simpa using hclosed, .inr hturn⟩
    · split at h
      · rename_i hres
        exact ⟨slot, hget, by simpa using hclosed, .inl (Option.map_eq_none_iff.mp hres)⟩
      · cases h

theorem WriteCall.step_next {c c' : WriteCall} {a : Act} (h : c.step ng a sh = some (c', use, sh')) :
    Ctl.Next sh sh' (.write c) (.write c') := by
  unfold WriteCall.step at h
  split at h
  · split at h
    · cases h
      exact .gone rfl rfl
    · cases h
      split_ifs <;> exact .gone rfl rfl
  · split_ifs at h
    · cases h
      exact .gone rfl rfl
    · split at h
      · cases h
        exact .gone rfl rfl
      · split_ifs at h <;> (cases h; exact .gone rfl rfl)
  · -- the listener
    cases h
    refine .off rfl fun ch gen hl => .inr ?_
    cases hl
    rfl
  · rename_i place gen hpc
    split at h
    · cases h
      exact .gone rfl rfl
    · -- the look
      rename_i hres
      cases h
      obtain ⟨slot, hget, hclosed, hline⟩ := tryReserve_none hres
      refine .looks c.ch gen slot rfl (by rw [Ctl.listens, hpc]) rfl hget ⟨hclosed, fun place1 hplace => ?_⟩
      cases hplace
      exact hline
    · cases h
      exact .gone rfl rfl
  · rename_i place gen hpc
    split at h
    · cases h
      exact .gone rfl rfl
    · rename_i hlive
      cases h
      refine .parks c.ch gen rfl (by rw [Ctl.watch, hpc]) rfl (fun slot hb => ⟨hb.1, fun place1 hplace => ?_⟩) hlive
      exact hb.2 place1 (by rw [hpc]; exact hplace)
  · split_ifs at h
    cases h
    exact .gone rfl rfl
  · cases h
    exact .gone rfl rfl
  · split at h <;> (cases h; exact .gone rfl rfl)
  · dsimp only at h
    split_ifs at h <;> (cases h; exact .gone rfl rfl)
  · cases h

omit [Usize] in
theorem takeBuffered_none {slot : ChannelSlot} {want : ℕ} (h : slot.takeBuffered want = .ok none) :
    slot.isClosed = false ∧ slot.hasData = false := by
  unfold ChannelSlot.takeBuffered at h
  split_ifs at h with hdata hclosed
  · exact ⟨by simpa using hclosed, hdata⟩
  · cases h

theorem ReadCall.step_next {c c' : ReadCall} {a : Act} (h : c.step a sh = some (c', use, sh')) :
    Ctl.Next sh sh' (.read c) (.read c') := by
  unfold ReadCall.step at h
  split at h
  · rename_i hpc
    split_ifs at h
    · cases h
      exact .gone rfl rfl
    · cases h
      exact .keeps rfl (by rw [Ctl.listens, Ctl.listens, hpc]; rfl)
  · rename_i pc hpc
    split at h
    · cases h
    · cases h
      exact .keeps rfl (by rw [Ctl.listens, Ctl.listens, hpc]; rfl)
    · cases h
      exact .gone rfl rfl
    · -- the look
      rename_i use1 sh1 htake
      cases h
      cases hlistener : c.listener with
      | none =>
        refine .gone ?_ ?_
        · simp [Ctl.watch, ReadCall.goto, hlistener]
        · simp [Ctl.listens, ReadCall.goto, hlistener]
      | some gen =>
        cases TakePc.step_moves htake with
        | empty slot hget hempty =>
          refine .looks c.ch gen slot rfl ?_ ?_ hget (takeBuffered_none hempty)
          · simp [Ctl.listens, hpc, hlistener]
          · simp [Ctl.watch, ReadCall.goto, hlistener]
    · cases h
      exact .gone rfl rfl
  · rename_i hpc
    split at h
    · cases h
      exact .gone rfl rfl
    · rename_i hlive
      split at h
      · cases h
        exact .gone rfl rfl
      · rename_i gen hlistener
        cases h
        exact .parks c.ch gen rfl (by simp [Ctl.watch, hpc, hlistener]) rfl (fun slot hb => hb) hlive
  · -- the listener
    cases h
    refine .off rfl fun ch gen hl => .inr ?_
    cases hl
    rfl
  · split_ifs at h
    cases h
    exact .gone rfl rfl
  · cases h
    exact .gone rfl rfl
  · cases h

theorem OpenCall.step_next {c c' : OpenCall} {a : Act} (h : c.step ng a sh = some (c', use, sh')) :
    Ctl.Next sh sh' (.«open» c) (.«open» c') := by
  unfold OpenCall.step at h
  split at h
  · split at h <;> (cases h; exact .gone rfl rfl)
  · split at h <;> (cases h; exact .gone rfl rfl)
  · split at h <;> (cases h; exact .gone rfl rfl)
  · -- the listener
    cases h
    refine .off rfl fun ch gen hl => .inr ?_
    cases hl
    rfl
  · rename_i ch gen hpc
    split at h
    · cases h
      exact .gone rfl rfl
    · rename_i slot hget
      split at h
      · -- the look
        rename_i hstate
        cases h
        exact .looks ch gen slot rfl (by rw [Ctl.listens, hpc]) rfl hget hstate
      · cases h
        exact .gone rfl rfl
      · split_ifs at h <;> (cases h; exact .gone rfl rfl)
  · rename_i ch gen hpc
    split at h
    · cases h
      exact .gone rfl rfl
    · rename_i hlive
      cases h
      exact .parks ch gen rfl (by rw [Ctl.watch, hpc]) rfl (fun slot hb => hb) hlive
  · split_ifs at h
    cases h
    exact .gone rfl rfl
  · cases h
    exact .gone rfl rfl
  · cases h

/-- A step of a call: what it tells, and where it waits after it. -/
theorem Ctl.step_tells {ctl ctl' : Ctl} {a : Act} (h : ctl.step ng a sh = some (ctl', use, sh')) :
    TellsAll ctl ctl' sh sh' ∧ Ctl.Next sh sh' ctl ctl' := by
  cases ctl with
  | write c =>
    obtain ⟨⟨c1, use1, sh1⟩, hm, ⟨⟩⟩ := Option.map_eq_some_iff.mp h
    exact ⟨(WriteCall.step_tells hm).all, WriteCall.step_next hm⟩
  | close c =>
    obtain ⟨⟨c1, use1, sh1⟩, hm, ⟨⟩⟩ := Option.map_eq_some_iff.mp h
    exact ⟨(CloseCall.step_moves hm).tells, .gone rfl rfl⟩
  | read c =>
    obtain ⟨⟨c1, use1, sh1⟩, hm, ⟨⟩⟩ := Option.map_eq_some_iff.mp h
    exact ⟨(ReadCall.step_moves hm).tells.all, ReadCall.step_next hm⟩
  | «open» c =>
    obtain ⟨⟨c1, use1, sh1⟩, hm, ⟨⟩⟩ := Option.map_eq_some_iff.mp h
    exact ⟨(OpenCall.step_moves hm).tells, OpenCall.step_next hm⟩
  | holder c =>
    obtain ⟨⟨c1, use1, sh1⟩, hm, ⟨⟩⟩ := Option.map_eq_some_iff.mp h
    obtain ⟨but, htells, hbut⟩ := (HolderCall.step_moves hm).tells
    exact ⟨⟨but, htells, fun ch hch => .inl (hbut ch hch)⟩, .gone rfl rfl⟩
  | listen c =>
    obtain ⟨⟨c1, use1, sh1⟩, hm, ⟨⟩⟩ := Option.map_eq_some_iff.mp h
    exact ⟨(ListenCall.step_moves hm).tells.all, .gone rfl rfl⟩
  | reader c =>
    obtain ⟨⟨c1, use1, sh1⟩, hm, ⟨⟩⟩ := Option.map_eq_some_iff.mp h
    exact ⟨(ReaderTask.step_moves hm).tells, .gone rfl rfl⟩

/-! ### Uses of the write half, and drops -/

theorem Ctl.resume_next (ctl : Ctl) (r : Option Error) (htells : Tells none sh sh') :
    Tells none sh (ctl.resume r sh').2 ∧ Ctl.Next sh (ctl.resume r sh').2 ctl (ctl.resume r sh').1 := by
  cases ctl with
  | write c =>
    refine ⟨htells, ?_⟩
    obtain ⟨ch, data, offset, pc⟩ := c
    cases pc with
    | sending n => cases r <;> exact .gone rfl rfl
    | _ => exact .same rfl htells
  | read c =>
    refine ⟨htells, ?_⟩
    obtain ⟨ch, want, listener, pc⟩ := c
    cases pc with
    | take pc =>
      cases pc with
      | acking => exact .keeps rfl rfl
      | _ => exact .same rfl htells
    | _ => exact .same rfl htells
  | «open» c =>
    refine ⟨htells, ?_⟩
    obtain ⟨destination, pc⟩ := c
    cases pc with
    | sending ch => cases r <;> exact .gone rfl rfl
    | _ => exact .same rfl htells
  | reader c => exact ⟨htells.trans (c.resume_tells r sh'), .gone rfl rfl⟩
  | close c => exact ⟨htells, .gone rfl rfl⟩
  | holder c => exact ⟨htells, .gone rfl rfl⟩
  | listen c => exact ⟨htells, .gone rfl rfl⟩

theorem Ctl.cancel_next {ctl ctl' : Ctl} {sh1 : Shared} (h : ctl.cancel sh1 = some ctl') :
    Ctl.Next sh sh' ctl ctl' := by
  cases ctl with
  | read c =>
    obtain ⟨c', hc, rfl⟩ := Option.map_eq_some_iff.mp h
    unfold ReadCall.cancel at hc
    split_ifs at hc with hpc
    cases hc
    exact .keeps rfl (by rw [Ctl.listens, Ctl.listens, hpc.1]; rfl)
  | close c | reader c =>
    obtain ⟨c', hc, rfl⟩ := Option.map_eq_some_iff.mp h
    exact .gone rfl rfl
  | _ => cases h

theorem Ctl.drop_next {ctl ctl' : Ctl} (h : ctl.drop = some ctl') : Ctl.Next sh sh' ctl ctl' := by
  cases ctl with
  | write c =>
    obtain ⟨c', hc, rfl⟩ := Option.map_eq_some_iff.mp h
    unfold WriteCall.drop at hc
    split at hc <;> cases hc <;> exact .gone rfl rfl
  | read c =>
    obtain ⟨c', hc, rfl⟩ := Option.map_eq_some_iff.mp h
    unfold ReadCall.drop at hc
    split at hc <;> cases hc <;> exact .gone rfl rfl
  | «open» c =>
    obtain ⟨c', hc, rfl⟩ := Option.map_eq_some_iff.mp h
    unfold OpenCall.drop at hc
    split at hc <;> cases hc <;> exact .gone rfl rfl
  | close c | holder c | listen c | reader c =>
    obtain ⟨c', hc, rfl⟩ := Option.map_eq_some_iff.mp h
    exact .gone rfl rfl

/-- A close that is about to wake does so, and cannot be stopped. -/
theorem Task.Moves.wakes {i : ℕ} {t t' : Task} {e : Event} {ch : ChannelId} (h : t.Moves ng i sh e t' sh')
    (hwill : t.ctl.WillWake ch) (hlt : ch.slot < sh.signals.length) :
    sh.woken ch.slot < sh'.woken ch.slot ∨ t'.ctl.WillWake ch := by
  obtain ⟨c, ids, hctl, hpc, rfl⟩ := hwill
  cases h with
  | ctl a ctl' use' sh' hu hm =>
    rw [hctl] at hm
    cases hm with
    | close c c' use sh' hm =>
      cases hm with
      | idle pc' hno => exact absurd hpc (hno ids)
      | frees ids1 hpc1 => cases hpc.symm.trans hpc1
      | owes ids1 hpc1 =>
        refine .inl ?_
        show sh.woken c.ch.slot < (sh.wake c.ch.slot).woken c.ch.slot
        rw [Tells.woken_wake, if_pos ⟨rfl, hlt⟩]
        omega
      | locks hpc1 => cases hpc.symm.trans hpc1
  | more u a u' sh' hu hm => exact .inr ⟨c, ids, hctl, hpc, rfl⟩
  | ended u a r sh1 hu hm =>
    refine .inr ⟨c, ids, ?_, hpc, rfl⟩
    rw [hctl]
    show Ctl.close (c.resume r) = .close c
    unfold CloseCall.resume
    rw [hpc]
  | cancel u ctl' sh' hu hc hd =>
    rw [hctl] at hc
    obtain ⟨c', hc', rfl⟩ := Option.map_eq_some_iff.mp hc
    unfold CloseCall.cancel at hc'
    split_ifs at hc' with hlock
    cases hpc.symm.trans hlock.1
  | drop u ctl' sh' hu hc hd | dropIdle ctl' hu hc =>
    rw [hctl] at hc
    obtain ⟨c', hc', rfl⟩ := Option.map_eq_some_iff.mp hc
    rw [CloseCall.drop, hpc] at hc'
    cases hc'
  | begin c1 call c' hu hctl1 => cases hctl.symm.trans hctl1
  | decide c1 accept hu hctl1 => cases hctl.symm.trans hctl1
  | dropReader c1 hu hctl1 => cases hctl.symm.trans hctl1

/-- A control step, as the call takes it. -/
theorem State.step_ctl {s : State} {i : ℕ} {t : Task} {a : Act} {ctl' : Ctl} (ht : s.tasks[i]? = some t)
    (hu : t.use = none) (hs : s.step ng (.step i a) = some (s.set i ⟨ctl', use⟩ sh')) :
    t.ctl.step ng a s.sh = some (ctl', use, sh') := by
  obtain ⟨ctl, use0⟩ := t
  cases hu
  simp only [State.step, ht, Task.step] at hs
  obtain ⟨⟨t1, sh1⟩, hstep, heq⟩ := Option.map_eq_some_iff.mp hs
  obtain ⟨⟨ctl1, use1, sh2⟩, hctl, hpair⟩ := Option.map_eq_some_iff.mp hstep
  cases hpair
  have hsh : sh2 = sh' := congrArg State.sh heq
  have htask : (⟨ctl1, use1⟩ : Task) = ⟨ctl', use⟩ := by
    have hlist := congrArg (fun st : State => st.tasks[i]?) heq
    have hlt := (List.getElem?_eq_some_iff.mp ht).1
    simpa [List.getElem?_set_self hlt] using hlist
  cases hsh
  cases htask
  exact hctl

/-- Whatever an event does to a task: what it tells, and where its call waits after it. -/
theorem State.task_tells {s : State} {i : ℕ} {t t' : Task} {e : Event} (ht : s.tasks[i]? = some t)
    (hm : t.Moves ng i s.sh e t' sh') (hs : s.step ng e = some (s.set i t' sh')) :
    TellsAll t.ctl t'.ctl s.sh sh' ∧ Ctl.Next s.sh sh' t.ctl t'.ctl := by
  cases hm with
  | ctl a ctl' use' sh' hu hm => exact Ctl.step_tells (State.step_ctl ht hu hs)
  | more u a u' sh' hu hm => exact ⟨hm.tells.all, .same rfl hm.tells⟩
  | ended u a r sh1 hu hm =>
    obtain ⟨htells, hnext⟩ := t.ctl.resume_next r hm.tells
    exact ⟨htells.all, hnext⟩
  | cancel u ctl' sh' hu hc hd => exact ⟨(Use.drop_tells hd).all, Ctl.cancel_next hc⟩
  | drop u ctl' sh' hu hc hd => exact ⟨(Use.drop_tells hd).all, Ctl.drop_next hc⟩
  | dropIdle ctl' hu hc => exact ⟨(Tells.refl _).all, Ctl.drop_next hc⟩
  | begin c call c' hu hctl h | decide c accept hu hctl h | dropReader c hu hctl h =>
    exact ⟨(Tells.refl _).all, .gone rfl rfl⟩

/-! ## Those who wait -/

/-- Somebody is about to wake those at `ch`. -/
def State.WillWake (s : State) (ch : ChannelId) : Prop :=
  ∃ (i : ℕ) (t : Task), s.tasks[i]? = some t ∧ t.ctl.WillWake ch

/-- A call that has looked at its channel was notified since, or somebody is about to, or it would find the same. -/
structure Ctl.Watches (s : State) (ctl : Ctl) : Prop where
  listens : ∀ ch gen, ctl.listens = some (ch, gen) → gen ≤ s.sh.woken ch.slot
  watch : ∀ ch gen parked, ctl.watch = some (ch, gen, parked) → ch.slot < s.sh.signals.length ∧
    (gen < s.sh.woken ch.slot ∨
      (s.WillWake ch ∨ ∃ slot, s.sh.channels.get ch = some slot ∧ ctl.Blocked slot) ∧
        (parked = true → s.sh.checkLive = none))

theorem Ctl.Watches.of_none {s : State} {ctl : Ctl} (hw : ctl.watch = none) (hl : ctl.listens = none) :
    ctl.Watches s := by
  refine ⟨fun ch gen h => ?_, fun ch gen parked h => ?_⟩
  · cases hl.symm.trans h
  · cases hw.symm.trans h

/-- The step of another. -/
theorem Ctl.Watches.told {s s' : State} {ctl : Ctl} (h : ctl.Watches s) (htells : Tells but s.sh s'.sh)
    (hbut : ∀ ch gen parked, ctl.watch = some (ch, gen, parked) → but = some ch → s'.WillWake ch)
    (hwill : ∀ ch : ChannelId, ch.slot < s.sh.signals.length → s.WillWake ch →
      s.sh.woken ch.slot < s'.sh.woken ch.slot ∨ s'.WillWake ch) : ctl.Watches s' := by
  refine ⟨fun ch gen hl => (h.listens ch gen hl).trans (htells.count _), fun ch gen parked hw => ?_⟩
  obtain ⟨hlt, hcases⟩ := h.watch ch gen parked hw
  refine ⟨htells.signals.symm ▸ hlt, ?_⟩
  have hle := h.listens ch gen (Ctl.listens_of_watch hw)
  by_cases hbump : s.sh.woken ch.slot < s'.sh.woken ch.slot
  · exact .inl (hle.trans_lt hbump)
  rcases hcases with hgen | ⟨hwait, hlive⟩
  · exact .inl (hgen.trans_le (htells.count _))
  refine .inr ⟨?_, fun hparked => (htells.live (hlive hparked)).resolve_right fun hall => hbump (hall _ hlt)⟩
  rcases hwait with hw1 | ⟨slot, hget, hblocked⟩
  · exact .inl ((hwill ch hlt hw1).resolve_left hbump)
  · by_cases hch : but = some ch
    · exact .inl (hbut ch gen parked hw hch)
    · obtain ⟨slot', hget', hno⟩ := (htells.channel ch slot (Ne.symm hch) hget hlt).resolve_left hbump
      exact .inr ⟨slot', hget', hblocked.mono hno⟩

/-- The step of another that leaves nobody out. -/
theorem Ctl.Watches.told_all {s s' : State} {ctl : Ctl} (h : ctl.Watches s) (htells : Tells none s.sh s'.sh)
    (hwill : ∀ ch : ChannelId, ch.slot < s.sh.signals.length → s.WillWake ch →
      s.sh.woken ch.slot < s'.sh.woken ch.slot ∨ s'.WillWake ch) : ctl.Watches s' := by
  refine h.told htells (fun ch gen parked _ hch => ?_) hwill
  cases hch

/-- The step of its own. -/
theorem Ctl.Watches.next {s s' : State} {ctl ctl' : Ctl} (h : ctl.Watches s)
    (hlen : s.sh.signals.length = s.sh.channels.len) (hnext : Ctl.Next s.sh s'.sh ctl ctl')
    (hcount : ∀ idx, s.sh.woken idx ≤ s'.sh.woken idx)
    (hwill : ∀ ch : ChannelId, ch.slot < s.sh.signals.length → s.WillWake ch →
      s.sh.woken ch.slot < s'.sh.woken ch.slot ∨ s'.WillWake ch) : ctl'.Watches s' := by
  cases hnext with
  | same hctl htells =>
    subst hctl
    exact h.told_all htells hwill
  | off hw hl =>
    refine ⟨fun ch gen hl' => ?_, fun ch gen parked hw' => ?_⟩
    · rcases hl ch gen hl' with hold | rfl
      · exact (h.listens ch gen hold).trans (hcount _)
      · exact hcount _
    · cases hw.symm.trans hw'
  | looks ch gen slot hsh hl hw hget hblocked =>
    refine ⟨fun ch1 gen1 hl1 => ?_, fun ch1 gen1 parked hw1 => ?_⟩
    · cases (Ctl.listens_of_watch hw).symm.trans hl1
      exact (h.listens ch gen hl).trans (hcount _)
    · cases hw.symm.trans hw1
      rw [hsh]
      refine ⟨?_, .inr ⟨.inr ⟨slot, hget, hblocked⟩, fun hparked => absurd hparked Bool.false_ne_true⟩⟩
      rw [hlen]
      exact at?_lt (get_eq_some.mp hget).1
  | parks ch gen hsh hw hw' hblocked hlive =>
    refine ⟨fun ch1 gen1 hl1 => ?_, fun ch1 gen1 parked hw1 => ?_⟩
    · cases (Ctl.listens_of_watch hw').symm.trans hl1
      exact (h.listens ch gen (Ctl.listens_of_watch hw)).trans (hcount _)
    · cases hw'.symm.trans hw1
      obtain ⟨hlt, hcases⟩ := h.watch ch gen false hw
      rw [hsh]
      refine ⟨hlt, ?_⟩
      rcases hcases with hgen | ⟨hwait, -⟩
      · exact .inl hgen
      · refine .inr ⟨?_, fun _ => hlive⟩
        rcases hwait with hw1 | ⟨slot, hget, hb⟩
        · refine .inl ((hwill ch hlt hw1).resolve_left ?_)
          rw [hsh]
          exact lt_irrefl _
        · exact .inr ⟨slot, hget, hblocked slot hb⟩

structure Watching (s : State) : Prop where
  len : s.sh.signals.length = s.sh.channels.len
  each : Each (fun _ t => t.ctl.Watches s) s.tasks

/-- No call waits at a slot that another has under guard. -/
def State.Apart (s : State) : Prop :=
  ∀ (i j : ℕ) (t u : Task) (ch : ChannelId) (gen : ℕ) (parked : Bool), s.tasks[i]? = some t → s.tasks[j]? = some u →
    t.ctl.watch = some (ch, gen, parked) → u.ctl.Guards ch → i = j

theorem State.WillWake.task {s : State} {i : ℕ} {t t' : Task} {e : Event} (ht : s.tasks[i]? = some t)
    (hm : t.Moves ng i s.sh e t' sh') (ch : ChannelId) (hlt : ch.slot < s.sh.signals.length) (hwill : s.WillWake ch) :
    s.sh.woken ch.slot < sh'.woken ch.slot ∨ (s.set i t' sh').WillWake ch := by
  obtain ⟨j, u, hu, hw⟩ := hwill
  by_cases hj : j = i
  · subst hj
    cases ht.symm.trans hu
    have hself : (s.set j t' sh').tasks[j]? = some t' :=
      List.getElem?_set_self (List.getElem?_eq_some_iff.mp ht).1
    exact (hm.wakes hw hlt).imp id fun hw' => ⟨j, t', hself, hw'⟩
  · refine .inr ⟨j, u, ?_, hw⟩
    rw [State.set_tasks, List.getElem?_set_ne (Ne.symm hj)]
    exact hu

omit [Usize] in
theorem Ctl.handOver_quiet {ctl ctl' : Ctl} {hd : Holder} (h : ctl.handOver = some (hd, ctl')) :
    ctl'.watch = none ∧ ctl'.listens = none ∧ ∀ ch, ¬ ctl.WillWake ch := by
  cases ctl with
  | listen c | reader c =>
    simp only [Ctl.handOver] at h
    split at h
    · cases h
      refine ⟨rfl, rfl, ?_⟩
      rintro ch ⟨c1, ids, hc, -⟩
      cases hc
    · cases h
  | _ => cases h

namespace Watching

variable {s s' : State} {e : Event}

theorem task {i : ℕ} {t t' : Task} (h : Watching s) (hapart : s.Apart) (ht : s.tasks[i]? = some t)
    (hm : t.Moves ng i s.sh e t' sh') (hs : s.step ng e = some (s.set i t' sh')) : Watching (s.set i t' sh') := by
  obtain ⟨⟨but, htells, hbut⟩, hnext⟩ := State.task_tells ht hm hs
  have hself : (s.set i t' sh').tasks[i]? = some t' := List.getElem?_set_self (List.getElem?_eq_some_iff.mp ht).1
  refine ⟨htells.signals.trans (h.len.trans htells.slots.symm), h.each.set ?_ ?_⟩
  · exact (h.each i t ht).next h.len hnext htells.count (State.WillWake.task ht hm)
  · intro j u hj hu hwatches
    refine hwatches.told htells (fun ch gen parked hw hch => ?_) (State.WillWake.task ht hm)
    rcases hbut ch hch with hguards | hwill
    · exact absurd (hapart j i u t ch gen parked hu ht hw hguards) hj
    · exact ⟨i, t', hself, hwill⟩

/-- Nothing but the list of tasks changes, and no close on it. -/
theorem kept {tasks : List Task} (h : Watching s)
    (hwill : ∀ ch, s.WillWake ch → State.WillWake ⟨s.sh, tasks⟩ ch) :
    Each (fun _ t => t.ctl.Watches ⟨s.sh, tasks⟩) s.tasks := by
  have htells : Tells none s.sh s.sh := .refl _
  exact h.each.mono fun j u hu hw => hw.told_all htells fun ch _ hch => .inr (hwill ch hch)

theorem step (h : Watching s) (hapart : s.Apart) (hs : s.step ng e = some s') : Watching s' := by
  cases State.step_moves hs with
  | task i e t t' sh' ht hm => exact h.task hapart ht hm hs
  | call c =>
    refine ⟨h.len, Each.append (h.kept ?_) ?_⟩
    · rintro ch ⟨k, v, hk, hv⟩
      exact ⟨k, v, (List.getElem?_append_left (List.getElem?_eq_some_iff.mp hk).1).trans hk, hv⟩
    · cases c <;> exact .of_none rfl rfl
  | handOver i t hd ctl' ht hu hh =>
    obtain ⟨hwatch, hlistens, hno⟩ := Ctl.handOver_quiet hh
    refine ⟨h.len, Each.append (Each.set (h.kept ?_) (.of_none hwatch hlistens) fun _ _ _ _ hw => hw) ?_⟩
    · rintro ch ⟨k, v, hk, hv⟩
      refine ⟨k, v, ?_, hv⟩
      have hki : k ≠ i := fun heq => by
        subst heq
        cases ht.symm.trans hk
        exact hno ch hv
      have hlt := (List.getElem?_eq_some_iff.mp hk).1
      rw [List.getElem?_append_left (by rwa [List.length_set]), List.getElem?_set_ne (Ne.symm hki)]
      exact hk
    · exact .of_none rfl rfl
  | listeners e n he =>
    have htells : Tells none s.sh { s.sh with listeners := n } := .same rfl rfl rfl
    exact ⟨h.len, h.each.mono fun j u hu hw => hw.told_all htells fun ch _ hwill => .inr hwill⟩

theorem start (table : ChannelTable) (incoming : IncomingQueue) (desync : Bool) :
    Watching (State.start table incoming desync) := by
  refine ⟨List.length_replicate, fun i t ht => ?_⟩
  have hone : t = ⟨.reader .fresh, none⟩ := by
    have hmem := List.mem_of_getElem? ht
    exact List.mem_singleton.mp hmem
  rw [hone]
  exact .of_none rfl rfl

end Watching

/-! ## Polled again -/

/-- The call goes on by itself, changes nothing and is parked. -/
inductive Ctl.ParksAgain (ng : Negotiated) (sh : Shared) : Ctl → Prop
  | parked (ctl : Ctl) (ch : ChannelId) (gen : ℕ) (h : ctl.watch = some (ch, gen, true)) : ParksAgain ng sh ctl
  | goes (ctl ctl' : Ctl) (h : ctl.step ng .go sh = some (ctl', none, sh)) (hnext : ParksAgain ng sh ctl') :
      ParksAgain ng sh ctl

omit [Usize] in
theorem Shared.checkInStep_of_live (h : sh.checkLive = none) : sh.checkInStep = none := by
  unfold Shared.checkLive at h
  cases hstep : sh.checkInStep with
  | none => rfl
  | some e => rw [hstep] at h; cases h

theorem WriteCall.parksAgain {c : WriteCall} {place : ℕ} {slot : ChannelSlot} (hget : sh.channels.get c.ch = some slot)
    (hclosed : slot.isClosed = false) (hline : slot.budget = none ∨ slot.sendQueue.turn ≠ place)
    (hlive : sh.checkLive = none) : Ctl.ParksAgain ng sh (.write (c.goto (.listen place))) := by
  have hres : ∀ pc, (c.goto pc).tryReserve ng place sh = .ok none := by
    intro pc
    unfold WriteCall.tryReserve
    rw [goto_ch, hget]
    dsimp only
    rw [hclosed]
    by_cases hturn : slot.sendQueue.turn = place
    · have hbudget := hline.resolve_right (not_not.mpr hturn)
      simp [hturn, ChannelSlot.tryReserveSend, hbudget]
    · simp [hturn]
  have hlook : ∀ gen, (c.goto (.reserve place gen)).step ng .go sh = some (c.goto (.live place gen), none, sh) := by
    intro gen
    simp only [WriteCall.step, goto_pc, hres]
    rfl
  have hpark : ∀ gen, (c.goto (.live place gen)).step ng .go sh = some (c.goto (.parked place gen), none, sh) := by
    intro gen
    simp only [WriteCall.step, goto_pc, hlive]
    rfl
  refine .goes _ (.write (c.goto (.reserve place (sh.woken c.ch.slot)))) rfl ?_
  refine .goes _ (.write (c.goto (.live place _))) (by rw [Ctl.step, hlook]; rfl) ?_
  exact .goes _ (.write (c.goto (.parked place _))) (by rw [Ctl.step, hpark]; rfl) (.parked _ _ _ rfl)

theorem ReadCall.parksAgain {c : ReadCall} {slot : ChannelSlot} (hget : sh.channels.get c.ch = some slot)
    (hclosed : slot.isClosed = false) (hdata : slot.hasData = false) (hlive : sh.checkLive = none) :
    Ctl.ParksAgain ng sh (.read { c with listener := none, pc := .take .look }) := by
  have htake : TakePc.step c.ch c.want .look .go sh = some (.ended (.ok none), none, sh) := by
    have hbuffered : slot.takeBuffered c.want = .ok none := by
      simp [ChannelSlot.takeBuffered, hdata, hclosed]
    have hacks : slot.takeAcks c.want = false := by
      simp [ChannelSlot.takeAcks, hdata]
    simp [TakePc.step, hget, hdata, Shared.checkInStep_of_live hlive, hacks, hbuffered]
  have hlook : ∀ listener, ({ c with listener, pc := .take .look } : ReadCall).step .go sh =
      some ({ c with listener, pc := .live }, none, sh) := by
    intro listener
    simp only [ReadCall.step, htake]
    rfl
  refine .goes _ (.read { c with listener := none, pc := .live }) (by rw [Ctl.step, hlook]; rfl) ?_
  refine .goes _ (.read { c with listener := none, pc := .listen }) ?_ ?_
  · simp only [Ctl.step, ReadCall.step, hlive]
    rfl
  refine .goes _ (.read { c with listener := some (sh.woken c.ch.slot), pc := .take .look }) rfl ?_
  refine .goes _ (.read { c with listener := some (sh.woken c.ch.slot), pc := .live }) (by rw [Ctl.step, hlook]; rfl) ?_
  refine .goes _ (.read { c with listener := some (sh.woken c.ch.slot), pc := .waiting (sh.woken c.ch.slot) }) ?_
    (.parked _ _ _ rfl)
  simp only [Ctl.step, ReadCall.step, hlive]
  rfl

theorem OpenCall.parksAgain {c : OpenCall} {ch : ChannelId} {slot : ChannelSlot} (hget : sh.channels.get ch = some slot)
    (hstate : slot.state = .opening) (hlive : sh.checkLive = none) :
    Ctl.ParksAgain ng sh (.«open» (c.goto (.inStep ch))) := by
  refine .goes _ (.«open» (c.goto (.listen ch))) ?_ ?_
  · simp only [Ctl.step, OpenCall.step, OpenCall.goto, Shared.checkInStep_of_live hlive]
    rfl
  refine .goes _ (.«open» (c.goto (.look ch (sh.woken ch.slot)))) rfl ?_
  refine .goes _ (.«open» (c.goto (.live ch (sh.woken ch.slot)))) ?_ ?_
  · simp only [Ctl.step, OpenCall.step, OpenCall.goto, hget, hstate]
    rfl
  refine .goes _ (.«open» (c.goto (.parked ch (sh.woken ch.slot)))) ?_ (.parked _ _ _ rfl)
  simp only [Ctl.step, OpenCall.step, OpenCall.goto, hlive]
  rfl

/-- A call that is blocked, notified for nothing. -/
theorem Ctl.Blocked.polled {ctl : Ctl} {ch : ChannelId} {gen : ℕ} {slot : ChannelSlot} (hb : ctl.Blocked slot)
    (hw : ctl.watch = some (ch, gen, true)) (hget : sh.channels.get ch = some slot) (hlive : sh.checkLive = none)
    (hlt : ch.slot < sh.signals.length) (hle : gen ≤ sh.woken ch.slot) :
    ∃ ctl', ctl.step ng .wake (sh.wake ch.slot) = some (ctl', none, sh.wake ch.slot) ∧
      Ctl.ParksAgain ng (sh.wake ch.slot) ctl' := by
  have hgen : gen < (sh.wake ch.slot).signals.getD ch.slot 0 := by
    show gen < (sh.wake ch.slot).woken ch.slot
    rw [Tells.woken_wake, if_pos ⟨rfl, hlt⟩]
    omega
  cases ctl with
  | write c =>
    obtain ⟨ch1, data, offset, pc⟩ := c
    cases pc with
    | parked place gen1 =>
      cases hw
      refine ⟨.write ⟨ch1, data, offset, .listen place⟩, ?_, ?_⟩
      · simp only [Ctl.step, WriteCall.step, if_pos hgen]
        rfl
      · exact WriteCall.parksAgain (c := ⟨ch1, data, offset, .parked place gen⟩) hget hb.1 (hb.2 place rfl) hlive
    | _ => cases hw
  | read c =>
    obtain ⟨ch1, want, listener, pc⟩ := c
    cases pc with
    | waiting gen1 =>
      cases hw
      refine ⟨.read ⟨ch1, want, none, .take .look⟩, ?_, ?_⟩
      · simp only [Ctl.step, ReadCall.step, if_pos hgen]
        rfl
      · exact ReadCall.parksAgain (c := ⟨ch1, want, none, .take .look⟩) hget hb.1 hb.2 hlive
    | live =>
      obtain ⟨gen1, -, heq⟩ := Option.map_eq_some_iff.mp hw
      cases heq
    | _ => cases hw
  | «open» c =>
    obtain ⟨destination, pc⟩ := c
    cases pc with
    | parked ch1 gen1 =>
      cases hw
      refine ⟨.«open» ⟨destination, .inStep ch⟩, ?_, ?_⟩
      · simp only [Ctl.step, OpenCall.step, if_pos hgen]
        rfl
      · exact OpenCall.parksAgain (c := ⟨destination, .inStep ch⟩) hget hb hlive
    | _ => cases hw
  | _ => cases hw

/-- **No wakeup on a channel is lost**, if no call waits with a `ChannelId` that an `open_channel` or an accept of
another task has not returned yet: whoever is parked and was not notified would park again. -/
theorem parked_calls_would_park_again (ng : Negotiated) (table : ChannelTable) (incoming : IncomingQueue)
    (desync : Bool) (es : List Event) (s : State)
    (hrun : Run (State.step ng) (fun a _ => a.Apart) (State.start table incoming desync) es s) (i : ℕ) (t : Task)
    (ch : ChannelId) (gen : ℕ) (ht : s.tasks[i]? = some t) (hw : t.ctl.watch = some (ch, gen, true))
    (hnot : ¬ gen < s.sh.woken ch.slot) (hquiet : ¬ s.WillWake ch) :
    ∃ ctl, t.ctl.step ng .wake (s.sh.wake ch.slot) = some (ctl, none, s.sh.wake ch.slot) ∧
      Ctl.ParksAgain ng (s.sh.wake ch.slot) ctl := by
  have hwatching : Watching s :=
    hrun.invariant (.start table incoming desync) fun _ _ _ ha hapart hs => ha.step hapart hs
  have hown := hwatching.each i t ht
  obtain ⟨hlt, hcases⟩ := hown.watch ch gen true hw
  obtain ⟨hwait, hlive⟩ := hcases.resolve_left hnot
  obtain ⟨slot, hget, hblocked⟩ := hwait.resolve_left hquiet
  exact hblocked.polled hw hget (hlive rfl) hlt (hown.listens ch gen (Ctl.listens_of_watch hw))

end Steps

/-! ### A writer that waits, and a read that is left parked -/

/-- Whether nothing is under guard. -/
def Ctl.guardFree : Ctl → Bool
  | .«open» _ | .holder _ => false
  | .reader c => c.guard.isNone && c.pc = .idle
  | _ => true

theorem apart_of_guardFree {s : State} (h : (s.tasks.all fun t => t.ctl.guardFree) = true) : s.Apart := by
  intro i j t u ch gen parked _ hu _ hguards
  have hfree := List.all_eq_true.mp h u (List.mem_of_getElem? hu)
  exfalso
  cases hctl : u.ctl with
  | reader c =>
    rw [hctl] at hfree hguards
    obtain ⟨hguard, hidle⟩ := Bool.and_eq_true_iff.mp hfree
    rcases hguards with hg | ⟨h1, href, -⟩
    · rw [hg] at hguard
      cases hguard
    · rw [of_decide_eq_true hidle] at href
      cases href
  | «open» c | holder c =>
    rw [hctl] at hfree
    cases hfree
  | _ =>
    rw [hctl] at hguards
    exact hguards

/-- Whether the next step of the call is the wake of a close. -/
def Ctl.wakesNext : Ctl → Bool
  | .close c =>
    match c.pc with
    | .owe _ => true
    | _ => false
  | _ => false

theorem not_willWake_of_all {s : State} (h : (s.tasks.all fun t => !t.ctl.wakesNext) = true) (ch : ChannelId) :
    ¬ s.WillWake ch := by
  rintro ⟨i, t, ht, c, ids, hctl, hpc, -⟩
  have hno := List.all_eq_true.mp h t (List.mem_of_getElem? ht)
  rw [hctl, Ctl.wakesNext, hpc] at hno
  cases hno

set_option maxRecDepth 20000 in
/-- A writer without credit, on the open channel. -/
theorem parked_calls_would_park_again_writer :
    ∃ s t gen, Runs.exec (Runs.guarded (@State.step usize64 sampleNegotiated)
        fun a _ => a.tasks.all fun t => t.ctl.guardFree) (State.start sampleTable [] false) parks = some s ∧
      s.tasks[1]? = some t ∧
      t.ctl.watch = some (⟨0, ⟨1⟩⟩, gen, true) ∧
      ∃ ctl, @Ctl.step usize64 sampleNegotiated .wake (s.sh.wake 0) t.ctl = some (ctl, none, s.sh.wake 0) ∧
        @Ctl.ParksAgain usize64 sampleNegotiated (s.sh.wake 0) ctl := by
  have hrun := fun s h => @parked_calls_would_park_again usize64 sampleNegotiated sampleTable [] false parks s
    (Runs.Run.of_guarded (p := fun a _ => a.tasks.all fun t => t.ctl.guardFree) (fun _ _ => apart_of_guardFree) h)
  exact ⟨_, _, _, rfl, rfl, rfl, hrun _ rfl 1 _ ⟨0, ⟨1⟩⟩ _ rfl rfl (by decide) (not_willWake_of_all rfl _)⟩

/-- A request is in hand, the channel is closed, an accept gets its `ChannelId`, a read waits with the old one, and the
accept is dropped. -/
def leftParked : List Event :=
  queuesOpen 21 ++ takesRequest ++ [.call (.close ⟨0, ⟨1⟩⟩), .step 2 .go, .step 2 .go, .step 2 .go,
    .decide 1 true, .step 1 .go,
    .call (.read ⟨0, ⟨1⟩⟩ 4), .step 3 .go, .step 3 .go, .step 3 .go, .step 3 .go, .step 3 .go, .step 3 .go,
    .drop 1, .step 1 .go, .step 1 .go]

set_option maxRecDepth 20000 in
/-- The read is parked, was not notified, and would find its channel gone. -/
theorem stale_read_left_parked :
    (∃ ops h, Runs.Run (@TableHistory.step usize64) Runs.Any
        (TableHistory.start 2 (@Negotiated.rxPolicy usize64 sampleNegotiated)) ops h ∧ h.table = roundTable) ∧
    ∃ s c gen, Runs.exec (@State.step usize64 sampleNegotiated) (State.start roundTable [] false) leftParked = some s ∧
      s.tasks[3]? = some ⟨.read c, none⟩ ∧ (Ctl.read c).watch = some (⟨0, ⟨1⟩⟩, gen, true) ∧
      ¬ gen < s.sh.woken 0 ∧ (∀ ch, ¬ s.WillWake ch) ∧
      ∃ c1 c2 sh, c.step .wake (s.sh.wake 0) = some (c1, none, s.sh.wake 0) ∧
        c1.step .go (s.sh.wake 0) = some (c2, none, sh) ∧ c2.pc = .failed .channelClosed := by
  exact ⟨roundTable_reached, _, _, _, rfl, rfl, rfl, by decide, not_willWake_of_all rfl, _, _, _, rfl, rfl, rfl⟩

end LibAdb.Split
