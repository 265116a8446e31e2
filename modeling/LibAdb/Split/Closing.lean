import LibAdb.Split.Waiting

/-!
# LibAdb.Split.Closing — writes and the close of their channel

`write_channel` reads the ids of its channel and only then waits for the write half; `close_channel_via` frees the slot
and leaves the CLSE as a debt, and whoever takes the write half next pays it.  A write that has its ids when the channel
is closed is such a one: its own `lock_write` sends the CLSE, and its WRTE follows.

* `Task.Carries ids` is a write between the two: it has the ids, and its WRTE is not done.
* `Orderly` says that no CLSE is written while a write carries its ids, and that no channel has the ids of a CLSE that
  was written.  In the runs that keep to it no WRTE follows the CLSE of its channel.
* `close_channel` sees to the second: the slot is free before the CLSE is owed, and its local id stays `Vacant` until
  the counter comes round (`closed_channel_stays_silent`).  A failed channel has its slot still.
-/

namespace LibAdb.Split

open Tasks

/-! ## What is on the wire -/

/-- A WRTE of the channel with these ids. -/
def IsWrite (ids : ChannelIds) (pkt : Packet) : Prop :=
  pkt.command = .write ∧ pkt.arg0 = ids.localId.raw ∧ pkt.arg1 = ids.remote.raw

instance (ids : ChannelIds) (pkt : Packet) : Decidable (IsWrite ids pkt) := inferInstanceAs (Decidable (_ ∧ _))

/-- The host's CLSE for these ids has been written. -/
def Clsed (ids : ChannelIds) (tr : List Obs) : Prop := ∃ i debt, Obs.wrote i debt (Packet.close ids) ∈ tr

/-- No WRTE with these ids was written after the CLSE. -/
def SilentAfter (ids : ChannelIds) (tr : List Obs) : Prop :=
  ∀ pre i debt post, tr = pre ++ .wrote i debt (Packet.close ids) :: post →
    ∀ j debt' pkt, .wrote j debt' pkt ∈ post → ¬ IsWrite ids pkt

/-- No WRTE was written after the CLSE of its channel. -/
def NoneAfterClose (tr : List Obs) : Prop := ∀ ids, SilentAfter ids tr

variable {ids : ChannelIds}

theorem Clsed.append {tr obs : List Obs} : Clsed ids (tr ++ obs) ↔ Clsed ids tr ∨ Clsed ids obs := by
  simp only [Clsed, List.mem_append, exists_or]

/-- At most one packet is added, and it is no WRTE of a closed channel. -/
theorem SilentAfter.append {tr obs : List Obs} (h : SilentAfter ids tr) (hone : obs.length ≤ 1)
    (hobs : ∀ j debt pkt, Clsed ids tr → .wrote j debt pkt ∈ obs → ¬ IsWrite ids pkt) :
    SilentAfter ids (tr ++ obs) := by
  intro pre i debt post htr j debt' pkt hmem
  rcases append_eq_append_cons htr with ⟨post', rfl, rfl⟩ | ⟨pre', rfl, rfl⟩
  · rcases List.mem_append.mp hmem with hmem | hmem
    · exact h pre i debt post' rfl j debt' pkt hmem
    · exact hobs j debt' pkt ⟨i, debt, by simp⟩ hmem
  · -- the CLSE is the one entry that is new
    have : post = [] := by
      rw [List.length_append, List.length_cons] at hone
      exact List.eq_nil_of_length_eq_zero (by omega)
    subst this
    cases hmem

theorem SilentAfter.append_away {tr obs : List Obs} (h : SilentAfter ids tr)
    (hnone : ∀ j debt pkt, Obs.wrote j debt pkt ∉ obs) : SilentAfter ids (tr ++ obs) := by
  intro pre i debt post htr j debt' pkt hmem
  rcases append_eq_append_cons htr with ⟨post', rfl, rfl⟩ | ⟨pre', rfl, rfl⟩
  · rcases List.mem_append.mp hmem with hmem | hmem
    · exact h pre i debt post' rfl j debt' pkt hmem
    · exact absurd hmem (hnone j debt' pkt)
  · exact absurd (by simp) (hnone i debt (Packet.close ids))

/-! ## Who writes a WRTE -/

section Steps

variable {sh sh' : Shared} {use : Option Use} {pkt : Packet}

/-- A use that is begun for a WRTE has the ids of a channel in the table. -/
def Named (sh : Shared) (use : Option Use) : Prop :=
  ∀ u pkt, use = some u → u.job = .send pkt → pkt.command = .write →
    ∃ ch ids, sh.channels.ids ch = .ok ids ∧ IsWrite ids pkt

theorem Named.none : Named sh none := by
  intro u pkt hu
  cases hu

theorem Named.other {job : Job} (h : ∀ pkt, job ≠ .send pkt) : Named sh (some (.start job)) := by
  intro u pkt hu hjob _
  cases hu
  exact absurd hjob (h pkt)

theorem TakePc.Moves.named {ch : ChannelId} {want : ℕ} {pc : TakePc} {next : TakeNext}
    (h : TakePc.Moves ch want sh pc next use sh') : Named sh use := by
  cases h with
  | acks => exact .other nofun
  | _ => exact .none

variable [Usize] {ng : Negotiated}

theorem takeSlot_named {destination : Bytes} {ch : ChannelId} {u : Use}
    (h : takeSlot ng destination sh = .ok (ch, u, sh')) : Named sh (some u) := by
  unfold takeSlot at h
  split at h
  · cases h
  · cases h
    intro u pkt hu hjob hcmd
    cases hu
    cases hjob
    cases hcmd

theorem HolderCall.Moves.named {c c' : HolderCall} (h : c.Moves ng sh c' use sh') : Named sh use := by
  cases h with
  | noSlot => exact .other nofun
  | reserves => exact .other nofun
  | rejects => exact .other nofun
  | _ => exact .none

theorem ReaderTask.Moves.named {c c' : ReaderTask} (h : c.Moves ng sh c' use sh') : Named sh use := by
  cases h with
  | plain c' use sh' hl hl' huse =>
    intro u pkt hu hjob _
    rw [huse u hu] at hjob
    cases hjob
  | allocates destination ch u sh' hpc htake => exact takeSlot_named htake
  | takes ch want pc pc' d use sh' hcall hpc hm => exact hm.named
  | taken ch want pc d r sh1 hcall hpc hm =>
    obtain ⟨-, huse, -⟩ := c.taken_said d r sh1
    rw [huse]
    exact .none
  | inner h h' pc' use sh' hpc hpc' hm => exact hm.named
  | received pkt hpc =>
    have huse : (c.receive pkt sh).2.1 = none := by
      unfold receive
      split
      · split_ifs
        · unfold openReady
          split
          · rfl
          · split <;> rfl
        · rfl
        · rfl
      · rfl
    rw [huse]
    exact .none
  | _ => exact .none

theorem Ctl.Moves.named {ctl ctl' : Ctl} (h : Ctl.Moves ng sh ctl ctl' use sh') : Named sh use := by
  cases h with
  | write c c' use sh' hm =>
    cases hm with
    | sends n ids hpc hids =>
      intro u pkt hu hjob _
      cases hu
      cases hjob
      exact ⟨_, ids, hids, rfl, rfl, rfl⟩
    | _ => exact .none
  | close c c' use sh' hm =>
    cases hm with
    | locks => exact .other nofun
    | _ => exact .none
  | read c c' use sh' hm =>
    cases hm with
    | takes pc pc' use sh' hpc ht => exact ht.named
    | empty pc use sh' hpc ht => exact ht.named
    | returns pc out use sh' hpc ht => exact ht.named
    | _ => exact .none
  | «open» c c' use sh' hm =>
    cases hm with
    | takes ch u sh' hpc ht => exact takeSlot_named ht
    | _ => exact .none
  | holder c c' use sh' hm => exact hm.named
  | listen c c' use sh' hm =>
    cases hm with
    | _ => exact .none
  | reader c c' use sh' hm => exact hm.named

/-- What a step with the write half puts on the wire: a packet's last byte is accepted, or nothing is. -/
theorem Use.Moves.wrote {i : ℕ} {u : Use} {a : Act} {next : UseNext} (h : u.Moves ng i sh a next sh') :
    (∃ obs, sh'.trace = sh.trace ++ obs ∧ ∀ j debt pkt, Obs.wrote j debt pkt ∉ obs) ∨
      a = .accept ∧ ∃ debt pkt, sh'.trace = sh.trace ++ [.wrote i debt pkt] ∧
        ((∃ d, u.pc = .paying d false ∧ pkt = d.packet ng.ackMode) ∨ u.pc = .sending pkt false) := by
  cases h with
  | debtWritten d hpc _ => exact Or.inr ⟨rfl, true, _, rfl, Or.inl ⟨d, hpc, rfl⟩⟩
  | written pkt hpc _ => exact Or.inr ⟨rfl, false, pkt, rfl, Or.inr hpc⟩
  | noDebt | debtRefused | debtFailed | debtGone => exact Or.inl ⟨[], by simp, nofun⟩
  | failed pkt whole e =>
    refine Or.inl ⟨[], ?_, nofun⟩
    rw [Shared.release_trace, List.append_nil]
    unfold Shared.writeFailed
    split_ifs <;> rfl
  | flushed pkt => exact Or.inl ⟨[.flushed false pkt], by simp, by simp⟩
  | acquire | debtBegun | debtFlushed | popped | forgiven => exact Or.inl ⟨[_], rfl, by simp⟩
  | own _ _ _ hown =>
    left
    cases hown with
    | release => exact ⟨[], by simp, nofun⟩
    | refused => exact ⟨[], by simp, nofun⟩
    | settled ch want ack sh1 _ h1 =>
      obtain ⟨channels, rfl⟩ := settled_inv h1
      exact ⟨[.settled ack], by simp, by simp⟩
    | begun pkt => exact ⟨[.begun false pkt], rfl, by simp⟩
    | okay ch want ack sh1 _ h1 =>
      obtain ⟨channels, rfl⟩ := settled_inv h1
      exact ⟨[.settled ack, .begun false (okayPacket ack ng.ackMode)], by simp, by simp⟩

/-! ## Tasks -/

namespace Task

/-- A write that has the ids of its channel, and whose WRTE is not done. -/
def Carries (ids : ChannelIds) (t : Task) : Prop :=
  ∃ u pkt, t.use = some u ∧ u.job = .send pkt ∧ IsWrite ids pkt

/-- A WRTE is written only by the use that was begun for it, and a write call that has returned has none under way. -/
structure Fit (t : Task) : Prop where
  proper : ∀ u, t.use = some u → u.job.Proper
  own : ∀ u pkt whole, t.use = some u → u.pc = .sending pkt whole → pkt.command = .write → u.job = .send pkt
  sends : ∀ c u, t.ctl = .write c → t.use = some u → ∃ n, c.pc = .sending n

omit [Usize] in
theorem Fit.idle (ctl : Ctl) : Fit ⟨ctl, none⟩ := by
  refine ⟨fun u hu => ?_, fun u pkt whole hu => ?_, fun c u _ hu => ?_⟩ <;> cases hu

theorem Fit.more {i : ℕ} {u u' : Use} {a : Act} {t : Task} (h : t.Fit) (hu : t.use = some u)
    (hm : u.Moves ng i sh a (.more u') sh') : Fit ⟨t.ctl, some u'⟩ := by
  have hjob := hm.more_inv.1
  have hproper := h.proper u hu
  refine ⟨fun u1 hu1 => ?_, fun u1 pkt whole hu1 hpc hcmd => ?_, fun c u1 hc _ => h.sends c u hc hu⟩
  · cases hu1
    rwa [hjob]
  · cases hu1
    cases hm with
    | acquire => revert hpc; cases u.job <;> nofun
    | own _ _ _ hown =>
      cases hown with
      | begun pkt1 hj =>
        cases hpc
        rcases hj with hj | hj
        · exact hj
        · rw [hj] at hproper
          rcases hproper with hp | hp <;> cases hcmd.symm.trans hp
      | okay ch want ack sh1 =>
        cases hpc
        cases hcmd
    | written pkt1 hpc1 =>
      cases hpc
      exact h.own u pkt false hu hpc1 hcmd
    | _ => cases hpc

theorem Fit.moves {i : ℕ} {t t' : Task} {e : Event} (h : t.Fit) (hm : t.Moves ng i sh e t' sh') : t'.Fit := by
  obtain ⟨ctl, use0⟩ := t
  cases hm with
  | ctl a ctl' use' sh' hu hc =>
    have hbegins := hc.controls.begins
    refine ⟨fun u hu' => ?_, fun u pkt whole hu' hpc => ?_, fun c u hctl hu' => ?_⟩
    · obtain ⟨job, rfl, hjob⟩ := hbegins u hu'
      exact hjob
    · obtain ⟨job, rfl, -⟩ := hbegins u hu'
      cases hpc
    · cases hc with
      | write c0 c1 use1 sh1 hw =>
        cases hctl
        cases hw with
        | sends n => exact ⟨n, rfl⟩
        | _ => cases hu'
      | _ => cases hctl
  | more u a u' sh' hu hm => exact h.more hu hm
  | _ => exact .idle _

/-- A write carries ids it carried before, or read from the table. -/
theorem Moves.carries {i : ℕ} {t t' : Task} {e : Event} {ids : ChannelIds} (hm : t.Moves ng i sh e t' sh')
    (h : t'.Carries ids) : t.Carries ids ∨ ∃ ch, sh.channels.ids ch = .ok ids := by
  obtain ⟨u1, pkt, hu1, hjob, hw⟩ := h
  cases hm with
  | ctl a ctl' use' sh' hu hc =>
    obtain ⟨ch, ⟨⟨l⟩, ⟨r⟩⟩, hids, -, h0, h1⟩ := hc.named u1 pkt hu1 hjob hw.1
    obtain ⟨⟨l'⟩, ⟨r'⟩⟩ := ids
    obtain rfl : l = l' := h0.symm.trans hw.2.1
    obtain rfl : r = r' := h1.symm.trans hw.2.2
    exact Or.inr ⟨ch, hids⟩
  | more u a u' sh' hu hm =>
    cases hu1
    exact Or.inl ⟨u, pkt, hu, hm.more_inv.1.symm.trans hjob, hw⟩
  | _ => cases hu1

end Task

end Steps

/-! ## The system -/

section System

variable [Usize] {ng : Negotiated} {s s' : State} {e : Event}

/-- The event puts the last byte of the CLSE for these ids on the wire. -/
def State.WritesClose (s : State) (e : Event) (ids : ChannelIds) : Prop :=
  ∃ i t u, e = .step i .accept ∧ s.tasks[i]? = some t ∧ t.use = some u ∧
    (u.pc = .paying (.close ids) false ∨ u.pc = .sending (Packet.close ids) false)

/-- No CLSE with these ids is written while a write carries them, and no channel has them once it was written. -/
def State.Spares (ids : ChannelIds) (s : State) (e : Event) : Prop :=
  (s.WritesClose e ids → Each (fun _ t => ¬ t.Carries ids) s.tasks) ∧
    (Clsed ids s.sh.trace → ∀ ch, s.sh.channels.ids ch ≠ .ok ids)

/-- No CLSE is written while a write carries its ids, and no channel has the ids of a CLSE that was written. -/
def State.Orderly (s : State) (e : Event) : Prop := ∀ ids, s.Spares ids e

structure CloseInv (ids : ChannelIds) (s : State) : Prop where
  fit : Each (fun _ t => t.Fit) s.tasks
  done : Clsed ids s.sh.trace → Each (fun _ t => ¬ t.Carries ids) s.tasks
  order : SilentAfter ids s.sh.trace

omit [Usize] in
/-- Nothing is written: a CLSE that was written was so before. -/
theorem Clsed.of_away {tr obs : List Obs} (hnone : ∀ j debt pkt, Obs.wrote j debt pkt ∉ obs)
    (h : Clsed ids (tr ++ obs)) : Clsed ids tr := by
  rcases Clsed.append.mp h with h | ⟨j, debt, h⟩
  · exact h
  · exact absurd h (hnone _ _ _)

omit [Usize] in
theorem Quiet.wrote {sh sh' : Shared} (h : Quiet sh sh') :
    ∃ obs, sh'.trace = sh.trace ++ obs ∧ ∀ j debt pkt, Obs.wrote j debt pkt ∉ obs := by
  obtain ⟨obs, htr, -, hobs⟩ := h.trace
  exact ⟨obs, htr, fun j debt pkt hmem => nomatch hobs _ hmem⟩

/-- What a task's step puts on the wire. -/
theorem Task.Moves.wrote {i : ℕ} {t t' : Task} {e : Event} {sh sh' : Shared} (h : t.Moves ng i sh e t' sh') :
    (∃ obs, sh'.trace = sh.trace ++ obs ∧ ∀ j debt pkt, Obs.wrote j debt pkt ∉ obs) ∨
      e = .step i .accept ∧ ∃ u debt pkt, t.use = some u ∧ sh'.trace = sh.trace ++ [.wrote i debt pkt] ∧
        ((∃ d, u.pc = .paying d false ∧ pkt = d.packet ng.ackMode) ∨ u.pc = .sending pkt false) := by
  have hdrop : ∀ (u : Use) (sh1 : Shared), u.drop sh = some sh1 → ∃ obs, sh1.trace = sh.trace ++ obs ∧
      ∀ j debt pkt, Obs.wrote j debt pkt ∉ obs := by
    intro u sh1 hd
    refine ⟨[], ?_, nofun⟩
    unfold Use.drop at hd
    split at hd <;> cases hd <;> simp
  cases h with
  | ctl a ctl' use' sh' hu hc => exact Or.inl hc.controls.quiet.wrote
  | more u a u' sh' hu hm =>
    rcases hm.wrote with hnone | ⟨rfl, debt, pkt, htr, hpc⟩
    · exact Or.inl hnone
    · exact Or.inr ⟨rfl, u, debt, pkt, hu, htr, hpc⟩
  | ended u a r sh1 hu hm =>
    obtain ⟨obs', htr', hnone'⟩ := (t.ctl.resume_quiet r sh1).wrote
    left
    rcases hm.wrote with ⟨obs, htr, hnone⟩ | ⟨rfl, debt, pkt, htr, hpc⟩
    · refine ⟨obs ++ obs', by rw [htr', htr, List.append_assoc], fun j debt pkt hmem => ?_⟩
      rcases List.mem_append.mp hmem with hmem | hmem
      · exact hnone _ _ _ hmem
      · exact hnone' _ _ _ hmem
    · -- the last byte of a packet does not end a use
      cases hm
  | cancel u ctl' sh' hu _ hd => exact Or.inl (hdrop u _ hd)
  | drop u ctl' sh' hu _ hd => exact Or.inl (hdrop u _ hd)
  | _ => exact Or.inl ⟨[], by simp, nofun⟩

omit [Usize] in
/-- A debt is not a WRTE. -/
theorem Owed.packet_not_write (d : Owed) (mode : AckMode) : ¬ IsWrite ids (d.packet mode) := by
  cases d <;> exact fun h => nomatch h.1

omit [Usize] in
/-- The debt whose packet is the CLSE for these ids. -/
theorem Owed.eq_close {d : Owed} {mode : AckMode} (h : d.packet mode = Packet.close ids) : d = .close ids := by
  obtain ⟨⟨l⟩, ⟨r⟩⟩ := ids
  cases d with
  | okay ack => cases h
  | close ids' =>
    obtain ⟨⟨l'⟩, ⟨r'⟩⟩ := ids'
    cases h
    rfl

theorem CloseInv.task {i : ℕ} {t t' : Task} {sh' : Shared} (h : CloseInv ids s) (hord : s.Spares ids e)
    (ht : s.tasks[i]? = some t) (hm : t.Moves ng i s.sh e t' sh') :
    (Clsed ids sh'.trace → Each (fun _ t => ¬ t.Carries ids) (s.tasks.set i t')) ∧ SilentAfter ids sh'.trace := by
  rcases hm.wrote with ⟨obs, htr, hnone⟩ | ⟨rfl, u, debt, pkt, hu, htr, hpc⟩
  · rw [htr]
    refine ⟨fun hcl => ?_, h.order.append_away hnone⟩
    -- a task that carries ids after the step is one that did, or its ids are in the table
    have hcl := hcl.of_away hnone
    refine (h.done hcl).set (fun hc => ?_) fun _ _ _ _ hu => hu
    rcases hm.carries hc with hc | ⟨ch, hids⟩
    · exact h.done hcl i t ht hc
    · exact hord.2 hcl ch hids
  · -- the step is with the write half, so no ids are read from the table in it
    have hsame : t'.use.map Use.job = t.use.map Use.job := by
      cases hm with
      | ctl _ _ _ _ hu' => rw [hu'] at hu; cases hu
      | more u1 a u2 _ hu1 hm1 => rw [hu1]; exact congrArg some hm1.more_inv.1
      | ended u1 a r sh1 hu1 hm1 => cases hm1
    rw [htr]
    refine ⟨fun hcl => ?_, h.order.append le_rfl fun j debt' pkt' hcl hmem hw => ?_⟩
    · have hnow : Each (fun _ t => ¬ t.Carries ids) s.tasks := by
        rcases Clsed.append.mp hcl with hcl | ⟨j, debt', hmem⟩
        · exact h.done hcl
        · obtain ⟨rfl, rfl, rfl⟩ : j = i ∧ debt' = debt ∧ Packet.close ids = pkt := by simpa using hmem
          refine hord.1 ⟨j, t, u, rfl, ht, hu, ?_⟩
          rcases hpc with ⟨d, hpc, heq⟩ | hpc
          · exact Or.inl (Owed.eq_close heq.symm ▸ hpc)
          · exact Or.inr hpc
      refine hnow.set (fun hc => hnow i t ht ?_) fun _ _ _ _ hu => hu
      obtain ⟨u', pkt', hu', hjob, hw⟩ := hc
      rw [hu', hu] at hsame
      exact ⟨u, pkt', hu, (Option.some.inj hsame).symm.trans hjob, hw⟩
    · obtain ⟨rfl, rfl, rfl⟩ : j = i ∧ debt' = debt ∧ pkt' = pkt := by simpa using hmem
      rcases hpc with ⟨d, hpc, rfl⟩ | hpc
      · exact d.packet_not_write _ hw
      · exact h.done hcl j t ht ⟨u, pkt', hu, (h.fit j t ht).own u pkt' false hu hpc hw.1, hw⟩

theorem State.Moves.fit (hm : s.Moves ng e s') (h : Each (fun _ t => t.Fit) s.tasks) :
    Each (fun _ t => t.Fit) s'.tasks := by
  cases hm with
  | task i e t t' sh' ht hm => exact h.set ((h i t ht).moves hm) fun _ _ _ _ hu => hu
  | call c => exact h.append (.idle _)
  | handOver i t hd ctl' ht hu hh => exact (h.set (.idle _) fun _ _ _ _ hu => hu).append (.idle _)
  | listeners e n _ => exact h

theorem CloseInv.moves (h : CloseInv ids s) (hord : s.Spares ids e) (hm : s.Moves ng e s') : CloseInv ids s' := by
  have hidle : ∀ ctl, ¬ Task.Carries ids ⟨ctl, none⟩ := by
    rintro ctl ⟨u, pkt, hu, -⟩
    cases hu
  have hfit := hm.fit h.fit
  cases hm with
  | task i e t t' sh' ht hm =>
    obtain ⟨hdone, horder⟩ := h.task hord ht hm
    exact ⟨hfit, hdone, horder⟩
  | call c => exact ⟨hfit, fun hcl => (h.done hcl).append (hidle _), h.order⟩
  | handOver i t hd ctl' ht hu hh =>
    exact ⟨hfit, fun hcl => ((h.done hcl).set (hidle _) fun _ _ _ _ hu => hu).append (hidle _), h.order⟩
  | listeners e n _ => exact ⟨hfit, h.done, h.order⟩

omit [Usize] in
/-- Before its CLSE. -/
theorem CloseInv.of_not_clsed (hfit : Each (fun _ t => t.Fit) s.tasks) (h : ¬ Clsed ids s.sh.trace) : CloseInv ids s :=
  ⟨hfit, fun hcl => absurd hcl h, fun pre i debt post htr => absurd ⟨i, debt, by rw [htr]; simp⟩ h⟩

omit [Usize] in
theorem fit_start (table : ChannelTable) (incoming : IncomingQueue) (desync : Bool) :
    Each (fun _ t => t.Fit) (State.start table incoming desync).tasks := by
  intro i t ht
  rcases i with _ | i <;> cases ht
  exact .idle _

/-- **Nothing is written to a channel after its close**, in the runs that keep to the order, and a write that has
returned has no WRTE under way. -/
theorem closed_stays_silent (ng : Negotiated) (table : ChannelTable) (incoming : IncomingQueue) (desync : Bool)
    (es : List Event) (s : State)
    (hrun : Runs.Run (State.step ng) State.Orderly (State.start table incoming desync) es s) :
    NoneAfterClose s.sh.trace ∧
      ∀ (i : ℕ) (t : Task) (c : WriteCall), s.tasks[i]? = some t → t.ctl = .write c → c.pc = .done .ok →
        t.use = none := by
  have hinv : ∀ ids, CloseInv ids s := fun ids => hrun.invariant
    (.of_not_clsed (fit_start table incoming desync) (by rintro ⟨i, debt, hmem⟩; cases hmem))
    fun _ _ _ h hord hstep => h.moves (hord ids) (State.step_moves hstep)
  refine ⟨fun ids => (hinv ids).order, fun i t c ht hctl hpc => ?_⟩
  cases hu : t.use with
  | none => rfl
  | some u =>
    obtain ⟨n, hn⟩ := ((hinv ⟨c.ch.localId, ⟨0⟩⟩).fit i t ht).sends c u hctl hu
    cases hpc.symm.trans hn

/-! ### After `close_channel` -/

/-- No channel has this local id. -/
def Vacant (l : LocalId) (t : ChannelTable) : Prop := ∀ ch, ch.localId = l → t.get ch = none

omit [Usize] in
theorem ids_localId {t : ChannelTable} {ch : ChannelId} (h : t.ids ch = .ok ids) :
    ∃ slot, t.get ch = some slot ∧ ch.localId = ids.localId := by
  unfold ChannelTable.ids at h
  split at h
  · rename_i ids' hids
    obtain ⟨slot, hget, hslot⟩ := Option.bind_eq_some_iff.mp hids
    obtain ⟨remote, -, rfl⟩ := Option.map_eq_some_iff.mp hslot
    cases h
    exact ⟨slot, hget, (ChannelTable.get_eq_some.mp hget).2.symm⟩
  · cases h

omit [Usize] in
theorem Vacant.freed {t : ChannelTable} {ch : ChannelId} (hdist : t.DistinctLocalIds) (h : t.ids ch = .ok ids) :
    Vacant ids.localId (t.freed ch) := by
  obtain ⟨slot, hget, hlocal⟩ := ids_localId h
  obtain ⟨hat, hid⟩ := ChannelTable.get_eq_some.mp hget
  intro ch' hch'
  rw [ChannelTable.get_freed, hget]
  split_ifs with hslot
  · rfl
  · cases hget' : t.get ch' with
    | none => rfl
    | some slot' =>
      obtain ⟨hat', hid'⟩ := ChannelTable.get_eq_some.mp hget'
      exact absurd ⟨hdist _ _ _ _ hat' hat (by rw [hid', hid, hch', hlocal]), rfl⟩ hslot

/-- A local id is given out by the counter. -/
theorem Vacant.step {l : LocalId} (h : Vacant l s.sh.channels) (hnext : s.sh.channels.nextLocalId ≠ l.raw)
    (hs : s.step ng e = some s') : Vacant l s'.sh.channels := by
  intro ch hch
  by_contra hne
  obtain ⟨slot, hget⟩ := Option.ne_none_iff_exists'.mp hne
  rcases State.step_line hs with ⟨i, t, t', -, -, hline⟩ | ⟨hsame, -⟩
  · rcases hline ch slot hget with ⟨slot0, hget0, -⟩ | ⟨-, -, hnew, -⟩
    · cases (h ch hch).symm.trans hget0
    · exact hnext (hnew.symm.trans (congrArg LocalId.raw hch))
  · exact hne (hsame ▸ h ch hch)

/-- **Nothing is written to a channel after `close_channel`**, if its CLSE is not written while a write carries its ids
and the counter of local ids does not come round. -/
theorem closed_channel_stays_silent (table : ChannelTable) (incoming : IncomingQueue) (desync : Bool)
    {before es : List Event} {s0 s1 : State} {i : ℕ} {c : CloseCall}
    (hbefore : Runs.Run (State.step ng) Runs.Any (State.start table incoming desync) before s0)
    (hdist : s0.sh.channels.DistinctLocalIds) (hopen : ¬ Clsed ids s0.sh.trace)
    (ht : s0.tasks[i]? = some ⟨.close c, none⟩) (hpc : c.pc = .free) (hids : s0.sh.channels.ids c.ch = .ok ids)
    (hfree : s0.step ng (.step i .go) = some s1)
    (hrun : Runs.Run (State.step ng) (fun a e => (a.WritesClose e ids → Each (fun _ t => ¬ t.Carries ids) a.tasks) ∧
      a.sh.channels.nextLocalId ≠ ids.localId.raw) s1 es s) : SilentAfter ids s.sh.trace := by
  have h0 : CloseInv ids s0 := .of_not_clsed (hbefore.invariant (I := fun a => Each (fun _ t => t.Fit) a.tasks)
    (fit_start table incoming desync) fun _ _ _ h _ hs => (State.step_moves hs).fit h) hopen
  have h1 : CloseInv ids s1 :=
    h0.moves ⟨by rintro ⟨_, _, _, ⟨⟩, _⟩, fun hcl => absurd hcl hopen⟩ (State.step_moves hfree)
  have hvacant : Vacant ids.localId s1.sh.channels := by
    simp only [State.step, ht, Task.step, Ctl.step, CloseCall.step, hpc, hids] at hfree
    cases hfree
    exact .freed hdist hids
  refine (hrun.invariant (I := fun a => CloseInv ids a ∧ Vacant ids.localId a.sh.channels) ⟨h1, hvacant⟩ ?_).1.order
  rintro a e b ⟨ha, hv⟩ ⟨hnow, hnext⟩ hs
  refine ⟨ha.moves ⟨hnow, fun _ ch hch => ?_⟩ (State.step_moves hs), hv.step hnext hs⟩
  obtain ⟨slot, hget, hlocal⟩ := ids_localId hch
  cases (hv ch hlocal).symm.trans hget

end System

/-! ## The two orders -/

/-- One open channel, with credit for eight bytes. -/
def fundedTable : ChannelTable :=
  ⟨[some (ChannelSlot.accepted ⟨⟨1⟩, ⟨9⟩⟩ 8 (@Negotiated.rxPolicy usize64 sampleNegotiated)), none], 2,
    @Negotiated.rxPolicy usize64 sampleNegotiated⟩

/-- Enough for `Orderly`: what is written is no CLSE or nobody is about to write a WRTE, and no CLSE was written or the
table is empty. -/
def State.calm (s : State) (e : Event) : Bool :=
  (match e with
    | .step i .accept =>
      (match (s.tasks[i]?).bind Task.use with
        | some ⟨_, .sending pkt _⟩ => pkt.command != .close
        | _ => false) ||
      s.tasks.all fun t => match t.use with
        | some ⟨.send pkt, _⟩ => pkt.command != .write
        | _ => true
    | _ => true) &&
  (s.sh.trace.all (fun o => match o with
    | .wrote _ _ pkt => pkt.command != .close
    | _ => true) || s.sh.channels.slots.all Option.isNone)

theorem State.orderly_of_calm {s : State} {e : Event} (h : s.calm e = true) : s.Orderly e := by
  obtain ⟨hnow, hpast⟩ := Bool.and_eq_true_iff.mp h
  intro ids
  refine ⟨?_, ?_⟩
  · rintro ⟨i, t, u, rfl, ht, hu, hpc⟩ j t1 ht1 ⟨u1, pkt, hu1, hjob, hw⟩
    rcases Bool.or_eq_true_iff.mp hnow with hsend | hall
    · rw [ht, Option.bind_some, hu] at hsend
      obtain ⟨job, pc⟩ := u
      rcases hpc with rfl | rfl <;> simp [Packet.close] at hsend
    · have h1 := List.all_eq_true.mp hall t1 (List.mem_of_getElem? ht1)
      obtain ⟨job, pc⟩ := u1
      subst hjob
      simp [hu1, hw.1] at h1
  · rintro ⟨i, debt, hmem⟩ ch hids
    rcases Bool.or_eq_true_iff.mp hpast with htr | hfree
    · have h1 := List.all_eq_true.mp htr _ hmem
      simp [Packet.close] at h1
    · unfold ChannelTable.ids at hids
      cases hget : s.sh.channels.get ch with
      | none => simp [hget] at hids
      | some slot =>
        have hat := (ChannelTable.get_eq_some.mp hget).1
        unfold ChannelTable.at? at hat
        cases hs : s.sh.channels.slots[ch.slot]? with
        | none => simp [hs] at hat
        | some o =>
          have h1 := List.all_eq_true.mp hfree o (List.mem_of_getElem? hs)
          rw [Option.isNone_iff_eq_none.mp h1] at hs
          simp [hs] at hat

/-- A write gets its credit and its ids; -/
def writesUpToIds : List Event :=
  [.call (.write ⟨0, ⟨1⟩⟩ [7]), .step 1 .go, .step 1 .go, .step 1 .go, .step 1 .go, .step 1 .go]

/-- another call closes the channel; the write pays the CLSE, writes its WRTE and returns. -/
def closedUnderWrite : List Event :=
  writesUpToIds ++ [.call (.close ⟨0, ⟨1⟩⟩), .step 2 .go, .step 2 .go, .step 2 .go,
    .step 1 .acquire, .step 1 .go, .step 1 .accept, .step 1 .flush, .step 1 .go, .step 1 .go, .step 1 .go,
    .step 1 .accept, .step 1 .flush, .step 1 .go]

/-- The write returns first, then the channel is closed. -/
def closedAfterWrite : List Event :=
  writesUpToIds ++ [.step 1 .acquire, .step 1 .go, .step 1 .go, .step 1 .accept, .step 1 .flush, .step 1 .go,
    .call (.close ⟨0, ⟨1⟩⟩), .step 2 .go, .step 2 .go, .step 2 .go, .step 2 .go, .step 2 .acquire, .step 2 .go,
    .step 2 .accept, .step 2 .flush]

set_option maxRecDepth 20000 in
theorem closed_stays_silent_after_write :
    ∃ s, Runs.exec (Runs.guarded (@State.step usize64 sampleNegotiated) State.calm)
        (State.start fundedTable [] false) closedAfterWrite = some s ∧
      wroteOf s.sh.trace = [(false, ⟨.write, 1, 9, [7]⟩), (true, Packet.close ⟨⟨1⟩, ⟨9⟩⟩)] ∧
      NoneAfterClose s.sh.trace := by
  have silent : ∀ s, Runs.exec (Runs.guarded (@State.step usize64 sampleNegotiated) State.calm)
      (State.start fundedTable [] false) closedAfterWrite = some s → NoneAfterClose s.sh.trace :=
    fun s h => (@closed_stays_silent usize64 sampleNegotiated fundedTable [] false _ s
      (Runs.Run.of_guarded (fun _ _ => State.orderly_of_calm) h)).1
  exact ⟨_, rfl, rfl, silent _ rfl⟩

set_option maxRecDepth 20000 in
theorem write_follows_close :
    ∃ s, Runs.exec (@State.step usize64 sampleNegotiated) (State.start fundedTable [] false) closedUnderWrite = some s ∧
      s.tasks[1]? = some ⟨.write ⟨⟨0, ⟨1⟩⟩, [7], 1, .done .ok⟩, none⟩ ∧
      wroteOf s.sh.trace = [(true, Packet.close ⟨⟨1⟩, ⟨9⟩⟩), (false, ⟨.write, 1, 9, [7]⟩)] ∧
      ¬ NoneAfterClose s.sh.trace := by
  refine ⟨_, rfl, rfl, rfl, fun h => ?_⟩
  exact h ⟨⟨1⟩, ⟨9⟩⟩ [.owed (.close ⟨⟨1⟩, ⟨9⟩⟩), .locked 1, .begun true (Packet.close ⟨⟨1⟩, ⟨9⟩⟩)] 1 true _ rfl
    1 false ⟨.write, 1, 9, [7]⟩ (List.mem_of_getElem? (i := 3) rfl) ⟨rfl, rfl, rfl⟩

end LibAdb.Split
