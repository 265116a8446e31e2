import LibAdb.Split.Closing
import LibAdb.Split.CreditMoves

/-!
# LibAdb.Split.Ledger — a channel's credit over whole runs

A run of the system is a run of a ledger (`Tally`): the purse is what the slot has left, the users are the tasks, what
was granted and what is on the wire is what the trace tells since the run began.  What the ledger conserves, the channel
conserves (`credit_conserved`).
-/

namespace LibAdb.Split

open Tasks Purse Runs

/-! ## The channel's ledger -/

/-- The credit a stretch of the trace gives to the channel in slot `idx`. -/
def creditOf (mode : AckMode) (idx : ℕ) (tr : List Obs) : ℕ :=
  (tr.map fun o => ((o.granted idx).map fun pkt => mode.grant pkt.data).getD 0).sum

/-- What the tasks that `own` names put on the wire in it. -/
def writtenOf (mode : AckMode) (own : ℕ → Bool) (tr : List Obs) : ℕ :=
  (tr.map fun o => match o with
    | .wrote i false pkt => if own i then mode.worth pkt.data.length else 0
    | _ => 0).sum

/-- The tasks that write to `ch`. -/
def State.owns (s : State) (ch : ChannelId) (i : ℕ) : Bool := ((s.tasks[i]?).bind (Task.writes ch)).isSome

theorem creditOf_append (mode : AckMode) (idx : ℕ) (a b : List Obs) :
    creditOf mode idx (a ++ b) = creditOf mode idx a + creditOf mode idx b := by
  simp [creditOf]

theorem writtenOf_append (mode : AckMode) (own : ℕ → Bool) (a b : List Obs) :
    writtenOf mode own (a ++ b) = writtenOf mode own a + writtenOf mode own b := by
  simp [writtenOf]

/-- What is apart from the channel gives it nothing and writes nothing for it. -/
theorem sums_apart {mode : AckMode} {idx : ℕ} {own : ℕ → Bool} {i : ℕ} {obs : List Obs}
    (h : ∀ o ∈ obs, o.apart idx = true ∨ (∃ pkt, o = .wrote i false pkt) ∧ own i = false) :
    creditOf mode idx obs = 0 ∧ writtenOf mode own obs = 0 := by
  induction obs with
  | nil => exact ⟨rfl, rfl⟩
  | cons o obs ih =>
    obtain ⟨h1, h2⟩ := ih fun o' ho' => h o' (List.mem_cons_of_mem _ ho')
    rw [show o :: obs = [o] ++ obs from rfl, creditOf_append, writtenOf_append, h1, h2]
    rcases h o List.mem_cons_self with hap | ⟨⟨pkt, rfl⟩, hown⟩
    · cases o with
      | received pkt outcome =>
        refine ⟨?_, rfl⟩
        cases outcome with
        | creditGranted j =>
          have hne : j ≠ idx := by simpa [Obs.apart] using hap
          simp [creditOf, Obs.granted, hne]
        | _ => rfl
      | wrote j debt pkt =>
        cases debt with
        | true => exact ⟨rfl, rfl⟩
        | false => cases hap
      | _ => exact ⟨rfl, rfl⟩
    · exact ⟨rfl, by simp [writtenOf, hown]⟩

/-- What the purse is after a reservation. -/
theorem purse_spend {slot : ChannelSlot} {n : ℕ} (hn : (slot.policy.ack = .delayed ∧ (n : ℤ) ≤ slot.sendBudget) ∨
      (slot.policy.ack = .classic ∧ slot.wrteAcked = true))
    (hdelayed : slot.policy.ack = .delayed → slot.purse < 2 ^ 63) :
    (slot.spend n).purse = slot.purse - (slot.policy.ack.worth n : ℕ) ∧
      ((slot.policy.ack.worth n : ℕ) : ℤ) ≤ slot.purse := by
  rcases hn with ⟨hmode, hle⟩ | ⟨hmode, hacked⟩
  · have hpurse : slot.purse = slot.sendBudget := by rw [ChannelSlot.purse, hmode]
    have hspend : slot.spend n = { slot with sendBudget := wrapI64 (slot.sendBudget - n) } := by
      rw [ChannelSlot.spend, hmode]
    have hfit := hdelayed hmode
    rw [hpurse] at hfit ⊢
    rw [hspend, ChannelSlot.purse]
    simp only [hmode, AckMode.worth]
    exact ⟨wrapI64_of_range (by omega) (by omega), hle⟩
  · have hspend : slot.spend n = { slot with wrteAcked := false } := by
      rw [ChannelSlot.spend, hmode]
    rw [hspend, ChannelSlot.purse, ChannelSlot.purse]
    simp [hmode, hacked, AckMode.worth]

/-- What it is after a refund, when it is not over what it can hold. -/
theorem purse_refund {slot : ChannelSlot} {n : ℕ} (hpos : 0 ≤ slot.purse)
    (hdelayed : slot.policy.ack = .delayed → slot.purse + n < 2 ^ 63)
    (hclassic : slot.policy.ack = .classic → slot.purse = 0) :
    (slot.refund n).purse = slot.purse + (slot.policy.ack.worth n : ℕ) := by
  cases hmode : slot.policy.ack with
  | delayed =>
    have hpurse : slot.purse = slot.sendBudget := by rw [ChannelSlot.purse, hmode]
    have hrefund : slot.refund n = { slot with sendBudget := wrapI64 (slot.sendBudget + n) } := by
      rw [ChannelSlot.refund, hmode]
    have hfit := hdelayed hmode
    rw [hpurse] at hfit hpos ⊢
    rw [hrefund, ChannelSlot.purse]
    simp only [hmode, AckMode.worth]
    exact wrapI64_of_range (by omega) (by omega)
  | classic =>
    have hrefund : slot.refund n = { slot with wrteAcked := true } := by
      rw [ChannelSlot.refund, hmode]
    rw [hclassic hmode, hrefund, ChannelSlot.purse]
    simp [hmode, AckMode.worth]

theorem spend_same (slot : ChannelSlot) (n : ℕ) :
    (slot.spend n).policy = slot.policy ∧ (slot.spend n).state = slot.state := by
  unfold ChannelSlot.spend
  split <;> exact ⟨rfl, rfl⟩

theorem refund_same (slot : ChannelSlot) (n : ℕ) :
    (slot.refund n).policy = slot.policy ∧ (slot.refund n).state = slot.state := by
  unfold ChannelSlot.refund
  split <;> exact ⟨rfl, rfl⟩

/-- What it is after a READY. -/
theorem purse_ready {slot slot' : ChannelSlot} {payload : Bytes} (h : slot.applyReady payload = .ok slot')
    (hpos : 0 ≤ slot.purse)
    (hdelayed : slot.policy.ack = .delayed → slot.purse + AckMode.delayed.grant payload < 2 ^ 63)
    (hclassic : slot.policy.ack = .classic → slot.purse = 0) :
    slot'.purse = slot.purse + (slot.policy.ack.grant payload : ℕ) ∧ slot'.policy = slot.policy ∧
      slot'.state = slot.state := by
  rcases ChannelSlot.applyReady_ok h with ⟨hmode, rfl⟩ | ⟨hmode, rfl⟩
  · refine ⟨?_, rfl, rfl⟩
    have hpurse : slot.purse = slot.sendBudget := by rw [ChannelSlot.purse, hmode]
    have hfit := hdelayed hmode
    rw [hpurse] at hfit hpos ⊢
    rw [ChannelSlot.purse]
    simp only [hmode]
    exact wrapI64_of_range (by omega) (by omega)
  · refine ⟨?_, rfl, rfl⟩
    rw [hclassic hmode, ChannelSlot.purse]
    simp [hmode, AckMode.grant]

/-- The ledger `l` is the channel's in state `s`, for a run that began when the trace had `base` entries. -/
structure Tally (mode : AckMode) (ch : ChannelId) (base : ℕ) (s : State) (l : Ledger) : Prop where
  slot : ∃ slot, s.sh.channels.get ch = some slot ∧ slot.policy.ack = mode ∧ slot.state ≠ .opening ∧
    slot.purse = l.purse
  standing : l.users.map Account.standing = s.tasks.map (Task.standing mode ch)
  spent : mode = .delayed → l.users.map Account.spent = s.tasks.map (Task.offset ch)
  granted : l.granted = creditOf mode ch.slot (s.sh.trace.drop base)
  wire : l.wire = writtenOf mode (s.owns ch) (s.sh.trace.drop base)
  torn : l.torn = (s.sh.desync || s.sh.gone)
  wrote_lt : ∀ j pkt, .wrote j false pkt ∈ s.sh.trace.drop base → j < s.tasks.length
  base_le : base ≤ s.sh.trace.length

/-- The run stays where the numbers are exact: below the range of the counter, or with a device that answers only what
was written. -/
def Exact (mode : AckMode) (ch : ChannelId) (base : ℕ) (start : ℤ) (s : State) : Prop :=
  match mode with
  | .delayed => start + creditOf .delayed ch.slot (s.sh.trace.drop base) < 2 ^ 63
  | .classic =>
    start + creditOf .classic ch.slot (s.sh.trace.drop base) ≤
      1 + writtenOf .classic (s.owns ch) (s.sh.trace.drop base)

/-- A ledger with the same numbers, perhaps torn by now. -/
theorem conserved_as {start : ℤ} {l l' : Ledger} (h : l.Conserved start) (hpurse : l'.purse = l.purse)
    (husers : l'.users = l.users) (hgranted : l'.granted = l.granted) (hwire : l'.wire = l.wire)
    (htorn : l.torn = true → l'.torn = true) : l'.Conserved start where
  nonneg := by rw [hpurse]; exact h.nonneg
  balance := by rw [hpurse, husers, hgranted]; exact h.balance
  onWire hw := by
    rw [hwire, husers]
    refine h.onWire ?_
    cases hl : l.torn with
    | false => rfl
    | true => exact (htorn hl).symm.trans hw
  within := by rw [hwire, hgranted]; exact h.within

section Steps

variable [Usize] {ng : Negotiated} {mode : AckMode} {ch : ChannelId} {base : ℕ} {start : ℤ} {s : State} {l : Ledger}
  {i : ℕ} {t t' : Task} {e : Event} {sh' : Shared}

/-- Neither flag is ever lowered. -/
theorem Task.Moves.flags {sh : Shared} (h : t.Moves ng i sh e t' sh') :
    (sh.desync || sh.gone) = true → (sh'.desync || sh'.gone) = true := by
  have hquiet : ∀ {a b : Shared}, Quiet a b → (b.desync || b.gone) = (a.desync || a.gone) := fun hq => by
    rw [hq.desync, hq.gone]
  have huse : ∀ {u : Use} {a : Act} {next : UseNext} {sh1 : Shared}, u.Moves ng i sh a next sh1 →
      (sh.desync || sh.gone) = true → (sh1.desync || sh1.gone) = true := by
    intro u a next sh1 hm hflag
    have hrelease : ∀ sh2 : Shared, (sh2.desync || sh2.gone) = true →
        (sh2.release.desync || sh2.release.gone) = true := fun sh2 h2 => by
      rwa [Shared.release_desync, Shared.release_gone]
    cases hm with
    | debtRefused => exact hrelease _ hflag
    | debtFailed => exact hrelease _ rfl
    | debtGone => exact Bool.or_true _
    | flushed => exact hrelease _ hflag
    | failed pkt whole err =>
      refine hrelease _ ?_
      unfold Shared.writeFailed
      split_ifs
      · exact Bool.or_true _
      · rfl
    | own next sh1 hpc hown =>
      cases hown with
      | release | refused => exact hrelease _ hflag
      | settled ch1 want ack sh2 hjob h1 =>
        obtain ⟨channels, rfl⟩ := Use.settled_inv h1
        exact hrelease _ hflag
      | begun => exact hflag
      | okay ch1 want ack sh2 hjob h1 =>
        obtain ⟨channels, rfl⟩ := Use.settled_inv h1
        exact hflag
    | _ => exact hflag
  have hdrop : ∀ {u : Use} {sh1 : Shared}, u.drop sh = some sh1 → (sh.desync || sh.gone) = true →
      (sh1.desync || sh1.gone) = true := by
    intro u sh1 hd hflag
    unfold Use.drop at hd
    split at hd
    · cases hd
      exact hflag
    all_goals cases hd
    all_goals
      rw [Shared.release_desync]
      rfl
  cases h with
  | ctl a ctl' use' sh' hu hm => rw [hquiet hm.controls.quiet]; exact id
  | more u a u' sh' hu hm => exact huse hm
  | ended u a r sh1 hu hm => rw [hquiet (t.ctl.resume_quiet r sh1)]; exact huse hm
  | cancel u ctl' sh' hu hc hd => exact hdrop hd
  | drop u ctl' sh' hu hc hd => exact hdrop hd
  | dropIdle | begin | decide | dropReader => exact id

omit [Usize] in
theorem Tally.user (hT : Tally mode ch base s l) (ht : s.tasks[i]? = some t) :
    ∃ k, l.users[i]? = some ⟨t.standing mode ch, k⟩ ∧ (mode = .delayed → k = t.offset ch) := by
  have h1 := congrArg (·[i]?) hT.standing
  simp only [List.getElem?_map, ht, Option.map_some] at h1
  obtain ⟨⟨st, k⟩, hu, hst⟩ := Option.map_eq_some_iff.mp h1
  cases hst
  refine ⟨k, hu, fun hmode => ?_⟩
  have h2 := congrArg (·[i]?) (hT.spent hmode)
  simp only [List.getElem?_map, ht, hu, Option.map_some] at h2
  exact Option.some.inj h2

/-- What the trace tells after a task has moved. -/
theorem Tally.sums (hT : Tally mode ch base s l) (ht : s.tasks[i]? = some t) (hm : t.Moves ng i s.sh e t' sh')
    {obs : List Obs} (htr : sh'.trace = s.sh.trace ++ obs) :
    creditOf mode ch.slot (sh'.trace.drop base) = l.granted + creditOf mode ch.slot obs ∧
      writtenOf mode ((s.set i t' sh').owns ch) (sh'.trace.drop base) = l.wire + writtenOf mode (s.owns ch) obs := by
  have howns : (s.set i t' sh').owns ch = s.owns ch := by
    funext j
    unfold State.owns
    rw [State.set_tasks]
    by_cases hj : j = i
    · subst hj
      rw [List.getElem?_set_self', ht]
      exact hm.writes ch
    · rw [List.getElem?_set_ne (Ne.symm hj)]
  rw [htr, List.drop_append_of_le_length hT.base_le, creditOf_append, writtenOf_append, howns, hT.granted, hT.wire]
  exact ⟨rfl, rfl⟩

/-- The ledger after a task has moved. -/
theorem Tally.set (hT : Tally mode ch base s l) (ht : s.tasks[i]? = some t) (hm : t.Moves ng i s.sh e t' sh')
    {obs : List Obs} (htr : sh'.trace = s.sh.trace ++ obs)
    (hwrote : ∀ j pkt, .wrote j false pkt ∈ obs → j = i) {slot' : ChannelSlot}
    (hget' : sh'.channels.get ch = some slot') (hmode : slot'.policy.ack = mode) (hopen : slot'.state ≠ .opening)
    {k : ℕ} (hk : mode = .delayed → k = t'.offset ch) :
    Tally mode ch base (s.set i t' sh') ⟨slot'.purse, l.users.set i ⟨t'.standing mode ch, k⟩,
      l.granted + creditOf mode ch.slot obs, l.wire + writtenOf mode (s.owns ch) obs, sh'.desync || sh'.gone⟩ := by
  obtain ⟨hg, hw⟩ := hT.sums ht hm htr
  refine ⟨⟨slot', hget', hmode, hopen, rfl⟩, ?_, fun hd => ?_, ?_, ?_, rfl, fun j pkt hmem => ?_, ?_⟩
  · rw [List.map_set, hT.standing, State.set_tasks, List.map_set]
  · rw [List.map_set, hT.spent hd, State.set_tasks, List.map_set, hk hd]
  · exact hg.symm
  · exact hw.symm
  · rw [State.set_tasks, List.length_set]
    rw [State.set_sh, htr, List.drop_append_of_le_length hT.base_le] at hmem
    rcases List.mem_append.mp hmem with hmem | hmem
    · exact hT.wrote_lt j pkt hmem
    · rw [hwrote j pkt hmem]
      exact (List.getElem?_eq_some_iff.mp ht).1
  · rw [State.set_sh, htr, List.length_append]
    exact hT.base_le.trans (Nat.le_add_right _ _)

omit [Usize] in
/-- What is reserved is part of what was granted. -/
theorem waiting_le (hC : l.Conserved start) {n k : ℕ} (hi : l.users[i]? = some ⟨.waits n, k⟩) :
    l.purse + n ≤ start + l.granted := by
  have hle := le_total Account.waiting hi
  have hb := hC.balance
  simp only [Account.waiting] at hle
  omega

omit [Usize] in
theorem purse_le (hC : l.Conserved start) : l.purse ≤ start + l.granted := by
  have hb := hC.balance
  omega

omit [Usize] in
theorem set_same {τ : Type*} {xs : List τ} {j : ℕ} {a : τ} (h : xs[j]? = some a) : xs.set j a = xs := by
  apply List.ext_getElem?
  intro m
  by_cases hm : m = j
  · subst hm
    rw [List.getElem?_set_self', h]
    rfl
  · rw [List.getElem?_set_ne (Ne.symm hm)]

/-- **An event keeps the ledger.** -/
theorem Tally.task (hT : Tally mode ch base s l) (hC : l.Conserved start) (ht : s.tasks[i]? = some t)
    (hm : t.Moves ng i s.sh e t' sh') (hapt : t.Apt) (hclear : t.Clear ch) (hkeep : sh'.channels.get ch ≠ none)
    (hexact : Exact mode ch base start (s.set i t' sh')) (hwhole : mode = .classic → l.torn = false)
    (hstep : ∀ u pkt, t.use = some u → u.pc = .sending pkt false → s.sh.desync = false) :
    ∃ l', Tally mode ch base (s.set i t' sh') l' ∧ l'.Conserved start := by
  obtain ⟨slot, hget, hmode, hopen, hpurse⟩ := hT.slot
  obtain ⟨slot', hget'⟩ := Option.ne_none_iff_exists'.mp hkeep
  obtain ⟨k, hi, hk⟩ := hT.user ht
  have htorn : l.torn = true → (sh'.desync || sh'.gone) = true := by
    rw [hT.torn]
    exact hm.flags
  have hpos : 0 ≤ slot.purse := hpurse ▸ hC.nonneg
  -- the ledger after the step, from the one the step of the purse leads to
  have hdone : ∀ (obs : List Obs) (k' : ℕ) (l1 : Ledger), sh'.trace = s.sh.trace ++ obs →
      (∀ j pkt, .wrote j false pkt ∈ obs → j = i) → slot'.policy.ack = mode →
      slot'.state ≠ .opening → (mode = .delayed → k' = t'.offset ch) → l1.Conserved start →
      slot'.purse = l1.purse → l.users.set i ⟨t'.standing mode ch, k'⟩ = l1.users →
      l.granted + creditOf mode ch.slot obs = l1.granted → l.wire + writtenOf mode (s.owns ch) obs = l1.wire →
      (l1.torn = true → (sh'.desync || sh'.gone) = true) →
      ∃ l', Tally mode ch base (s.set i t' sh') l' ∧ l'.Conserved start := by
    intro obs k' l1 htr hwrote hmode' hopen' hk' hC1 h1 h2 h3 h4 h5
    exact ⟨_, hT.set ht hm htr hwrote hget' hmode' hopen' hk', conserved_as hC1 h1 h2 h3 h4 h5⟩
  -- what `Exact` says of the state the event leads to
  have hlimits : ∀ obs, sh'.trace = s.sh.trace ++ obs →
      (mode = .delayed → start + (l.granted + creditOf mode ch.slot obs) < 2 ^ 63) ∧
      (mode = .classic → start + (l.granted + creditOf mode ch.slot obs) ≤
        1 + (l.wire + writtenOf mode (s.owns ch) obs)) := by
    intro obs htr
    obtain ⟨hg, hw⟩ := hT.sums ht hm htr
    refine ⟨fun hd => ?_, fun hc => ?_⟩
    · subst hd
      have hlt : start + (creditOf .delayed ch.slot (sh'.trace.drop base) : ℕ) < 2 ^ 63 := hexact
      rw [hg] at hlt
      push_cast at hlt ⊢
      omega
    · subst hc
      have hle : start + (creditOf .classic ch.slot (sh'.trace.drop base) : ℕ) ≤
          1 + (writtenOf .classic ((s.set i t' sh').owns ch) (sh'.trace.drop base) : ℕ) := hexact
      rw [hg, hw] at hle
      push_cast at hle ⊢
      omega
  have hsmall : mode = .classic → ∀ obs, sh'.trace = s.sh.trace ++ obs →
      l.purse + total Account.waiting l.users + creditOf mode ch.slot obs ≤ 1 + writtenOf mode (s.owns ch) obs := by
    intro hc obs htr
    have hb := hC.balance
    have hw := hC.onWire (hwhole hc)
    have hl := (hlimits obs htr).2 hc
    omega
  have hstays : sh'.trace = s.sh.trace → sh'.trace = s.sh.trace ++ [] := fun h => h.trans (List.append_nil _).symm
  have happart : ∀ obs : List Obs, (∀ o ∈ obs, o.apart ch.slot = true ∨
      (∃ pkt, o = .wrote i false pkt) ∧ t.writes ch = none) →
      creditOf mode ch.slot obs = 0 ∧ writtenOf mode (s.owns ch) obs = 0 := by
    intro obs hobs
    refine sums_apart fun o ho => (hobs o ho).imp_right fun h => ⟨h.1, ?_⟩
    rw [State.owns, ht, Option.bind_some, h.2]
    rfl
  have hown : ∀ obs : List Obs, (∀ o ∈ obs, o.apart ch.slot = true ∨
      (∃ pkt, o = .wrote i false pkt) ∧ t.writes ch = none) → ∀ j pkt, .wrote j false pkt ∈ obs → j = i := by
    intro obs hobs j pkt hmem
    rcases hobs _ hmem with hap | ⟨⟨pkt', heq⟩, -⟩
    · cases hap
    · cases heq
      rfl
  have hnone : ∀ j pkt, Obs.wrote j false pkt ∈ [] → j = i := fun j pkt hmem => by cases hmem
  have hcredit : CreditMove mode ch i t t' slot slot' s.sh sh' := hm.credit hget hget' hopen hapt hclear
  cases hcredit with
  | calm obs hst hoff hside htr hobs =>
    obtain ⟨hg, hw⟩ := happart obs hobs
    refine hdone obs k l htr (hown obs hobs) (hside.policy ▸ hmode) (fun h => hopen (hside.opening h)) (fun hd => ?_) hC
      (hside.purse.trans hpurse) ?_ (by rw [hg]; rfl) (by rw [hw]; rfl) htorn
    · rw [hoff]
      exact hk hd
    · rw [hst, set_same hi]
  | reserve n hst hst' hoff hside hn htr =>
    obtain ⟨hpolicy, hstate⟩ := spend_same slot n
    rw [hst] at hi
    obtain ⟨h1, hle⟩ := purse_spend hn fun hd => by
      have hlt := (hlimits [] (hstays htr)).1 (hmode.symm.trans hd)
      have hle := purse_le hC
      have hzero : creditOf mode ch.slot [] = 0 := rfl
      rw [hzero] at hlt
      push_cast at hlt
      omega
    rw [hmode] at h1 hle
    refine hdone [] k _ (hstays htr) hnone (hside.policy ▸ hpolicy ▸ hmode) (fun h => hopen (hstate ▸ hside.opening h))
      (fun hd => ?_) (Ledger.Step.conserves hC (.reserve i (mode.worth n) k hi (hpurse ▸ hle))) ?_ ?_ rfl rfl htorn
    · rw [hoff]
      exact hk hd
    · rw [hside.purse, h1, hpurse]
    · rw [hst']
  | refund n hst hst' hoff hside htr =>
    obtain ⟨hpolicy, hstate⟩ := refund_same slot n
    rw [hst] at hi
    have hwait := le_total Account.waiting hi
    simp only [Account.waiting] at hwait
    have h1 : (slot.refund n).purse = slot.purse + (slot.policy.ack.worth n : ℕ) := by
      refine purse_refund hpos (fun hd => ?_) fun hc => ?_
      · have hd' := hmode.symm.trans hd
        have hlt := (hlimits [] (hstays htr)).1 hd'
        have hle := waiting_le hC hi
        have hzero : creditOf mode ch.slot [] = 0 := rfl
        have hworth : mode.worth n = n := by rw [hd']; rfl
        rw [hzero] at hlt
        push_cast at hlt
        omega
      · have hc' := hmode.symm.trans hc
        have hle := hsmall hc' [] (hstays htr)
        have hzero : creditOf mode ch.slot [] = 0 := rfl
        have hzero' : writtenOf mode (s.owns ch) [] = 0 := rfl
        have hworth : mode.worth n = 1 := by rw [hc']; rfl
        omega
    rw [hmode] at h1
    refine hdone [] k _ (hstays htr) hnone (hside.policy ▸ hpolicy ▸ hmode) (fun h => hopen (hstate ▸ hside.opening h))
      (fun hd => ?_) (Ledger.Step.conserves hC (.refund i (mode.worth n) k hi)) ?_ ?_ rfl rfl htorn
    · rw [hoff]
      exact hk hd
    · rw [hside.purse, h1, hpurse]
    · rw [hst']
  | write n pkt hst hst' hoff hside htr hlen hw hlive hpc =>
    rw [hst] at hi
    obtain ⟨u, hu, hpc⟩ := hpc
    have hflag : l.torn = false := by
      rw [hT.torn, hstep u pkt hu hpc, hlive]
      rfl
    have howner : s.owns ch i = true := by
      rw [State.owns, ht, Option.bind_some]
      exact hw
    have hsum : writtenOf mode (s.owns ch) [.wrote i false pkt] = mode.worth n := by
      simp [writtenOf, howner, hlen]
    have hself : ∀ j pkt1, Obs.wrote j false pkt1 ∈ [.wrote i false pkt] → j = i := by
      intro j pkt1 hmem
      cases List.mem_singleton.mp hmem
      rfl
    refine hdone [.wrote i false pkt] k _ htr hself (hside.policy ▸ hmode) (fun h => hopen (hside.opening h))
      (fun hd => ?_) (Ledger.Step.conserves hC (.write i (mode.worth n) k hi hflag)) (hside.purse.trans hpurse) ?_ rfl
      ?_ htorn
    · rw [hoff]
      exact hk hd
    · rw [hst']
    · rw [hsum]
  | commit n obs hst hst' hoff hside htr hobs =>
    obtain ⟨hg, hw⟩ := happart obs fun o ho => Or.inl (hobs o ho)
    rw [hst] at hi
    refine hdone obs k _ htr (hown obs fun o ho => Or.inl (hobs o ho)) (hside.policy ▸ hmode)
      (fun h => hopen (hside.opening h)) (fun hd => ?_) (Ledger.Step.conserves hC (.commit i (mode.worth n) k hi))
      (hside.purse.trans hpurse) ?_ (by rw [hg]; rfl) (by rw [hw]; rfl) htorn
    · rw [hoff]
      exact hk hd
    · rw [hst']
  | advance n hst hst' hoff hside htr =>
    rw [hst] at hi
    refine hdone [] (k + mode.worth n) _ (hstays htr) hnone (hside.policy ▸ hmode) (fun h => hopen (hside.opening h))
      (fun hd => ?_) (Ledger.Step.conserves hC (.advance i (mode.worth n) k hi)) (hside.purse.trans hpurse) ?_ rfl rfl
      htorn
    · rw [hoff, hk hd, hd]
      rfl
    · rw [hst']
  | tear n obs hst hst' hoff hside htr hobs hbad =>
    obtain ⟨hg, hw⟩ := happart obs fun o ho => Or.inl (hobs o ho)
    rw [hst] at hi
    refine hdone obs k _ htr (hown obs fun o ho => Or.inl (hobs o ho)) (hside.policy ▸ hmode)
      (fun h => hopen (hside.opening h)) (fun hd => ?_) (Ledger.Step.conserves hC (.tear i (mode.worth n) k hi))
      (hside.purse.trans hpurse) ?_ (by rw [hg]; rfl) (by rw [hw]; rfl) fun _ => ?_
    · rw [hoff]
      exact hk hd
    · rw [hst']
    · rcases hbad with hbad | hbad
      · rw [hbad]
        rfl
      · rw [hbad]
        exact Bool.or_true _
  | grant pkt hst hoff happly htr =>
    have hsum : creditOf mode ch.slot [.received pkt (.creditGranted ch.slot)] = mode.grant pkt.data := by
      simp [creditOf, Obs.granted]
    have hzero : writtenOf mode (s.owns ch) [.received pkt (.creditGranted ch.slot)] = 0 := rfl
    obtain ⟨h1, hpolicy, hstate⟩ := purse_ready happly hpos
      (fun hd => by
        have hd' := hmode.symm.trans hd
        have hlt := (hlimits _ htr).1 hd'
        have hle := purse_le hC
        rw [hsum, hd'] at hlt
        push_cast at hlt
        omega)
      fun hc => by
        have hc' := hmode.symm.trans hc
        have hle := hsmall hc' _ htr
        have hone : mode.grant pkt.data = 1 := by rw [hc']; rfl
        have hnn := hC.nonneg
        rw [hsum, hzero, hone] at hle
        push_cast at hle
        omega
    rw [hmode] at h1
    refine hdone _ k _ htr (fun j pkt1 hmem => by cases List.mem_singleton.mp hmem) (hpolicy ▸ hmode)
      (fun h => hopen (hstate ▸ h)) (fun hd => ?_) (Ledger.Step.conserves hC (.grant (mode.grant pkt.data))) ?_ ?_
      (by rw [hsum]) (by rw [hzero]; rfl) htorn
    · rw [hoff]
      exact hk hd
    · rw [h1, hpurse]
    · rw [hst, set_same hi]

omit [Usize]

theorem writtenOf_congr {own own' : ℕ → Bool} {tr : List Obs}
    (h : ∀ j pkt, .wrote j false pkt ∈ tr → own' j = own j) : writtenOf mode own' tr = writtenOf mode own tr := by
  induction tr with
  | nil => rfl
  | cons o tr ih =>
    have ih := ih fun j pkt hmem => h j pkt (List.mem_cons_of_mem _ hmem)
    rw [show o :: tr = [o] ++ tr from rfl, writtenOf_append, writtenOf_append, ih]
    congr 1
    cases o with
    | wrote j debt pkt =>
      cases debt with
      | true => rfl
      | false => simp [writtenOf, h j pkt List.mem_cons_self]
    | _ => rfl

/-- The ledger of the same shared state with other tasks, of which the old ones own what they owned. -/
theorem Tally.retask {tasks' : List Task} {users' : List Purse.Account} (hT : Tally mode ch base s l)
    (hst : users'.map Purse.Account.standing = tasks'.map (Task.standing mode ch))
    (hspent : mode = .delayed → users'.map Purse.Account.spent = tasks'.map (Task.offset ch))
    (hlen : s.tasks.length ≤ tasks'.length)
    (howns : ∀ j < s.tasks.length, State.owns ⟨s.sh, tasks'⟩ ch j = s.owns ch j) :
    Tally mode ch base ⟨s.sh, tasks'⟩ { l with users := users' } where
  slot := hT.slot
  standing := hst
  spent := hspent
  granted := hT.granted
  wire := hT.wire.trans (writtenOf_congr fun j pkt hmem => howns j (hT.wrote_lt j pkt hmem)).symm
  torn := hT.torn
  wrote_lt j pkt hmem := (hT.wrote_lt j pkt hmem).trans_le hlen
  base_le := hT.base_le

/-- A task joins that has nothing of the channel's credit. -/
theorem Tally.join (hT : Tally mode ch base s l) (hst : t.standing mode ch = .idle) (hoff : t.offset ch = 0) :
    Tally mode ch base ⟨s.sh, s.tasks ++ [t]⟩ { l with users := l.users ++ [⟨.idle, 0⟩] } := by
  refine hT.retask ?_ (fun hd => ?_) ?_ fun j hj => ?_
  · rw [List.map_append, List.map_append, hT.standing, List.map_singleton, List.map_singleton, hst]
  · rw [List.map_append, List.map_append, hT.spent hd, List.map_singleton, List.map_singleton, hoff]
  · rw [List.length_append]
    exact Nat.le_add_right _ _
  · unfold State.owns
    dsimp only
    rw [List.getElem?_append_left hj]

/-- A task changes that writes to no channel. -/
theorem Tally.alter (hT : Tally mode ch base s l) (ht : s.tasks[i]? = some t) (hw : t.writes ch = none)
    (hw' : t'.writes ch = none) : Tally mode ch base ⟨s.sh, s.tasks.set i t'⟩ l := by
  obtain ⟨h1, h2⟩ := @Task.standing_other mode ch t hw
  obtain ⟨h3, h4⟩ := @Task.standing_other mode ch t' hw'
  have hmap : ∀ {β : Type} (f : Task → β), f t' = f t → (s.tasks.set i t').map f = s.tasks.map f := by
    intro β f hf
    rw [List.map_set, hf]
    refine set_same ?_
    rw [List.getElem?_map, ht]
    rfl
  refine hT.retask ?_ (fun hd => ?_) (le_of_eq List.length_set.symm) fun j hj => ?_
  · rw [hmap _ (h3.trans h1.symm)]
    exact hT.standing
  · rw [hmap _ (h4.trans h2.symm)]
    exact hT.spent hd
  · unfold State.owns
    dsimp only
    by_cases hj' : j = i
    · subst hj'
      rw [List.getElem?_set_self', ht]
      show (t'.writes ch).isSome = (t.writes ch).isSome
      rw [hw, hw']
    · rw [List.getElem?_set_ne (Ne.symm hj')]

end Steps

/-! ## Runs -/

section Runs

variable {mode : AckMode} {ch : ChannelId} {base : ℕ} {start : ℤ} {s s' : State} {e : Event}

/-- The channel is there, and as long as nothing is torn a ledger that conserves its credit. -/
structure Flow (mode : AckMode) (ch : ChannelId) (base : ℕ) (start : ℤ) (s : State) : Prop where
  there : s.sh.channels.get ch ≠ none
  clear : Each (fun _ t => t.Clear ch) s.tasks
  ledger : (mode = .classic ∧ (s.sh.desync || s.sh.gone) = true) ∨ ∃ l, Tally mode ch base s l ∧ l.Conserved start

theorem handOver_other {ctl ctl' : Ctl} {h : Holder} (hh : ctl.handOver = some (h, ctl')) :
    (∀ c, ctl ≠ .write c) ∧ (∀ c, ctl' ≠ .write c) ∧
      ∀ c', ctl' = .reader c' → ∃ c, ctl = .reader c ∧ c'.guard = c.guard := by
  unfold Ctl.handOver at hh
  split at hh
  · split at hh
    · cases hh
      exact ⟨fun _ h => (by cases h), fun _ h => (by cases h), fun _ h => by cases h⟩
    · cases hh
  · split at hh
    · cases hh
      refine ⟨fun _ h => (by cases h), fun _ h => (by cases h), fun c' h => ?_⟩
      cases h
      exact ⟨_, rfl, ReaderTask.finish_guard _⟩
    · cases hh
  · cases hh

theorem AppCall.start_fair (c : AppCall) : (Task.mk c.start none).Fair := by
  cases c with
  | write ch data => exact .write (Nat.zero_le _) fun n k h => by cases h
  | _ => exact .other fun _ h => by cases h

theorem AppCall.start_clear (c : AppCall) (ch : ChannelId) : (Task.mk c.start none).Clear ch := by
  intro c' g hc
  cases c <;> cases hc

theorem AppCall.start_standing (c : AppCall) (mode : AckMode) (ch : ChannelId) :
    (Task.mk c.start none).standing mode ch = .idle ∧ (Task.mk c.start none).offset ch = 0 := by
  cases c with
  | write ch' data =>
    by_cases hch : ch' = ch
    · subst hch
      exact ⟨Task.standing_write (.start ch' data) none, Task.offset_write (.start ch' data) none⟩
    · refine Task.standing_other ?_
      show (if ch' = ch then some _ else none) = none
      rw [if_neg hch]
  | _ => exact Task.standing_other rfl

variable [Usize] {ng : Negotiated}

/-- What holds of a split connection whatever its channels do. -/
structure Sane (ng : Negotiated) (s : State) : Prop where
  exclusive : Exclusive s
  debts : DebtInv ng.ackMode s.half
  fair : Each (fun _ t => t.Fair) s.tasks

theorem Sane.moves (h : Sane ng s) (hm : s.Moves ng e s') : Sane ng s' := by
  obtain ⟨hx, hhalf⟩ := hm.half h.exclusive
  refine ⟨hx, hhalf.keeps (fun _ _ h hm => h.move hm) (fun _ _ h hq => h.quiet hq) h.debts, ?_⟩
  cases hm with
  | task i e t t' sh' ht hm => exact h.fair.set ((h.fair i t ht).moves hm) fun _ _ _ _ h => h
  | call c => exact h.fair.append c.start_fair
  | handOver i t hd ctl' ht hu hh =>
    obtain ⟨-, hno, -⟩ := handOver_other hh
    exact (h.fair.set (.other hno) fun _ _ _ _ h => h).append (.other fun _ h => by cases h)
  | listeners => exact h.fair

theorem Sane.init (table : ChannelTable) (incoming : IncomingQueue) (desync : Bool) :
    Sane ng (State.start table incoming desync) := by
  refine ⟨.start table incoming desync, .start _ table incoming desync, fun i t ht => ?_⟩
  rcases i with _ | i
  · cases ht
    exact .other fun _ h => by cases h
  · cases ht

/-- A packet that is being written is written in step. -/
theorem Sane.in_step {i : ℕ} {t : Task} (h : Sane ng s) (ht : s.tasks[i]? = some t) {u : Use} {pkt : Packet}
    (hu : t.use = some u) (hpc : u.pc = .sending pkt false) : s.sh.desync = false := by
  have hwh : s.sh.writeHalf = some i := ((h.exclusive.each i t ht u hu).2).mp (by rw [hpc]; exact fun h => by cases h)
  have hholder : s.half.1 = some u := by
    show s.holder = some u
    rw [State.holder, hwh, Option.bind_some, ht, Option.bind_some, hu]
  exact (h.debts.at hholder hpc).in_step (Or.inr ⟨pkt, false, rfl⟩)

/-- **Every event keeps the flow of credit.** -/
theorem Flow.moves (h : Flow mode ch base start s) (hsane : Sane ng s) (hm : s.Moves ng e s')
    (hthere : s'.sh.channels.get ch ≠ none) (hexact : Exact mode ch base start s') : Flow mode ch base start s' := by
  obtain ⟨slot, hget⟩ := Option.ne_none_iff_exists'.mp h.there
  -- once torn in classic mode nothing is kept any more
  have hledger : (∀ hflag : (s.sh.desync || s.sh.gone) = true, (s'.sh.desync || s'.sh.gone) = true) →
      (∀ l, Tally mode ch base s l → l.Conserved start → (mode = .classic → l.torn = false) →
        ∃ l', Tally mode ch base s' l' ∧ l'.Conserved start) →
      (mode = .classic ∧ (s'.sh.desync || s'.sh.gone) = true) ∨ ∃ l, Tally mode ch base s' l ∧ l.Conserved start := by
    intro hflags hnext
    rcases h.ledger with ⟨hc, hflag⟩ | ⟨l, hT, hC⟩
    · exact Or.inl ⟨hc, hflags hflag⟩
    · by_cases htorn : mode = .classic ∧ l.torn = true
      · exact Or.inl ⟨htorn.1, hflags (hT.torn ▸ htorn.2)⟩
      · refine Or.inr (hnext l hT hC fun hc => ?_)
        cases hl : l.torn with
        | false => rfl
        | true => exact absurd ⟨hc, hl⟩ htorn
  cases hm with
  | task i e t t' sh' ht hm =>
    refine ⟨hthere, h.clear.set ((h.clear i t ht).moves hget hm) fun _ _ _ _ h => h, hledger hm.flags ?_⟩
    intro l hT hC hwhole
    exact hT.task hC ht hm (hsane.fair i t ht).toApt (h.clear i t ht) hthere hexact hwhole
      fun u pkt hu hpc => hsane.in_step ht hu hpc
  | call c =>
    refine ⟨hthere, h.clear.append (c.start_clear ch), hledger id fun l hT hC _ => ?_⟩
    obtain ⟨hst, hoff⟩ := c.start_standing mode ch
    exact ⟨_, hT.join hst hoff, Ledger.Step.conserves hC .join⟩
  | handOver i t hd ctl' ht hu hh =>
    obtain ⟨hno, hno', hguard⟩ := handOver_other hh
    refine ⟨hthere, (h.clear.set ?_ fun _ _ _ _ h => h).append (fun _ _ h => by cases h),
      hledger id fun l hT hC _ => ?_⟩
    · intro c' g hc' hg
      obtain ⟨c, hc, hsame⟩ := hguard c' hc'
      exact h.clear i t ht c g hc (hsame ▸ hg)
    · have hT1 := hT.alter ht (Task.writes_none_of hno t.use ch) (Task.writes_none_of hno' none ch)
      exact ⟨_, hT1.join rfl rfl, Ledger.Step.conserves hC .join⟩
  | listeners e n he =>
    refine ⟨hthere, h.clear, hledger id fun l hT hC _ => ⟨l, ?_, hC⟩⟩
    exact ⟨hT.slot, hT.standing, hT.spent, hT.granted, hT.wire, hT.torn, hT.wrote_lt, hT.base_le⟩

end Runs

/-! ## Conservation -/

/-- What a task has reserved and not committed. -/
def Task.reserved (ch : ChannelId) (t : Task) : ℕ :=
  match (t.writes ch).bind fun c => c.pc.credit with
  | some (n, false) => n
  | _ => 0

/-- The bytes of the WRTEs it has committed. -/
def Task.committed (ch : ChannelId) (t : Task) : ℕ :=
  t.offset ch + match (t.writes ch).bind fun c => c.pc.credit with
    | some (n, true) => n
    | _ => 0

/-- In `s` the channel is still in its slot and the numbers are exact. -/
def Measured (mode : AckMode) (ch : ChannelId) (base : ℕ) (start : ℤ) (s : State) : Prop :=
  s.sh.channels.get ch ≠ none ∧ Exact mode ch base start s

section Conservation

variable [Usize] {ng : Negotiated} {ch : ChannelId}

omit [Usize] in
/-- A task's account, in its own terms. -/
theorem account_delayed {a : Purse.Account} {t : Task} (hst : a.standing = t.standing .delayed ch)
    (hspent : a.spent = t.offset ch) : a.waiting + a.wire = t.reserved ch ∧ a.settled = t.committed ch := by
  obtain ⟨st, k⟩ := a
  have hst : st = standingOf .delayed ((t.writes ch).bind fun c => c.pc.credit) t.onWire := hst
  have hspent : k = t.offset ch := hspent
  subst hst hspent
  unfold Task.reserved Task.committed
  cases (t.writes ch).bind fun c => c.pc.credit with
  | none => exact ⟨rfl, rfl⟩
  | some r =>
    obtain ⟨n, done⟩ := r
    cases done <;> cases t.onWire <;>
      simp [standingOf, AckMode.worth, Account.waiting, Account.wire, Account.settled]

omit [Usize] in
/-- The sums over the ledger are sums over the tasks. -/
theorem totals_delayed {users : List Purse.Account} {tasks : List Task}
    (hst : users.map Purse.Account.standing = tasks.map (Task.standing .delayed ch))
    (hspent : users.map Purse.Account.spent = tasks.map (Task.offset ch)) :
    total Purse.Account.waiting users + total Purse.Account.wire users = total (Task.reserved ch) tasks ∧
      total Purse.Account.settled users = total (Task.committed ch) tasks := by
  induction users generalizing tasks with
  | nil =>
    cases tasks with
    | nil => exact ⟨rfl, rfl⟩
    | cons t tasks => cases hst
  | cons a users ih =>
    cases tasks with
    | nil => cases hst
    | cons t tasks =>
      obtain ⟨h1, hst⟩ := List.cons.inj hst
      obtain ⟨h2, hspent⟩ := List.cons.inj hspent
      obtain ⟨h3, h4⟩ := ih hst hspent
      obtain ⟨h5, h6⟩ := account_delayed h1 h2
      simp only [total, List.map_cons, List.sum_cons] at h3 h4 ⊢
      omega

omit [Usize] in
/-- Where nobody writes to the channel the ledger is empty but for the purse. -/
theorem Flow.fresh {mode : AckMode} {s : State} {slot : ChannelSlot} (hget : s.sh.channels.get ch = some slot)
    (hmode : slot.policy.ack = mode) (hopen : slot.state ≠ .opening) (hpos : 0 ≤ slot.purse)
    (hfresh : Each (fun _ t => t.writes ch = none ∧ t.Clear ch) s.tasks) :
    Flow mode ch s.sh.trace.length slot.purse s := by
  have hidle : ∀ t ∈ s.tasks, t.standing mode ch = .idle ∧ t.offset ch = 0 := by
    intro t hmem
    obtain ⟨i, ht⟩ := List.mem_iff_getElem?.mp hmem
    exact Task.standing_other (hfresh i t ht).1
  have hzero : ∀ f : Purse.Account → ℕ, f ⟨.idle, 0⟩ = 0 →
      total f (s.tasks.map fun _ => ⟨.idle, 0⟩) = 0 := by
    intro f hf
    simp [total, hf]
  refine ⟨fun h => (by rw [hget] at h; cases h), hfresh.mono fun i t _ h => h.2, Or.inr
    ⟨⟨slot.purse, s.tasks.map fun _ => ⟨.idle, 0⟩, 0, 0, s.sh.desync || s.sh.gone⟩, ?_, ?_⟩⟩
  · refine ⟨⟨slot, hget, hmode, hopen, rfl⟩, ?_, fun _ => ?_, ?_, ?_, rfl, ?_, le_refl _⟩
    · rw [List.map_map]
      exact List.map_congr_left fun t hmem => (hidle t hmem).1.symm
    · rw [List.map_map]
      exact List.map_congr_left fun t hmem => (hidle t hmem).2.symm
    · rw [List.drop_length]
      rfl
    · rw [List.drop_length]
      rfl
    · intro j pkt hmem
      rw [List.drop_length] at hmem
      cases hmem
  · refine ⟨hpos, ?_, fun _ => ?_, ?_⟩
    · dsimp only
      rw [hzero _ rfl, hzero _ rfl, hzero _ rfl]
      simp
    · dsimp only
      rw [hzero _ rfl, hzero _ rfl]
    · simpa using hpos

/-- **Credit is conserved.**  From any reached state in which nobody writes to an open channel yet: with delayed ack
what is left, what is reserved and what is committed is what was granted, and no more than that is written; with
classic ack at most one WRTE is unanswered, and none if the channel was not ready, as long as the connection is in step
and there. -/
theorem credit_conserved (table : ChannelTable) (incoming : IncomingQueue) (desync : Bool) {es0 es : List Event}
    {s0 s : State} {slot0 : ChannelSlot}
    (hreach : Run (State.step ng) Any (State.start table incoming desync) es0 s0)
    (hget : s0.sh.channels.get ch = some slot0) (hopen : slot0.state ≠ .opening) (hpos : 0 ≤ slot0.sendBudget)
    (hfresh : Each (fun _ t => t.writes ch = none ∧ t.Clear ch) s0.tasks)
    (hrun : Run (State.step ng) (fun a e => ∀ b, a.step ng e = some b →
      Measured slot0.policy.ack ch s0.sh.trace.length slot0.purse b) s0 es s) :
    ∃ slot, s.sh.channels.get ch = some slot ∧
      (slot0.policy.ack = .delayed → 0 ≤ slot.sendBudget ∧
        slot.sendBudget + total (Task.reserved ch) s.tasks + total (Task.committed ch) s.tasks =
          slot0.sendBudget + creditOf .delayed ch.slot (s.sh.trace.drop s0.sh.trace.length) ∧
        (writtenOf .delayed (s.owns ch) (s.sh.trace.drop s0.sh.trace.length) : ℤ) ≤
          slot0.sendBudget + creditOf .delayed ch.slot (s.sh.trace.drop s0.sh.trace.length)) ∧
      (slot0.policy.ack = .classic → s.sh.desync = false → s.sh.gone = false → slot0.purse ≤ 1 ∧
        (writtenOf .classic (s.owns ch) (s.sh.trace.drop s0.sh.trace.length) : ℤ) ≤
          creditOf .classic ch.slot (s.sh.trace.drop s0.sh.trace.length) + slot0.purse) := by
  have hsane : Sane ng s0 := hreach.invariant (.init table incoming desync) fun a e b ha _ hs =>
    ha.moves (State.step_moves hs)
  have hpurse : 0 ≤ slot0.purse ∧ (slot0.policy.ack = .classic → slot0.purse ≤ 1) := by
    unfold ChannelSlot.purse
    cases slot0.policy.ack with
    | delayed => exact ⟨hpos, fun h => by cases h⟩
    | classic =>
      dsimp only
      split_ifs <;> simp
  have hflow : Sane ng s ∧ Flow slot0.policy.ack ch s0.sh.trace.length slot0.purse s := by
    refine hrun.invariant (I := fun s => Sane ng s ∧ Flow slot0.policy.ack ch s0.sh.trace.length slot0.purse s)
      ⟨hsane, .fresh hget rfl hopen hpurse.1 hfresh⟩ ?_
    rintro a e b ⟨ha, hf⟩ hP hs
    obtain ⟨hthere, hexact⟩ := hP b hs
    exact ⟨ha.moves (State.step_moves hs), hf.moves ha (State.step_moves hs) hthere hexact⟩
  obtain ⟨-, hthere, -, hledger⟩ := hflow
  rcases hledger with ⟨hc, hflag⟩ | ⟨l, hT, hC⟩
  · -- torn, with classic ack
    obtain ⟨slot, hslot⟩ := Option.ne_none_iff_exists'.mp hthere
    refine ⟨slot, hslot, fun hd => ?_, fun _ hstep hlive => ?_⟩
    · cases hc.symm.trans hd
    · rw [hstep, hlive] at hflag
      cases hflag
  · obtain ⟨slot, hslot, hmode, -, hleft⟩ := hT.slot
    refine ⟨slot, hslot, fun hd => ?_, fun hc hstep hlive => ?_⟩
    · have hstart : slot0.purse = slot0.sendBudget := by rw [ChannelSlot.purse, hd]
      have hend : slot.purse = slot.sendBudget := by rw [ChannelSlot.purse, hmode, hd]
      obtain ⟨-, hst, hspent, hgranted, hwire, -, -, -⟩ := hT
      have hb := hC.balance
      have hw := hC.within
      rw [hd] at hst hspent hgranted hwire
      obtain ⟨h1, h2⟩ := totals_delayed hst (hspent rfl)
      refine ⟨?_, ?_, ?_⟩
      · rw [← hend, hleft]
        exact hC.nonneg
      · rw [← hgranted]
        omega
      · rw [← hwire, ← hgranted]
        omega
    · have hw := hC.within
      obtain ⟨-, -, -, hgranted, hwire, -, -, -⟩ := hT
      rw [hc] at hgranted hwire
      refine ⟨hpurse.2 hc, ?_⟩
      rw [← hgranted, ← hwire]
      omega

end Conservation

/-! ### Two writers -/

instance (mode : AckMode) (ch : ChannelId) (base : ℕ) (start : ℤ) (s : State) :
    Decidable (Exact mode ch base start s) :=
  match mode with
  | .delayed => inferInstanceAs (Decidable (_ < _))
  | .classic => inferInstanceAs (Decidable (_ ≤ _))

/-- One write returns, another has credit for two bytes. -/
def twoWriters : List Event :=
  writesUpToIds ++ [.step 1 .acquire, .step 1 .go, .step 1 .go, .step 1 .accept, .step 1 .flush, .step 1 .go,
    .call (.write ⟨0, ⟨1⟩⟩ [1, 2]), .step 2 .go, .step 2 .go, .step 2 .go, .step 2 .go, .step 2 .go]

/-- Whether a step leads to a state with exact numbers. -/
def measures (s : State) (e : Event) : Bool :=
  (@State.step usize64 sampleNegotiated s e).all fun b =>
    (b.sh.channels.get ⟨0, ⟨1⟩⟩).isSome && decide (Exact .delayed ⟨0, ⟨1⟩⟩ 0 8 b)

theorem measured_of_measures {s : State} {e : Event} (h : measures s e = true) :
    ∀ b, @State.step usize64 sampleNegotiated s e = some b → Measured .delayed ⟨0, ⟨1⟩⟩ 0 8 b := by
  intro b hb
  unfold measures at h
  rw [hb, Option.all_some, Bool.and_eq_true, decide_eq_true_eq] at h
  exact ⟨fun hnone => (by rw [hnone] at h; cases h.1), h.2⟩

set_option maxRecDepth 20000 in
theorem credit_conserved_two_writers :
    ∃ s, exec (guarded (@State.step usize64 sampleNegotiated) measures) (State.start fundedTable [] false) twoWriters =
        some s ∧
      total (Task.reserved ⟨0, ⟨1⟩⟩) s.tasks = 2 ∧ total (Task.committed ⟨0, ⟨1⟩⟩) s.tasks = 1 ∧
      ∃ slot, s.sh.channels.get ⟨0, ⟨1⟩⟩ = some slot ∧ 0 ≤ slot.sendBudget ∧
        slot.sendBudget + total (Task.reserved ⟨0, ⟨1⟩⟩) s.tasks + total (Task.committed ⟨0, ⟨1⟩⟩) s.tasks =
          8 + creditOf .delayed 0 s.sh.trace := by
  have conserved : ∀ s, exec (guarded (@State.step usize64 sampleNegotiated) measures)
      (State.start fundedTable [] false) twoWriters = some s →
      ∃ slot, s.sh.channels.get ⟨0, ⟨1⟩⟩ = some slot ∧ 0 ≤ slot.sendBudget ∧
        slot.sendBudget + total (Task.reserved ⟨0, ⟨1⟩⟩) s.tasks + total (Task.committed ⟨0, ⟨1⟩⟩) s.tasks =
          8 + creditOf .delayed 0 s.sh.trace := by
    intro s h
    obtain ⟨slot, hslot, hdelayed, -⟩ := @credit_conserved usize64 sampleNegotiated ⟨0, ⟨1⟩⟩ fundedTable [] false [] _
      (State.start fundedTable [] false) s _ (.nil _) rfl (fun h => by cases h) (by decide)
      (fun i t ht => by
        rcases i with _ | i
        · cases ht
          exact ⟨rfl, fun c g hc hg => by cases hc; cases hg⟩
        · cases ht)
      (Run.of_guarded (fun _ _ => measured_of_measures) h)
    obtain ⟨h1, h2, -⟩ := hdelayed rfl
    exact ⟨slot, hslot, h1, h2⟩
  exact ⟨_, rfl, rfl, rfl, conserved _ rfl⟩

end LibAdb.Split
