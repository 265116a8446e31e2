import LibAdb.Split.Credit

/-!
# LibAdb.Split.CreditMoves — what an event does to a channel's credit

Every event is at most one step of the channel's purse (`Task.Moves.credit`), for tasks that send what they reserved
(`Task.Fair`) and hold no guard over the channel's slot (`Task.Clear`).  The tasks of a run stay that way.
-/

namespace LibAdb.Split

open Tasks Purse

section Events

variable {mode : AckMode} {ch : ChannelId} {slot slot' : ChannelSlot} {sh sh' : Shared}
  {t t' : Task} {i : ℕ} {use : Option Use}

/-- A task that writes to `ch` is a write call on it. -/
theorem Task.writes_some {c : WriteCall} (h : t.writes ch = some c) : t.ctl = .write c ∧ c.ch = ch := by
  unfold Task.writes at h
  split at h
  · rename_i c' hctl
    split_ifs at h with hch
    cases h
    exact ⟨hctl, hch⟩
  · cases h

theorem Task.writes_none_of {ctl : Ctl} (h : ∀ c, ctl ≠ .write c) (u : Option Use) (ch : ChannelId) :
    (Task.mk ctl u).writes ch = none := by
  unfold Task.writes
  split
  · rename_i c hctl
    exact absurd hctl (h c)
  · rfl

/-- A reservation that is being sent. -/
theorem Task.standing_sending {c : WriteCall} {u : Option Use} {n : ℕ} {k : Bool} (hch : c.ch = ch)
    (hcredit : c.pc.credit = some (n, k)) :
    (Task.mk (.write c) u).standing mode ch = standingOf mode (some (n, k)) (u.any Use.onWire) := by
  subst hch
  rw [Task.standing_write, hcredit]

variable [Usize] {ng : Negotiated}

/-- A control step. -/
theorem Ctl.Moves.credit {ctl ctl' : Ctl} (hget : sh.channels.get ch = some slot)
    (hget' : sh'.channels.get ch = some slot') (hopen : slot.state ≠ .opening)
    (hclear : Task.Clear ch ⟨ctl, none⟩) (h : Ctl.Moves ng sh ctl ctl' use sh') :
    CreditMove mode ch i ⟨ctl, none⟩ ⟨ctl', use⟩ slot slot' sh sh' := by
  cases h with
  | write c c' _ _ hm =>
    by_cases hch : c.ch = ch
    · subst hch
      exact hm.credit hget hget'
    · have hch' : c'.ch = c.ch := by cases hm <;> rfl
      exact .other (hm.aside hget hch) hget' (by rw [Task.writes_write, if_neg hch])
        (by rw [Task.writes_write, hch', if_neg hch])
  | close _ _ _ _ hm | read _ _ _ _ hm | «open» _ _ _ _ hm | holder _ _ _ _ hm | listen _ _ _ _ hm =>
    exact .other (hm.aside hget) hget' rfl rfl
  | reader c c' _ _ hm =>
    rcases hm.credit hget hopen (fun g hg => hclear c g rfl hg) with ha | ⟨pkt, hg⟩
    · exact .other ha hget' rfl rfl
    · exact .grant pkt rfl rfl (hg.channels slot' hget') hg.trace

/-- The use of the write half goes on. -/
theorem Task.more_credit {u u' : Use} {a : Act} (hget : sh.channels.get ch = some slot)
    (hget' : sh'.channels.get ch = some slot') (hapt : t.Apt) (hu : t.use = some u)
    (hm : u.Moves ng i sh a (.more u') sh') : CreditMove mode ch i t ⟨t.ctl, some u'⟩ slot slot' sh sh' := by
  obtain ⟨ctl, use0⟩ := t
  cases hu
  rcases hm.more_credit hget with ⟨ha, hoff, hoff'⟩ | ⟨pkt, hpc, hpc', rfl, hlive⟩
  · refine .aside ha hget' ?_ rfl
    show standingOf mode _ u'.onWire = standingOf mode _ u.onWire
    rw [hoff, hoff']
    rfl
  · have hoff : u.onWire = false := by rw [Use.onWire, hpc]
    have hoff' : u'.onWire = true := by rw [Use.onWire, hpc']
    have hslot : slot.SendSide slot' := Keeps.refl hget slot' hget'
    cases hw : (Task.mk ctl (some u)).writes ch with
    | none =>
      obtain ⟨h1, h2⟩ := @Task.standing_other mode ch ⟨ctl, some u⟩ hw
      obtain ⟨h3, h4⟩ := @Task.standing_other mode ch ⟨ctl, some u'⟩ hw
      exact .calm [.wrote i false pkt] (h3.trans h1.symm) (h4.trans h2.symm) hslot rfl fun o ho => by
        rw [List.mem_singleton] at ho
        exact Or.inr ⟨⟨pkt, ho⟩, hw⟩
    | some c =>
      obtain ⟨hctl, hch⟩ := Task.writes_some hw
      cases hctl
      obtain ⟨n, pkt', hsending, hjob, hlen⟩ := hapt.sends c u rfl rfl
      obtain rfl := hapt.own u pkt false pkt' rfl hpc hjob
      have hcredit : c.pc.credit = some (n, false) := by rw [hsending]; rfl
      refine .write n pkt ?_ ?_ rfl hslot rfl hlen (by rw [hw]; rfl) hlive ⟨u, rfl, hpc⟩
      · rw [Task.standing_sending hch hcredit]
        show standingOf mode _ u.onWire = _
        rw [hoff]
        rfl
      · rw [Task.standing_sending hch hcredit]
        show standingOf mode _ u'.onWire = _
        rw [hoff']
        rfl

/-- The use of the write half has ended. -/
theorem Task.ended_credit {u : Use} {a : Act} {r : Option Error} {sh1 : Shared} (hget : sh.channels.get ch = some slot)
    (hapt : t.Apt) (hu : t.use = some u) (hm : u.Moves ng i sh a (.ended r) sh1)
    (hget' : (t.ctl.resume r sh1).2.channels.get ch = some slot') :
    CreditMove mode ch i t ⟨(t.ctl.resume r sh1).1, none⟩ slot slot' sh (t.ctl.resume r sh1).2 := by
  obtain ⟨ctl, use0⟩ := t
  cases hu
  obtain ⟨ha, hbad, hflushed⟩ := hm.ended_credit hget
  cases hw : (Task.mk ctl (some u)).writes ch with
  | none => exact .other (ha.resume ctl r) hget' hw (Ctl.resume_writes hw r sh1)
  | some c =>
    obtain ⟨hctl, hch⟩ := Task.writes_some hw
    cases hctl
    obtain ⟨n, pkt', hsending, hjob, hlen⟩ := hapt.sends c u rfl rfl
    obtain ⟨hch', hoff', -, hcredit'⟩ := WriteCall.resume_sending hsending r
    have hcredit : c.pc.credit = some (n, false) := by rw [hsending]; rfl
    have hst : (Task.mk (.write c) (some u)).standing mode ch = standingOf mode (some (n, false)) u.onWire :=
      Task.standing_sending hch hcredit
    have hst' : (Task.mk (.write (c.resume r)) none).standing mode ch = standingOf mode (some (n, r.isNone)) false :=
      Task.standing_sending (hch'.trans hch) hcredit'
    have hoffset : (Task.mk (.write (c.resume r)) none).offset ch = (Task.mk (.write c) (some u)).offset ch := by
      subst hch
      have h1 := Task.offset_write (c.resume r) none
      rw [hch', hoff'] at h1
      rw [h1, Task.offset_write]
    obtain ⟨obs, htr, hobs⟩ := ha.trace
    have hside := ha.keeps slot' hget'
    cases r with
    | none =>
      have hwire := hflushed rfl ⟨pkt', hjob⟩
      exact .commit n obs (by rw [hst, hwire]; rfl) hst' hoffset hside htr hobs
    | some e =>
      by_cases hwire : u.onWire = true
      · refine .tear n obs (by rw [hst, hwire]; rfl) hst' hoffset hside htr hobs ?_
        exact (hbad hwire).resolve_left (fun h => by cases h)
      · have hoff : u.onWire = false := by simpa using hwire
        exact .aside ha hget' (by
          show (Task.mk (.write (c.resume (some e))) none).standing mode ch = _
          rw [hst', hst, hoff]
          rfl) hoffset

omit [Usize] in
/-- A call is dropped, in or out of a use of the write half. -/
theorem Task.drop_credit {ctl ctl' : Ctl} {use0 : Option Use} (hget : sh.channels.get ch = some slot)
    (hget' : sh'.channels.get ch = some slot') (hapt : (Task.mk ctl use0).Apt) (hc : ctl.drop = some ctl')
    (hd : (use0 = none ∧ sh' = sh) ∨ ∃ u, use0 = some u ∧ u.drop sh = some sh') :
    CreditMove mode ch i ⟨ctl, use0⟩ ⟨ctl', none⟩ slot slot' sh sh' := by
  have ha : Aside ch slot sh sh' ∧ (use0.any Use.onWire = true → sh'.desync = true) := by
    rcases hd with ⟨rfl, rfl⟩ | ⟨u, rfl, hd⟩
    · exact ⟨.refl hget, nofun⟩
    · exact Use.drop_credit hget hd
  obtain ⟨haside, hbad⟩ := ha
  cases hw : (Task.mk ctl use0).writes ch with
  | none =>
    refine .other haside hget' hw ?_
    cases ctl with
    | write c =>
      obtain ⟨c', hc', rfl⟩ := Option.map_eq_some_iff.mp hc
      rw [Task.writes_write] at hw ⊢
      rw [(WriteCall.drop_inv hc').1]
      by_cases hch : c.ch = ch
      · rw [if_pos hch] at hw
        cases hw
      · rw [if_neg hch]
    | _ =>
      obtain ⟨c', hc', rfl⟩ := Option.map_eq_some_iff.mp hc
      rfl
  | some c =>
    obtain ⟨hctl, hch⟩ := Task.writes_some hw
    cases hctl
    obtain ⟨c', hc', rfl⟩ := Option.map_eq_some_iff.mp hc
    obtain ⟨hch', hoff', -, hor⟩ := WriteCall.drop_inv hc'
    have hoffset : (Task.mk (.write c') none).offset ch = (Task.mk (.write c) use0).offset ch := by
      subst hch
      have h1 := Task.offset_write c' none
      rw [hch', hoff'] at h1
      rw [h1, Task.offset_write]
    obtain ⟨obs, htr, hobs⟩ := haside.trace
    rcases hor with ⟨n, hsending, hcredit'⟩ | ⟨hnone, hnone'⟩
    · have hcredit : c.pc.credit = some (n, false) := by rw [hsending]; rfl
      have hst : (Task.mk (.write c) use0).standing mode ch = standingOf mode (some (n, false)) (use0.any Use.onWire) :=
        Task.standing_sending hch hcredit
      have hst' : (Task.mk (.write c') none).standing mode ch = standingOf mode (some (n, false)) false :=
        Task.standing_sending (hch'.trans hch) hcredit'
      by_cases hwire : use0.any Use.onWire = true
      · exact .tear n obs (by rw [hst, hwire]; rfl) (by rw [hst']; rfl) hoffset (haside.keeps slot' hget') htr hobs
          (Or.inl (hbad hwire))
      · have hoff : use0.any Use.onWire = false := by simpa using hwire
        exact .aside haside hget' (by rw [hst', hst, hoff]) hoffset
    · refine .aside haside hget' ?_ hoffset
      subst hch
      have h1 := @Task.standing_write mode c' none
      rw [hch', hnone'] at h1
      rw [h1, Task.standing_write, hnone]
      rfl

/-- **Every event is at most one step of the purse.** -/
theorem Task.Moves.credit {e : Event} (hget : sh.channels.get ch = some slot)
    (hget' : sh'.channels.get ch = some slot') (hopen : slot.state ≠ .opening) (hapt : t.Apt) (hclear : t.Clear ch)
    (h : t.Moves ng i sh e t' sh') : CreditMove mode ch i t t' slot slot' sh sh' := by
  have hother : ∀ {ctl ctl' : Ctl}, (∀ c, ctl ≠ .write c) → (∀ c, ctl' ≠ .write c) → Aside ch slot sh sh' →
      ∀ u u', CreditMove mode ch i ⟨ctl, u⟩ ⟨ctl', u'⟩ slot slot' sh sh' := fun h1 h2 ha u u' =>
    .other ha hget' (Task.writes_none_of h1 _ _) (Task.writes_none_of h2 _ _)
  cases h with
  | ctl a ctl' use' sh' hu hm =>
    obtain ⟨ctl, use0⟩ := t
    cases hu
    exact hm.credit hget hget' hopen hclear
  | more u a u' sh' hu hm => exact Task.more_credit hget hget' hapt hu hm
  | ended u a r sh1 hu hm => exact Task.ended_credit hget hapt hu hm hget'
  | cancel u ctl' sh' hu hc hd =>
    obtain ⟨ctl, use0⟩ := t
    have ha := (Use.drop_credit hget hd).1
    cases ctl with
    | close c | read c | reader c =>
      obtain ⟨c', -, rfl⟩ := Option.map_eq_some_iff.mp hc
      exact hother (fun _ h => by cases h) (fun _ h => by cases h) ha _ _
    | _ => cases hc
  | drop u ctl' sh' hu hc hd =>
    obtain ⟨ctl, use0⟩ := t
    exact Task.drop_credit hget hget' hapt hc (Or.inr ⟨u, hu, hd⟩)
  | dropIdle ctl' hu hc =>
    obtain ⟨ctl, use0⟩ := t
    exact Task.drop_credit hget hget' hapt hc (Or.inl ⟨hu, rfl⟩)
  | begin c call c' hu hctl | decide c accept hu hctl | dropReader c hu hctl =>
    obtain ⟨ctl, use0⟩ := t
    cases hctl
    exact hother (fun _ h => by cases h) (fun _ h => by cases h) (.refl hget) _ _

/-! ## What the tasks keep -/

/-- A task that is apt, and whose write has not gone past its data. -/
structure Task.Fair (t : Task) : Prop extends t.Apt where
  offset_le : ∀ c, t.ctl = .write c → c.offset ≤ c.data.length

omit [Usize] in
theorem Task.Fair.idle {ctl : Ctl} (hoffset : ∀ c, ctl = .write c → c.offset ≤ c.data.length)
    (hbound : ∀ c n k, ctl = .write c → c.pc.credit = some (n, k) → c.offset + n ≤ c.data.length) :
    (Task.mk ctl none).Fair :=
  ⟨⟨hbound, fun _ u _ hu => (by cases hu), fun u _ _ _ hu => (by cases hu)⟩, hoffset⟩

omit [Usize] in
/-- A task without a use that writes nothing. -/
theorem Task.Fair.other {ctl : Ctl} (h : ∀ c, ctl ≠ .write c) : (Task.mk ctl none).Fair :=
  .idle (fun c hctl => absurd hctl (h c)) fun c _ _ hctl => absurd hctl (h c)

omit [Usize] in
/-- A write call without a use. -/
theorem Task.Fair.write {c : WriteCall} (hoffset : c.offset ≤ c.data.length)
    (hbound : ∀ n k, c.pc.credit = some (n, k) → c.offset + n ≤ c.data.length) : (Task.mk (.write c) none).Fair := by
  refine .idle (fun c1 h1 => ?_) fun c1 n k h1 hcredit => ?_
  · cases h1
    exact hoffset
  · cases h1
    exact hbound n k hcredit

theorem WriteCall.Moves.fair {c c' : WriteCall} (hfair : (Task.mk (.write c) none).Fair)
    (h : c.Moves ng sh c' use sh') : (Task.mk (.write c') use).Fair := by
  have hbound : ∀ n k, c.pc.credit = some (n, k) → c.offset + n ≤ c.data.length := fun n k => hfair.bound c n k rfl
  have hoffset := hfair.offset_le c rfl
  cases h with
  | idle pc' hnone hnone' => exact .write hoffset fun n k hcredit => (by cases hnone'.symm.trans hcredit)
  | joins | leaves | refunds => exact .write hoffset fun n k hcredit => (by cases hcredit)
  | reserves place gen n sh' hpc hres =>
    obtain ⟨s, s1, q, -, hr, -, -⟩ := WriteCall.tryReserve_some hres
    obtain ⟨-, hle, -⟩ := ChannelSlot.tryReserveSend_some hr
    have hwant : c.want ng ≤ c.data.length - c.offset := Nat.min_le_left _ _
    refine .write hoffset fun n1 k hcredit => ?_
    cases hcredit
    show c.offset + n ≤ c.data.length
    omega
  | unnamed n e hpc =>
    refine .write hoffset fun n1 k hcredit => ?_
    cases hcredit
    exact hbound n false (by rw [hpc]; rfl)
  | sends n ids hpc hids =>
    have hle : c.offset + n ≤ c.data.length := hbound n false (by rw [hpc]; rfl)
    refine ⟨⟨fun c1 n1 k hc1 hcredit => ?_, fun c1 u hc1 hu => ?_, fun u pkt whole pkt' hu hpc' => ?_⟩,
      fun c1 hc1 => ?_⟩
    · cases hc1
      cases hcredit
      exact hle
    · cases hc1
      cases hu
      refine ⟨n, _, rfl, rfl, ?_⟩
      show ((c.data.drop c.offset).take n).length = n
      rw [List.length_take, List.length_drop]
      omega
    · cases hu
      cases hpc'
    · cases hc1
      exact hoffset
  | commits n r pc' hpc hnone' =>
    refine .write (hbound n true (by rw [hpc]; rfl)) fun n1 k hcredit => ?_
    cases hnone'.symm.trans hcredit

omit [Usize] in
/-- A write that resumes, or is dropped, keeps its reservation. -/
theorem Task.Fair.kept {c c' : WriteCall} {u : Option Use} (hfair : (Task.mk (.write c) u).Fair)
    (hoffset : c'.offset = c.offset) (hdata : c'.data = c.data)
    (hcredit : ∀ n k, c'.pc.credit = some (n, k) → ∃ k', c.pc.credit = some (n, k')) :
    (Task.mk (.write c') none).Fair := by
  refine .write ?_ fun n k hk => ?_
  · rw [hoffset, hdata]
    exact hfair.offset_le c rfl
  · obtain ⟨k', hk'⟩ := hcredit n k hk
    rw [hoffset, hdata]
    exact hfair.bound c n k' rfl hk'

omit [Usize] in
theorem Ctl.drop_fair {ctl ctl' : Ctl} {u : Option Use} (hfair : (Task.mk ctl u).Fair) (hc : ctl.drop = some ctl') :
    (Task.mk ctl' none).Fair := by
  cases ctl with
  | write c =>
    obtain ⟨c', hc', rfl⟩ := Option.map_eq_some_iff.mp hc
    obtain ⟨-, hoff, hdata, hor⟩ := WriteCall.drop_inv hc'
    refine hfair.kept hoff hdata fun n k hk => ?_
    rcases hor with ⟨m, hpc, hcredit⟩ | ⟨-, hnone⟩
    · rw [hcredit] at hk
      cases hk
      exact ⟨false, by rw [hpc]; rfl⟩
    · cases hnone.symm.trans hk
  | _ =>
    obtain ⟨c', hc', rfl⟩ := Option.map_eq_some_iff.mp hc
    exact .other fun _ h => by cases h

theorem Task.Fair.moves {e : Event} (hfair : t.Fair) (h : t.Moves ng i sh e t' sh') : t'.Fair := by
  obtain ⟨ctl, use0⟩ := t
  cases h with
  | ctl a ctl' use' sh' hu hm =>
    cases hu
    have hbegins := hm.controls.begins
    -- a use that a call other than a write begins sends no packet of a write
    have hother : (∀ c, ctl' ≠ .write c) → (Task.mk ctl' use').Fair := by
      intro hno
      refine ⟨⟨fun c _ _ hc => absurd hc (hno c), fun c _ hc => absurd hc (hno c), fun u pkt whole pkt' hu hpc => ?_⟩,
        fun c hc => absurd hc (hno c)⟩
      obtain ⟨job, rfl, -⟩ := hbegins u hu
      cases hpc
    cases hm with
    | write c c' _ _ hm => exact hm.fair hfair
    | _ => exact hother fun _ h => by cases h
  | more u a u' sh' hu hm =>
    cases hu
    have hjob := hm.more_inv.1
    refine ⟨⟨hfair.bound, fun c u1 hc hu1 => ?_, fun u1 pkt whole pkt' hu1 hpc hj => ?_⟩, hfair.offset_le⟩
    · cases hu1
      obtain ⟨n, pkt, hpc, hj, hlen⟩ := hfair.sends c u hc rfl
      exact ⟨n, pkt, hpc, hjob.trans hj, hlen⟩
    · cases hu1
      rw [hjob] at hj
      cases hm with
      | acquire => revert hpc; cases u.job <;> nofun
      | own _ _ _ hown =>
        cases hown with
        | begun pkt1 hj1 =>
          cases hpc
          rcases hj1 with hj1 | hj1
          · cases hj1.symm.trans hj
            rfl
          · cases hj1.symm.trans hj
        | okay ch1 want ack sh1 hj1 => cases hj1.symm.trans hj
      | written pkt1 hpc1 =>
        cases hpc
        exact hfair.own u pkt false pkt' rfl hpc1 hj
      | _ => cases hpc
  | ended u a r sh1 hu hm =>
    cases hu
    cases ctl with
    | write c =>
      obtain ⟨n, pkt, hpc, -, -⟩ := hfair.sends c u rfl rfl
      obtain ⟨-, hoff, hdata, hcredit⟩ := WriteCall.resume_sending hpc r
      refine hfair.kept hoff hdata fun m k hk => ?_
      rw [hcredit] at hk
      cases hk
      exact ⟨false, by rw [hpc]; rfl⟩
    | _ => exact .other fun _ h => by cases h
  | cancel u ctl' sh' hu hc hd =>
    cases ctl with
    | close c | read c | reader c =>
      obtain ⟨c', -, rfl⟩ := Option.map_eq_some_iff.mp hc
      exact .other fun _ h => by cases h
    | _ => cases hc
  | drop u ctl' sh' hu hc hd => exact Ctl.drop_fair hfair hc
  | dropIdle ctl' hu hc => exact Ctl.drop_fair hfair hc
  | begin | decide | dropReader => exact .other fun _ h => by cases h

/-- The guard of an open never lies over an occupied slot it did not take. -/
theorem Task.Clear.moves {e : Event} (hclear : t.Clear ch) (hget : sh.channels.get ch = some slot)
    (h : t.Moves ng i sh e t' sh') : t'.Clear ch := by
  obtain ⟨ctl, use0⟩ := t
  have hkeep : ∀ {c c' : ReaderTask}, ctl = .reader c → (c'.guard = c.guard ∨ c'.guard = none) → ∀ u,
      (Task.mk (.reader c') u).Clear ch := by
    intro c c' hctl hg u c1 g h1 hguard
    cases h1
    rcases hg with hg | hg
    · exact hclear c g hctl (hg.symm.trans hguard)
    · cases hg.symm.trans hguard
  have hother : ∀ {ctl' : Ctl}, (∀ c, ctl' ≠ .reader c) → ∀ u, (Task.mk ctl' u).Clear ch :=
    fun hno u c g hc => absurd hc (hno c)
  cases h with
  | ctl a ctl' use' sh' hu hm =>
    cases hm with
    | reader c c' _ _ hm =>
      rcases hm.guard with hg | hg | ⟨destination, ch1, u, hg, htake⟩
      · exact hkeep rfl (Or.inl hg) _
      · exact hkeep rfl (Or.inr hg) _
      · intro c1 g h1 hguard heq
        cases h1
        cases hg.symm.trans hguard
        unfold takeSlot at htake
        split at htake
        · cases htake
        · rename_i ch2 channels halloc
          cases htake
          have hfree := (ChannelTable.allocate_spec halloc).1
          rw [heq, (ChannelTable.get_eq_some.mp hget).1] at hfree
          cases hfree
    | _ => exact hother (fun _ h => by cases h) _
  | more u a u' sh' hu hm => exact fun c g hc hg => hclear c g hc hg
  | ended u a r sh1 hu hm =>
    cases ctl with
    | reader c => exact hkeep rfl (Or.inl (c.resume_resumes r sh1).1.guard) _
    | _ => exact hother (fun _ h => by cases h) _
  | cancel u ctl' sh' hu hc hd =>
    cases ctl with
    | reader c =>
      obtain ⟨c', hc', rfl⟩ := Option.map_eq_some_iff.mp hc
      exact hkeep rfl (Or.inl (ReaderTask.cancel_guard hc')) _
    | close c | read c =>
      obtain ⟨c', -, rfl⟩ := Option.map_eq_some_iff.mp hc
      exact hother (fun _ h => by cases h) _
    | _ => cases hc
  | drop u ctl' sh' hu hc hd | dropIdle ctl' hu hc =>
    cases ctl with
    | reader c =>
      obtain ⟨c', hc', rfl⟩ := Option.map_eq_some_iff.mp hc
      exact hkeep rfl (Or.inl (ReaderTask.drop_guard hc')) _
    | _ =>
      obtain ⟨c', -, rfl⟩ := Option.map_eq_some_iff.mp hc
      exact hother (fun _ h => by cases h) _
  | begin c call c' hu hctl hb => exact hkeep hctl (Or.inr (ReaderTask.begin_guard hb)) _
  | decide => exact hother (fun _ h => by cases h) _
  | dropReader c hu hctl =>
    have hguard : (c.goto .stop).guard = c.guard := rfl
    exact hkeep hctl (Or.inl hguard) _

/-- Whether a task writes to `ch` never changes. -/
theorem Task.Moves.writes {e : Event} (h : t.Moves ng i sh e t' sh') (ch : ChannelId) :
    (t'.writes ch).isSome = (t.writes ch).isSome := by
  obtain ⟨ctl, use0⟩ := t
  have hwrite : ∀ {c c' : WriteCall} (u u' : Option Use), c'.ch = c.ch →
      ((Task.mk (.write c') u).writes ch).isSome = ((Task.mk (.write c) u').writes ch).isSome := by
    intro c c' u u' hch
    rw [Task.writes_write, Task.writes_write, hch]
    split_ifs <;> rfl
  cases h with
  | ctl a ctl' use' sh' hu hm =>
    cases hm with
    | write c c' _ _ hm => exact hwrite _ _ (by cases hm <;> rfl)
    | _ => rfl
  | more => rfl
  | ended u a r sh1 hu hm =>
    cases ctl with
    | write c =>
      refine hwrite _ _ ?_
      unfold WriteCall.resume
      split <;> rfl
    | _ => rfl
  | cancel u ctl' sh' hu hc hd =>
    cases ctl with
    | close c | read c | reader c =>
      obtain ⟨c', -, rfl⟩ := Option.map_eq_some_iff.mp hc
      rfl
    | _ => cases hc
  | drop u ctl' sh' hu hc hd | dropIdle ctl' hu hc =>
    cases ctl with
    | write c =>
      obtain ⟨c', hc', rfl⟩ := Option.map_eq_some_iff.mp hc
      exact hwrite _ _ (WriteCall.drop_inv hc').1
    | _ =>
      obtain ⟨c', -, rfl⟩ := Option.map_eq_some_iff.mp hc
      rfl
  | begin c call c' hu hctl | decide c accept hu hctl | dropReader c hu hctl =>
    cases hctl
    rfl

end Events

end LibAdb.Split
