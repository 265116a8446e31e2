import LibAdb.Split.WriteHalf

/-!
# LibAdb.Split.Debts — what is owed is paid once and in order

The list of debts is peeked, its head is written across awaits without the lock of the list, and only then popped,
while other tasks append.  `Books` ties the three together: what has been written of the debts, what has been flushed
and what has been popped differ by at most the one debt the holder of the write half is at, and that one is still the
head of the list.  A write that does not end well sets the flag or finds the device gone, and from there on nothing is
written, which is why the difference never has to be made up for.
-/

namespace LibAdb.Split

/-! ## Packets in a trace -/

namespace Obs

@[simp] def begun? : Obs → Option (Bool × Packet)
  | .begun debt pkt => some (debt, pkt)
  | _ => none

@[simp] def wrote? : Obs → Option (Bool × Packet)
  | .wrote _ debt pkt => some (debt, pkt)
  | _ => none

@[simp] def flushed? : Obs → Option (Bool × Packet)
  | .flushed debt pkt => some (debt, pkt)
  | _ => none

end Obs

/-- The packets begun, each with whether it pays a debt. -/
def begunOf (tr : List Obs) : List (Bool × Packet) := tr.filterMap Obs.begun?

/-- The packets that reached the transport whole. -/
def wroteOf (tr : List Obs) : List (Bool × Packet) := tr.filterMap Obs.wrote?

/-- The packets flushed. -/
def flushedOf (tr : List Obs) : List (Bool × Packet) := tr.filterMap Obs.flushed?

/-- Those among them that pay debts. -/
def debtsOf (l : List (Bool × Packet)) : List Packet := l.filterMap fun (debt, pkt) => if debt then some pkt else none

@[simp] theorem begunOf_append (a b : List Obs) : begunOf (a ++ b) = begunOf a ++ begunOf b := List.filterMap_append

@[simp] theorem wroteOf_append (a b : List Obs) : wroteOf (a ++ b) = wroteOf a ++ wroteOf b := List.filterMap_append

@[simp] theorem flushedOf_append (a b : List Obs) : flushedOf (a ++ b) = flushedOf a ++ flushedOf b :=
  List.filterMap_append

@[simp] theorem begunOf_one (o : Obs) : begunOf [o] = o.begun?.toList := filterMap_one _ _

@[simp] theorem wroteOf_one (o : Obs) : wroteOf [o] = o.wrote?.toList := filterMap_one _ _

@[simp] theorem flushedOf_one (o : Obs) : flushedOf [o] = o.flushed?.toList := filterMap_one _ _

@[simp] theorem debtsOf_nil : debtsOf [] = [] := rfl

@[simp] theorem debtsOf_one (debt : Bool) (pkt : Packet) : debtsOf [(debt, pkt)] = if debt then [pkt] else [] := by
  cases debt <;> rfl

@[simp] theorem debtsOf_append (a b : List (Bool × Packet)) : debtsOf (a ++ b) = debtsOf a ++ debtsOf b :=
  List.filterMap_append

/-- What happens away from the write half tells of none of this. -/
theorem none_of_away {obs : List Obs} (h : ∀ o ∈ obs, o.atWriteHalf = false) :
    paidOf obs = [] ∧ begunOf obs = [] ∧ wroteOf obs = [] ∧ flushedOf obs = [] ∧ .forgiven ∉ obs ∧
      ∀ j, .locked j ∉ obs := by
  have hnil : ∀ {β : Type} (f : Obs → Option β), (∀ o, o.atWriteHalf = false → f o = none) →
      obs.filterMap f = [] := fun f hf => List.filterMap_eq_nil_iff.mpr fun o ho => hf o (h o ho)
  refine ⟨hnil _ ?_, hnil _ ?_, hnil _ ?_, hnil _ ?_, ?_, ?_⟩
  case refine_5 => exact fun hm => by cases h _ hm
  case refine_6 => exact fun j hm => by cases h _ hm
  all_goals
    intro o ho
    cases o <;> first | rfl | cases ho

/-! ## Debts before the lock -/

/-- Whoever took the write half last has seen everything paid that was owed before that, or the device is gone. -/
def PaidBefore (tr : List Obs) : Prop :=
  ∀ pre i mid, tr = pre ++ .locked i :: mid → (∀ j, .locked j ∉ mid) → .forgiven ∈ tr ∨ owedOf pre <+: paidOf tr

/-- Every OPEN and every WRTE was begun like that. -/
def BegunPaid (tr : List Obs) : Prop :=
  ∀ pre pkt post, tr = pre ++ .begun false pkt :: post → pkt.command = .«open» ∨ pkt.command = .write → PaidBefore pre

/-- An element of an appended list is in one part or in the other. -/
theorem append_eq_append_cons {α : Type*} {tr obs pre post : List α} {x : α} (h : tr ++ obs = pre ++ x :: post) :
    (∃ post', tr = pre ++ x :: post' ∧ post = post' ++ obs) ∨ ∃ obs', obs = obs' ++ x :: post ∧ pre = tr ++ obs' := by
  rcases List.append_eq_append_iff.mp h with ⟨l, hpre, hobs⟩ | ⟨l, htr, hx⟩
  · exact Or.inr ⟨l, hobs, hpre⟩
  · cases l with
    | nil => exact Or.inr ⟨[], by simpa using hx.symm, by simpa using htr.symm⟩
    | cons y l =>
      obtain ⟨rfl, rfl⟩ := List.cons_eq_cons.mp hx
      exact Or.inl ⟨l, htr, rfl⟩

/-- It stays so until the write half changes hands. -/
theorem PaidBefore.append {tr obs : List Obs} (h : PaidBefore tr) (hobs : ∀ j, .locked j ∉ obs) :
    PaidBefore (tr ++ obs) := by
  intro pre i mid heq hmid
  rcases append_eq_append_cons heq with ⟨mid', htr, rfl⟩ | ⟨obs', rfl, -⟩
  · rcases h pre i mid' htr (fun j hj => hmid j (List.mem_append_left _ hj)) with hf | hp
    · exact Or.inl (List.mem_append_left _ hf)
    · rw [paidOf_append]
      exact Or.inr (hp.trans (List.prefix_append _ _))
  · exact absurd (by simp) (hobs i)

theorem BegunPaid.append {tr obs : List Obs} (h : BegunPaid tr)
    (hobs : ∀ obs' pkt post, obs = obs' ++ .begun false pkt :: post →
      pkt.command = .«open» ∨ pkt.command = .write → PaidBefore (tr ++ obs')) : BegunPaid (tr ++ obs) := by
  intro pre pkt post heq hpkt
  rcases append_eq_append_cons heq with ⟨post', htr, -⟩ | ⟨obs', hobs', rfl⟩
  · exact h pre pkt post' htr hpkt
  · exact hobs obs' pkt post hobs' hpkt

/-- Nothing of the kind is begun. -/
theorem BegunPaid.append_other {tr obs : List Obs} (h : BegunPaid tr) (hobs : begunOf obs = []) :
    BegunPaid (tr ++ obs) := by
  refine h.append ?_
  rintro obs' pkt post rfl
  simp [begunOf, Obs.begun?] at hobs

/-! ## The books

`packet` is how a debt is written, which depends on what was negotiated. -/

section Books

variable (mode : AckMode)

def paidPackets (tr : List Obs) : List Packet := (paidOf tr).map (Owed.packet mode)

/-- How far the packets written and flushed are ahead of the debts popped, and the packets begun ahead of those
written; `sh` is not read beyond the trace once the device is gone. -/
def Books (sh : Shared) (wrote flushed : List Packet) (midway : List (Bool × Packet)) : Prop :=
  sh.gone = false →
    debtsOf (wroteOf sh.trace) = paidPackets mode sh.trace ++ wrote ∧
    debtsOf (flushedOf sh.trace) = paidPackets mode sh.trace ++ flushed ∧
    begunOf sh.trace = wroteOf sh.trace ++ midway

/-- The books where the holder of the write half stands. -/
def Here (sh : Shared) : UsePc → Prop
  | .waiting | .looking | .ready => sh.desync = false → Books mode sh [] [] []
  | .paying d false => sh.desync = false ∧ sh.owed.head? = some d ∧ Books mode sh [] [] [(true, d.packet mode)]
  | .paying d true =>
    sh.desync = false ∧ sh.gone = false ∧ sh.owed.head? = some d ∧ Books mode sh [d.packet mode] [] []
  | .paid d =>
    sh.desync = false ∧ sh.gone = false ∧ sh.owed.head? = some d ∧ Books mode sh [d.packet mode] [d.packet mode] []
  | .forgiving => sh.gone = true
  | .sending pkt false => sh.desync = false ∧ Books mode sh [] [] [(false, pkt)]
  | .sending _ true => sh.desync = false ∧ sh.gone = false ∧ Books mode sh [] [] []

/-- Where nobody holds it the books are as before a look at the list. -/
def pcOf (use : Option Use) : UsePc := (use.map Use.pc).getD .looking

/-- What holds of the list and the trace wherever the holder stands. -/
structure Account (sh : Shared) : Prop where
  /-- The list is what joined it without what was popped, until it is cleared. -/
  list : .forgiven ∉ sh.trace → owedOf sh.trace = paidOf sh.trace ++ sh.owed
  forgiven : .forgiven ∈ sh.trace → sh.gone = true
  order : debtsOf (wroteOf sh.trace) <+: (owedOf sh.trace).map (Owed.packet mode)
  flushed : debtsOf (flushedOf sh.trace) <+: debtsOf (wroteOf sh.trace)
  paid : paidPackets mode sh.trace <+: debtsOf (flushedOf sh.trace)
  begun : BegunPaid sh.trace

/-- At most the last packet begun is not whole. -/
def Torn (sh : Shared) : Prop :=
  sh.gone = false → begunOf sh.trace = wroteOf sh.trace ∨ ∃ b, begunOf sh.trace = wroteOf sh.trace ++ [b]

structure DebtInv (v : Half) : Prop where
  account : Account mode v.2
  torn : v.2.desync = true → Torn v.2
  proper : ∀ u, v.1 = some u → u.job.Proper
  clear : ∀ u pkt, v.1 = some u → u.pc = .ready → u.job = .send pkt → PaidBefore v.2.trace
  here : Here mode v.2 (pcOf v.1)

variable {mode} {sh sh' : Shared}

/-! ### The account -/

theorem Account.of_eq (h : Account mode sh) (htr : sh'.trace = sh.trace) (howed : sh'.owed = sh.owed)
    (hgone : sh.gone = true → sh'.gone = true) : Account mode sh' where
  list := by rw [htr, howed]; exact h.list
  forgiven := by rw [htr]; exact fun hf => hgone (h.forgiven hf)
  order := by rw [htr]; exact h.order
  flushed := by rw [htr]; exact h.flushed
  paid := by rw [htr]; exact h.paid
  begun := by rw [htr]; exact h.begun

/-- Debts join the list, and whatever else is not of the books. -/
theorem Account.append (h : Account mode sh) {obs : List Obs} (htr : sh'.trace = sh.trace ++ obs)
    (howed : sh'.owed = sh.owed ++ owedOf obs) (hgone : sh'.gone = sh.gone)
    (hnone : paidOf obs = [] ∧ debtsOf (wroteOf obs) = [] ∧ debtsOf (flushedOf obs) = [] ∧ .forgiven ∉ obs)
    (hbegun : BegunPaid (sh.trace ++ obs)) : Account mode sh' := by
  obtain ⟨hpaid, hwrote, hflushed, hforgiven⟩ := hnone
  refine ⟨?_, ?_, ?_, ?_, ?_, htr ▸ hbegun⟩
  · intro hf
    rw [htr, List.mem_append, not_or] at hf
    rw [htr, howed, owedOf_append, paidOf_append, hpaid, h.list hf.1, List.append_nil, List.append_assoc]
  · intro hf
    rw [htr, List.mem_append] at hf
    rw [hgone]
    exact h.forgiven (hf.resolve_right hforgiven)
  · rw [htr, wroteOf_append, debtsOf_append, hwrote, List.append_nil, owedOf_append, List.map_append]
    exact h.order.trans (List.prefix_append _ _)
  · rw [htr, wroteOf_append, debtsOf_append, hwrote, flushedOf_append, debtsOf_append, hflushed, List.append_nil,
      List.append_nil]
    exact h.flushed
  · rw [htr, flushedOf_append, debtsOf_append, hflushed, paidPackets, paidOf_append, hpaid, List.append_nil,
      List.append_nil]
    exact h.paid

theorem Account.quiet (h : Account mode sh) (hq : Quiet sh sh') : Account mode sh' := by
  obtain ⟨obs, htr, howed, haway⟩ := hq.trace
  obtain ⟨hpaid, hbegun, hwrote, hflushed, hforgiven, -⟩ := none_of_away haway
  exact h.append htr howed hq.gone ⟨hpaid, by rw [hwrote]; rfl, by rw [hflushed]; rfl, hforgiven⟩
    (h.begun.append_other hbegun)

/-- The head of the list is written. -/
theorem Account.wrote {d : Owed} (i : ℕ) (h : Account mode sh) (hlive : sh.gone = false) (hhead : sh.owed.head? = some d)
    (hbooks : debtsOf (wroteOf sh.trace) = paidPackets mode sh.trace) :
    Account mode (sh.note (.wrote i true (d.packet mode))) := by
  have hforgiven : .forgiven ∉ sh.trace := fun hf => by
    rw [h.forgiven hf] at hlive
    cases hlive
  have hlist := h.list hforgiven
  obtain ⟨ds, hds⟩ := List.head?_eq_some_iff.mp hhead
  refine ⟨?_, ?_, ?_, ?_, ?_, h.begun.append_other (by simp)⟩
  · simpa using h.list
  · simpa using h.forgiven
  · simp [hbooks, paidPackets, hlist, hds]
  · simpa using h.flushed.trans (List.prefix_append _ _)
  · simpa [paidPackets] using h.paid

/-- It is flushed. -/
theorem Account.flush {d : Owed} (h : Account mode sh)
    (hwrote : debtsOf (wroteOf sh.trace) = paidPackets mode sh.trace ++ [d.packet mode])
    (hflushed : debtsOf (flushedOf sh.trace) = paidPackets mode sh.trace) :
    Account mode (sh.note (.flushed true (d.packet mode))) := by
  refine ⟨?_, ?_, ?_, ?_, ?_, h.begun.append_other (by simp)⟩
  · simpa using h.list
  · simpa using h.forgiven
  · simpa using h.order
  · simp [hwrote, hflushed]
  · simpa [paidPackets] using h.paid.trans (List.prefix_append _ _)

/-- It is popped. -/
theorem Account.pop {d : Owed} (h : Account mode sh) (hhead : sh.owed.head? = some d)
    (hflushed : debtsOf (flushedOf sh.trace) = paidPackets mode sh.trace ++ [d.packet mode]) :
    Account mode ({ sh with owed := sh.owed.tail }.note (.paid d)) := by
  obtain ⟨ds, hds⟩ := List.head?_eq_some_iff.mp hhead
  refine ⟨?_, ?_, ?_, ?_, ?_, h.begun.append_other (by simp)⟩
  · intro hf
    have hlist := h.list (by simpa using hf)
    simp [hlist, hds]
  · simpa using h.forgiven
  · simpa using h.order
  · simpa using h.flushed
  · simp [hflushed, paidPackets]

/-- The list is cleared. -/
theorem Account.forgive (h : Account mode sh) (hgone : sh.gone = true) :
    Account mode ({ sh with owed := [] }.note .forgiven) := by
  refine ⟨?_, fun _ => hgone, ?_, ?_, ?_, h.begun.append_other (by simp)⟩
  · simp
  · simpa using h.order
  · simpa using h.flushed
  · simpa [paidPackets] using h.paid

/-! ### The holder -/

/-- Nothing of the books is noted. -/
theorem Books.append {wrote flushed : List Packet} {midway : List (Bool × Packet)} {obs : List Obs}
    (h : Books mode sh wrote flushed midway) (htr : sh'.trace = sh.trace ++ obs)
    (hgone : sh'.gone = sh.gone)
    (hnone : paidOf obs = [] ∧ begunOf obs = [] ∧ wroteOf obs = [] ∧ flushedOf obs = []) :
    Books mode sh' wrote flushed midway := by
  intro hlive
  rw [hgone] at hlive
  simpa only [htr, paidPackets, paidOf_append, begunOf_append, wroteOf_append, flushedOf_append, hnone,
    List.append_nil] using h hlive

theorem Torn.append {obs : List Obs} (h : Torn sh) (htr : sh'.trace = sh.trace ++ obs) (hgone : sh'.gone = sh.gone)
    (hnone : begunOf obs = [] ∧ wroteOf obs = []) : Torn sh' := by
  intro hlive
  rw [hgone] at hlive
  simpa only [htr, begunOf_append, wroteOf_append, hnone, List.append_nil] using h hlive

theorem Books.torn {wrote flushed : List Packet} {midway : List (Bool × Packet)} (hmid : midway.length ≤ 1)
    (h : Books mode sh wrote flushed midway) : Torn sh := by
  intro hlive
  obtain ⟨-, -, hb⟩ := h hlive
  match midway, hmid, hb with
  | [], _, hb => exact Or.inl (by simpa using hb)
  | [b], _, hb => exact Or.inr ⟨b, hb⟩

/-- As long as the flag is not set, the books say how much is torn. -/
theorem Here.torn {pc : UsePc} (h : Here mode sh pc) (hstep : sh.desync = false) : Torn sh := by
  cases pc with
  | waiting => exact (h hstep).torn (by simp)
  | looking => exact (h hstep).torn (by simp)
  | ready => exact (h hstep).torn (by simp)
  | forgiving =>
    intro hlive
    rw [show sh.gone = true from h] at hlive
    cases hlive
  | paid d => exact h.2.2.2.torn (by simp)
  | paying d whole =>
    cases whole with
    | false => exact h.2.2.torn (by simp)
    | true => exact h.2.2.2.torn (by simp)
  | sending pkt whole =>
    cases whole with
    | false => exact h.2.torn (by simp)
    | true => exact h.2.2.torn (by simp)

theorem Here.quiet {pc : UsePc} (h : Here mode sh pc) (hq : Quiet sh sh') : Here mode sh' pc := by
  obtain ⟨obs, htr, howed, haway⟩ := hq.trace
  obtain ⟨hpaid, hbegun, hwrote, hflushed, -, -⟩ := none_of_away haway
  have hbooks : ∀ {w f m}, Books mode sh w f m → Books mode sh' w f m :=
    fun hb => hb.append htr hq.gone ⟨hpaid, hbegun, hwrote, hflushed⟩
  have hhead : ∀ {d}, sh.owed.head? = some d → sh'.owed.head? = some d := by
    intro d hd
    obtain ⟨ds, hds⟩ := List.head?_eq_some_iff.mp hd
    rw [howed, hds]
    rfl
  cases pc with
  | waiting | looking | ready => exact fun hd => hbooks (h (hq.desync ▸ hd))
  | forgiving => exact hq.gone.trans h
  | paid d => exact ⟨hq.desync.trans h.1, hq.gone.trans h.2.1, hhead h.2.2.1, hbooks h.2.2.2⟩
  | paying d whole =>
    cases whole with
    | false => exact ⟨hq.desync.trans h.1, hhead h.2.1, hbooks h.2.2⟩
    | true => exact ⟨hq.desync.trans h.1, hq.gone.trans h.2.1, hhead h.2.2.1, hbooks h.2.2.2⟩
  | sending pkt whole =>
    cases whole with
    | false => exact ⟨hq.desync.trans h.1, hbooks h.2⟩
    | true => exact ⟨hq.desync.trans h.1, hq.gone.trans h.2.1, hbooks h.2.2⟩

/-- **A quiet change keeps the invariant.** -/
theorem DebtInv.quiet {v : Half} (h : DebtInv mode v) (hq : Quiet v.2 sh') : DebtInv mode (v.1, sh') := by
  obtain ⟨obs, htr, howed, haway⟩ := hq.trace
  obtain ⟨-, hbegun, hwrote, -, -, hlocked⟩ := none_of_away haway
  refine ⟨h.account.quiet hq, fun hd => ?_, h.proper, fun u pkt hu hpc hjob => ?_, h.here.quiet hq⟩
  · exact (h.torn (hq.desync ▸ hd)).append htr hq.gone ⟨hbegun, hwrote⟩
  · have := (h.clear u pkt hu hpc hjob).append hlocked
    rwa [← htr] at this

end Books

/-! ## Moves -/

section Moves

variable {v v' : Half} {u u' : Use} {i : ℕ} {a : Act} {sh sh' : Shared} {r : Option Error}

theorem Shared.refuses_none {pkt : Packet} (h : sh.refuses pkt = none) : sh.desync = false := by
  unfold Shared.refuses at h
  split_ifs at h with hd
  exact Bool.not_eq_true _ ▸ hd

theorem DebtInv.at {mode : AckMode} {pc : UsePc} (h : DebtInv mode v) (hu : v.1 = some u) (hpc : u.pc = pc) :
    Here mode v.2 pc := by
  have := h.here
  rwa [pcOf, hu, Option.map_some, Option.getD_some, hpc] at this

/-- The invariant of a holder, put together. -/
theorem DebtInv.going {mode : AckMode} (haccount : Account mode sh') (hproper : u'.job.Proper)
    (htorn : sh'.desync = true → Torn sh')
    (hclear : ∀ pkt, u'.pc = .ready → u'.job = .send pkt → PaidBefore sh'.trace) (hhere : Here mode sh' u'.pc) :
    DebtInv mode (some u', sh') := by
  refine ⟨haccount, htorn, ?_, ?_, hhere⟩
  · rintro _ ⟨⟩
    exact hproper
  · rintro _ pkt ⟨⟩ hpc hjob
    exact hclear pkt hpc hjob

/-- Taking the write half. -/
theorem DebtInv.acquire {mode : AckMode} (h : DebtInv mode v) (i : ℕ) {job : Job} (hjob : job.Proper)
    (hfree : v.1 = none) :
    DebtInv mode (some ⟨job, Use.first job⟩, { v.2 with writeHalf := some i }.note (.locked i)) := by
  have hhere : v.2.desync = false → Books mode v.2 [] [] [] := by
    have := h.here
    rwa [pcOf, hfree] at this
  have hbooks : v.2.desync = false → Books mode ({ v.2 with writeHalf := some i }.note (.locked i)) [] [] [] :=
    fun hd => (hhere hd).append rfl rfl (by simp)
  refine .going ?_ hjob (fun hd => (h.torn hd).append rfl rfl (by simp)) ?_ ?_
  · exact h.account.append rfl (by simp) rfl (by simp) (h.account.begun.append_other (by simp))
  · intro pkt hpc hsend
    subst hsend
    cases hpc
  · cases job <;> exact hbooks

/-- The lock is returned to `send` only with the list empty, or cleared. -/
theorem PaidBefore.of_list {mode : AckMode} (h : Account mode sh) (howed : sh.owed = []) : PaidBefore sh.trace := by
  intro pre i mid htr _
  by_cases hf : .forgiven ∈ sh.trace
  · exact Or.inl hf
  · have hlist := h.list hf
    rw [howed, List.append_nil] at hlist
    rw [← hlist, htr, owedOf_append]
    exact Or.inr (List.prefix_append _ _)

/-- A take is settled under the lock, which is not of the books. -/
theorem DebtInv.settled {mode : AckMode} {ch : ChannelId} {want : ℕ} {ack : PendingAck} (h : DebtInv mode (some u, sh))
    (hpc : u.pc = .ready) (h1 : Use.settled sh ch want = some (ack, sh')) : DebtInv mode (some u, sh') := by
  obtain ⟨channels, rfl⟩ := Use.settled_inv h1
  have hhere : sh.desync = false → Books mode sh [] [] [] := h.at rfl hpc
  refine .going ?_ (h.proper u rfl) (fun hd => (h.torn hd).append rfl rfl (by simp)) ?_ ?_
  · exact h.account.append rfl (by simp) rfl (by simp) (h.account.begun.append_other (by simp))
  · exact fun pkt hpc hjob => (h.clear u pkt rfl hpc hjob).append (by simp)
  · rw [hpc]
    exact fun hd => (hhere hd).append rfl rfl (by simp)

/-- The call's own packet is begun. -/
theorem DebtInv.begin {mode : AckMode} {pkt : Packet} (h : DebtInv mode (some u, sh)) (hpc : u.pc = .ready)
    (hok : sh.refuses pkt = none) (hpaid : pkt.command = .«open» ∨ pkt.command = .write → PaidBefore sh.trace) :
    DebtInv mode (some ⟨u.job, .sending pkt false⟩, sh.note (.begun false pkt)) := by
  have hstep := Shared.refuses_none hok
  have hhere : sh.desync = false → Books mode sh [] [] [] := h.at rfl hpc
  refine .going ?_ (h.proper u rfl) (fun hd => nomatch hstep.symm.trans hd) nofun ⟨hstep, fun hlive => ?_⟩
  · refine h.account.append rfl (by simp) rfl (by simp) (h.account.begun.append ?_)
    rintro obs' pkt' post heq hcmd
    cases obs' with
    | nil =>
      cases heq
      simpa using hpaid hcmd
    | cons o obs' => simp at heq
  · obtain ⟨h1, h2, h3⟩ := hhere hstep hlive
    exact ⟨by simpa [paidPackets] using h1, by simpa [paidPackets] using h2, by simpa using h3⟩

variable [Usize] {ng : Negotiated}

/-- Going on past the wait. -/
theorem DebtInv.more (h : DebtInv ng.ackMode v) (hu : v.1 = some u) (hpc0 : u.pc ≠ .waiting)
    (hm : u.Moves ng i v.2 a (.more u') sh') : DebtInv ng.ackMode (some u', sh') := by
  have hproper := h.proper u hu
  cases hm with
  | acquire hpc _ => exact absurd hpc hpc0
  | noDebt hpc howed =>
    have hhere := h.at hu hpc
    exact .going h.account hproper h.torn (fun _ _ _ => .of_list h.account howed) hhere
  | debtBegun d ds hpc howed hok =>
    have hstep := Shared.refuses_none hok
    have hbooks := (h.at hu hpc) hstep
    refine .going ?_ hproper (fun hd => nomatch hstep.symm.trans hd) nofun ⟨hstep, by simp [howed], fun hlive => ?_⟩
    · exact h.account.append rfl (by simp) rfl (by simp) (h.account.begun.append (by simp [List.cons_eq_append_iff]))
    · obtain ⟨h1, h2, h3⟩ := hbooks hlive
      exact ⟨by simpa [paidPackets] using h1, by simpa [paidPackets] using h2, by simpa using h3⟩
  | debtWritten d hpc hlive =>
    obtain ⟨hstep, hhead, hbooks⟩ := h.at hu hpc
    obtain ⟨h1, h2, h3⟩ := hbooks hlive
    refine .going ?_ hproper (fun hd => nomatch hstep.symm.trans hd) nofun ⟨hstep, hlive, hhead, fun _ => ⟨?_, ?_, ?_⟩⟩
    · exact h.account.wrote i hlive hhead (by simpa using h1)
    · simpa [paidPackets] using h1
    · simpa [paidPackets] using h2
    · simpa using h3
  | debtFlushed d hpc =>
    obtain ⟨hstep, hlive, hhead, hbooks⟩ := h.at hu hpc
    obtain ⟨h1, h2, h3⟩ := hbooks hlive
    refine .going ?_ hproper (fun hd => nomatch hstep.symm.trans hd) nofun ⟨hstep, hlive, hhead, fun _ => ⟨?_, ?_, ?_⟩⟩
    · exact h.account.flush h1 (by simpa using h2)
    · simpa [paidPackets] using h1
    · simpa [paidPackets] using h2
    · simpa using h3
  | debtGone d whole e hpc hgone =>
    have hstep : v.2.desync = false := by
      have hhere := h.at hu hpc
      cases whole <;> exact hhere.1
    exact .going (h.account.of_eq rfl rfl fun _ => rfl) hproper (fun hd => nomatch hstep.symm.trans hd) nofun rfl
  | popped d hpc =>
    obtain ⟨hstep, hlive, hhead, hbooks⟩ := h.at hu hpc
    obtain ⟨h1, h2, h3⟩ := hbooks hlive
    refine .going ?_ hproper (fun hd => nomatch hstep.symm.trans hd) nofun (fun _ _ => ⟨?_, ?_, ?_⟩)
    · exact h.account.pop hhead h2
    · simpa [paidPackets] using h1
    · simpa [paidPackets] using h2
    · simpa using h3
  | forgiven hpc =>
    have hgone : v.2.gone = true := h.at hu hpc
    refine .going (h.account.forgive hgone) hproper (fun hd => (h.torn hd).append rfl rfl (by simp)) ?_ ?_
    · exact fun _ _ _ => .of_list (h.account.forgive hgone) rfl
    · exact fun _ hlive => nomatch hgone.symm.trans hlive
  | own _ _ hpc hown =>
    have hv : DebtInv ng.ackMode (some u, v.2) := hu ▸ h
    cases hown with
    | begun pkt hjob hok =>
      refine hv.begin hpc hok fun hcmd => ?_
      rcases hjob with hjob | hjob
      · exact hv.clear u pkt rfl hpc hjob
      · -- `answer` sends READY or CLSE
        rw [hjob] at hproper
        rcases hcmd with hcmd | hcmd <;> rcases hproper with hp | hp <;> cases hcmd.symm.trans hp
    | okay ch want ack sh1 hjob h1 hok =>
      refine (hv.settled hpc h1).begin hpc hok fun hcmd => ?_
      rcases hcmd with hcmd | hcmd <;> cases hcmd
  | written pkt hpc hlive =>
    obtain ⟨hstep, hbooks⟩ := h.at hu hpc
    obtain ⟨h1, h2, h3⟩ := hbooks hlive
    refine .going ?_ hproper (fun hd => nomatch hstep.symm.trans hd) nofun ⟨hstep, hlive, fun _ => ⟨?_, ?_, ?_⟩⟩
    · exact h.account.append rfl (by simp) rfl (by simp) (h.account.begun.append_other (by simp))
    · simpa [paidPackets] using h1
    · simpa [paidPackets] using h2
    · simpa using h3

omit [Usize] in
/-- Letting go of the write half in step. -/
theorem DebtInv.release {mode : AckMode} (haccount : Account mode sh) (htorn : sh.desync = true → Torn sh)
    (hhere : sh.desync = false → Books mode sh [] [] []) : DebtInv mode (none, sh.release) := by
  refine ⟨haccount.of_eq (by simp) (by simp) (by simp), fun hd => ?_, (fun _ hu => nomatch hu),
    (fun _ _ hu => nomatch hu), fun hd hlive => ?_⟩
  · rw [Shared.release_desync] at hd
    simpa [Torn] using htorn hd
  · simpa [paidPackets] using hhere (by simpa using hd) (by simpa using hlive)

omit [Usize] in
/-- Letting go of it out of step, in the middle of a packet. -/
theorem DebtInv.tear {mode : AckMode} {pc : UsePc} (haccount : Account mode sh) (hhere : Here mode sh pc)
    (hstep : sh.desync = false) : DebtInv mode (none, { sh with desync := true }.release) := by
  refine .release (haccount.of_eq rfl rfl id) (fun _ => ?_) nofun
  exact fun hlive => hhere.torn hstep hlive

omit [Usize] in
/-- A packet in the middle of its write is in step. -/
theorem Here.in_step {mode : AckMode} {pc : UsePc} (h : Here mode sh pc)
    (hpc : (∃ d whole, pc = .paying d whole) ∨ ∃ pkt whole, pc = .sending pkt whole) : sh.desync = false := by
  rcases hpc with ⟨d, whole, rfl⟩ | ⟨pkt, whole, rfl⟩ <;> cases whole <;> exact h.1

/-- Ending past the wait. -/
theorem DebtInv.ended (h : DebtInv ng.ackMode v) (hu : v.1 = some u) (hm : u.Moves ng i v.2 a (.ended r) sh') :
    DebtInv ng.ackMode (none, sh') := by
  cases hm with
  | debtRefused d ds e hpc howed he => exact .release h.account h.torn (h.at hu hpc)
  | debtFailed d whole e hpc hgone =>
    have hhere := h.at hu hpc
    exact .tear h.account hhere (hhere.in_step (Or.inl ⟨d, whole, rfl⟩))
  | own _ _ hpc hown =>
    have hv : DebtInv ng.ackMode (some u, v.2) := hu ▸ h
    cases hown with
    | release | refused => exact .release h.account h.torn (h.at hu hpc)
    | settled ch want ack sh1 hjob h1 =>
      have h1 := hv.settled hpc h1
      exact .release h1.account h1.torn (h1.at rfl hpc)
  | flushed pkt hpc =>
    obtain ⟨hstep, hlive, hbooks⟩ := h.at hu hpc
    obtain ⟨h1, h2, h3⟩ := hbooks hlive
    refine .release ?_ (fun hd => nomatch hstep.symm.trans hd) fun _ _ => ⟨?_, ?_, ?_⟩
    · exact h.account.append rfl (by simp) rfl (by simp) (h.account.begun.append_other (by simp))
    · simpa [paidPackets] using h1
    · simpa [paidPackets] using h2
    · simpa using h3
  | failed pkt whole e hpc =>
    have hhere := h.at hu hpc
    have hstep := hhere.in_step (Or.inr ⟨pkt, whole, rfl⟩)
    unfold Shared.writeFailed
    split_ifs with hgone
    · refine .release (h.account.of_eq rfl rfl fun _ => rfl) (fun hd => nomatch hstep.symm.trans hd) ?_
      exact fun _ hlive => nomatch hlive
    · exact .tear h.account hhere hstep

/-- **A move of the write half keeps the invariant.** -/
theorem DebtInv.move (h : DebtInv ng.ackMode v) (hm : HalfMove ng v v') : DebtInv ng.ackMode v' := by
  cases hm with
  | acquire i job hjob hfree => exact h.acquire i hjob hfree
  | more i u a u' sh' hu hpc hm => exact h.more hu hpc hm
  | ended i u a r sh' hu hm => exact h.ended hu hm
  | drop u sh' hu hpc hd =>
    unfold Use.drop at hd
    split at hd
    · rename_i hw
      exact absurd hw hpc
    · rename_i d whole hp
      cases hd
      have hhere := h.at hu hp
      exact .tear h.account hhere (hhere.in_step (Or.inl ⟨d, whole, rfl⟩))
    · rename_i pkt whole hp
      cases hd
      have hhere := h.at hu hp
      exact .tear h.account hhere (hhere.in_step (Or.inr ⟨pkt, whole, rfl⟩))
    · cases hd

omit [Usize] in
theorem DebtInv.start (mode : AckMode) (table : ChannelTable) (incoming : IncomingQueue) (desync : Bool) :
    DebtInv mode (State.start table incoming desync).half := by
  refine ⟨⟨fun _ => rfl, ?_, List.nil_prefix, List.nil_prefix, List.nil_prefix, ?_⟩, ?_, ?_, ?_, ?_⟩
  · intro hf
    cases hf
  · intro pre pkt post htr
    simp [State.half, State.start] at htr
  · exact fun _ _ => Or.inl rfl
  · intro u hu
    cases hu
  · intro u pkt hu
    cases hu
  · exact fun _ _ => ⟨rfl, rfl, rfl⟩

/-! ## Nothing more is written -/

/-- The flag and the device stay as they are once they are bad; packets are begun only in step, and reach the
transport only in step and with the device there. -/
theorem HalfMove.frames (h : DebtInv ng.ackMode v) (hm : HalfMove ng v v') :
    (v.2.desync = true → v'.2.desync = true) ∧ (v.2.gone = true → v'.2.gone = true) ∧
      (begunOf v'.2.trace = begunOf v.2.trace ∨ v.2.desync = false) ∧
      (wroteOf v'.2.trace = wroteOf v.2.trace ∨ v.2.desync = false ∧ v.2.gone = false) := by
  cases hm with
  | acquire i job hjob hfree => simp
  | more i u a u' sh' hu hpc0 hm =>
    cases hm with
    | acquire hpc _ => exact absurd hpc hpc0
    | noDebt => simp
    | debtBegun d ds hpc howed hok => simp [Shared.refuses_none hok]
    | debtWritten d hpc hlive => simp [(h.at hu hpc).1, hlive]
    | debtFlushed => simp
    | debtGone => simp
    | popped => simp
    | forgiven => simp
    | written pkt hpc hlive => simp [(h.at hu hpc).1, hlive]
    | own _ _ hpc hown =>
      cases hown with
      | begun pkt hjob hok => simp [Shared.refuses_none hok]
      | okay ch want ack sh1 hjob h1 hok =>
        obtain ⟨channels, rfl⟩ := Use.settled_inv h1
        have hstep : v.2.desync = false := Shared.refuses_none hok
        simp [hstep, wroteOf]
  | ended i u a r sh' hu hm =>
    cases hm with
    | debtRefused => simp
    | debtFailed => simp
    | flushed => simp
    | failed pkt whole e hpc =>
      unfold Shared.writeFailed
      split_ifs <;> simp
    | own _ _ hpc hown =>
      cases hown with
      | release => simp
      | refused => simp
      | settled ch want ack sh1 hjob h1 =>
        obtain ⟨channels, rfl⟩ := Use.settled_inv h1
        simp
  | drop u sh' hu hpc hd =>
    unfold Use.drop at hd
    split at hd
    · rename_i hw
      exact absurd hw hpc
    · cases hd
      simp
    · cases hd
      simp
    · cases hd

theorem nothing_more {s s' : State} {es : List Event} (hx : Exclusive s) (h : DebtInv ng.ackMode s.half)
    (hrun : Runs.Run (State.step ng) Runs.Any s es s') :
    (s.sh.desync = true ∨ s.sh.gone = true → wroteOf s'.sh.trace = wroteOf s.sh.trace) ∧
      (s.sh.desync = true → begunOf s'.sh.trace = begunOf s.sh.trace) := by
  constructor
  · intro hbad
    refine (run_half (I := fun v => DebtInv ng.ackMode v ∧ (v.2.desync = true ∨ v.2.gone = true) ∧
      wroteOf v.2.trace = wroteOf s.sh.trace) ?_ ?_ hx hrun ⟨h, hbad, rfl⟩).2.2.2
    · rintro v v' ⟨hv, hb, hw⟩ hm
      obtain ⟨hd, hg, -, hkeep⟩ := hm.frames hv
      refine ⟨hv.move hm, hb.imp hd hg, ?_⟩
      rcases hkeep with hkeep | ⟨h1, h2⟩
      · exact hkeep.trans hw
      · rcases hb with hb | hb
        · cases h1.symm.trans hb
        · cases h2.symm.trans hb
    · rintro v sh' ⟨hv, hb, hw⟩ hq
      obtain ⟨obs, htr, -, haway⟩ := hq.trace
      refine ⟨hv.quiet hq, hb.imp hq.desync.trans hq.gone.trans, ?_⟩
      simp only [htr, wroteOf_append, (none_of_away haway).2.2.1, List.append_nil, hw]
  · intro hbad
    refine (run_half (I := fun v => DebtInv ng.ackMode v ∧ v.2.desync = true ∧
      begunOf v.2.trace = begunOf s.sh.trace) ?_ ?_ hx hrun ⟨h, hbad, rfl⟩).2.2.2
    · rintro v v' ⟨hv, hb, hw⟩ hm
      obtain ⟨hd, -, hkeep, -⟩ := hm.frames hv
      exact ⟨hv.move hm, hd hb, (hkeep.resolve_right fun h1 => nomatch h1.symm.trans hb).trans hw⟩
    · rintro v sh' ⟨hv, hb, hw⟩ hq
      obtain ⟨obs, htr, -, haway⟩ := hq.trace
      refine ⟨hv.quiet hq, hq.desync.trans hb, ?_⟩
      simp only [htr, begunOf_append, (none_of_away haway).2.1, List.append_nil, hw]

/-! ## How a debt leaves the list -/

/-- What one event does to the list: `new` joins it at the end; its head leaves it, flushed like everything popped
before it; or all of it goes, with the device gone. -/
def Leaves (mode : AckMode) (sh sh' : Shared) : Prop :=
  ∃ new, sh'.owed = sh.owed ++ new ∨
    (∃ d rest, sh.owed = d :: rest ∧ sh'.owed = rest ++ new ∧
      debtsOf (flushedOf sh.trace) = (paidOf sh.trace ++ [d]).map (Owed.packet mode)) ∨
    (sh.gone = true ∧ sh'.owed = new)

omit [Usize] in
theorem Leaves.of_eq {mode : AckMode} (h : sh'.owed = sh.owed) : Leaves mode sh sh' := ⟨[], Or.inl (by simp [h])⟩

omit [Usize] in
theorem Leaves.quiet {mode : AckMode} {sh'' : Shared} (h : Leaves mode sh sh') (hq : Quiet sh' sh'') :
    Leaves mode sh sh'' := by
  obtain ⟨obs, -, howed, -⟩ := hq.trace
  obtain ⟨new, h | ⟨d, rest, hd, h, hf⟩ | ⟨hg, h⟩⟩ := h
  · exact ⟨new ++ owedOf obs, Or.inl (by rw [howed, h, List.append_assoc])⟩
  · exact ⟨new ++ owedOf obs, Or.inr (Or.inl ⟨d, rest, hd, by rw [howed, h, List.append_assoc], hf⟩)⟩
  · exact ⟨new ++ owedOf obs, Or.inr (Or.inr ⟨hg, by rw [howed, h]⟩)⟩

theorem HalfMove.leaves (h : DebtInv ng.ackMode v) (hm : HalfMove ng v v') : Leaves ng.ackMode v.2 v'.2 := by
  cases hm with
  | acquire i job hjob hfree => exact .of_eq rfl
  | more i u a u' sh' hu hpc0 hm =>
    cases hm with
    | popped d hpc =>
      obtain ⟨-, hlive, hhead, hbooks⟩ := h.at hu hpc
      obtain ⟨rest, hrest⟩ := List.head?_eq_some_iff.mp hhead
      refine ⟨[], Or.inr (Or.inl ⟨d, rest, hrest, by simp [hrest], ?_⟩)⟩
      simpa [paidPackets] using (hbooks hlive).2.1
    | forgiven hpc => exact ⟨[], Or.inr (Or.inr ⟨h.at hu hpc, rfl⟩)⟩
    | own _ _ hpc hown =>
      cases hown with
      | begun => exact .of_eq rfl
      | okay ch want ack sh1 hjob h1 hok =>
        obtain ⟨channels, rfl⟩ := Use.settled_inv h1
        exact .of_eq rfl
    | _ => exact .of_eq rfl
  | ended i u a r sh' hu hm =>
    cases hm with
    | debtRefused => exact .of_eq (by simp)
    | debtFailed => exact .of_eq (by simp)
    | flushed => exact .of_eq (by simp)
    | failed pkt whole e hpc =>
      refine .of_eq ?_
      unfold Shared.writeFailed
      split_ifs <;> simp
    | own _ _ hpc hown =>
      cases hown with
      | release => exact .of_eq (by simp)
      | refused => exact .of_eq (by simp)
      | settled ch want ack sh1 hjob h1 =>
        obtain ⟨channels, rfl⟩ := Use.settled_inv h1
        exact .of_eq (by simp)
  | drop u sh' hu hpc hd =>
    refine .of_eq ?_
    unfold Use.drop at hd
    split at hd <;> cases hd <;> simp

/-! ## The result -/

/-- The packet on its way to the transport, not all of it accepted yet. -/
def State.writing (mode : AckMode) (s : State) : Option (Bool × Packet) :=
  s.holder.bind fun u => match u.pc with
    | .paying d false => some (true, d.packet mode)
    | .sending pkt false => some (false, pkt)
    | _ => none

variable (ng)

/-- How a split connection keeps its debts. -/
structure DebtsKept (s : State) : Prop where
  /-- On the transport the debts are in the order they were owed, each once. -/
  inOrder : debtsOf (wroteOf s.sh.trace) <+: (owedOf s.sh.trace).map (Owed.packet ng.ackMode)
  /-- In step every packet begun is whole, but the one that is being written. -/
  whole : s.sh.desync = false → s.sh.gone = false →
    begunOf s.sh.trace = wroteOf s.sh.trace ++ (s.writing ng.ackMode).toList
  /-- Out of step all but the last one are. -/
  torn : s.sh.desync = true → s.sh.gone = false →
    begunOf s.sh.trace = wroteOf s.sh.trace ∨ ∃ b, begunOf s.sh.trace = wroteOf s.sh.trace ++ [b]
  /-- Nothing more is written then, nor with the device gone. -/
  nothingMore : ∀ es s', Runs.Run (State.step ng) Runs.Any s es s' →
    (s.sh.desync = true ∨ s.sh.gone = true → wroteOf s'.sh.trace = wroteOf s.sh.trace) ∧
    (s.sh.desync = true → begunOf s'.sh.trace = begunOf s.sh.trace)
  /-- A debt leaves the list written and flushed, or with all of it. -/
  leaves : ∀ e s', s.step ng e = some s' → Leaves ng.ackMode s.sh s'.sh
  flushed : debtsOf (flushedOf s.sh.trace) <+: debtsOf (wroteOf s.sh.trace)
  /-- A call dropped while it waits for the write half changes nothing. -/
  dropped : ∀ i t u s', s.tasks[i]? = some t → t.use = some u → u.pc = .waiting →
    s.step ng (.drop i) = some s' ∨ s.step ng (.step i .cancel) = some s' → s'.sh = s.sh
  /-- An OPEN or a WRTE is begun with everything paid that was owed before the lock, or with the device gone. -/
  begun : BegunPaid s.sh.trace
  gone : .forgiven ∈ s.sh.trace → s.sh.gone = true

variable {ng}

omit [Usize] in
theorem Here.writing {mode : AckMode} {s : State} (h : Here mode s.sh (pcOf s.holder)) (hstep : s.sh.desync = false)
    (hlive : s.sh.gone = false) : begunOf s.sh.trace = wroteOf s.sh.trace ++ (s.writing mode).toList := by
  unfold State.writing
  cases hu : s.holder with
  | none =>
    rw [hu] at h
    exact (h hstep hlive).2.2
  | some u =>
    rw [hu] at h
    obtain ⟨job, pc⟩ := u
    cases pc with
    | waiting => exact (h hstep hlive).2.2
    | looking => exact (h hstep hlive).2.2
    | ready => exact (h hstep hlive).2.2
    | forgiving => cases hlive.symm.trans h
    | paid d => exact (h.2.2.2 hlive).2.2
    | paying d whole =>
      cases whole with
      | false => exact (h.2.2 hlive).2.2
      | true => exact (h.2.2.2 hlive).2.2
    | sending pkt whole =>
      cases whole with
      | false => exact (h.2 hlive).2.2
      | true => exact (h.2.2 hlive).2.2

/-- A call dropped at the wait. -/
theorem State.drop_waiting {s s' : State} {i : ℕ} {t : Task} (ht : s.tasks[i]? = some t) (hu : t.use = some u)
    (hpc : u.pc = .waiting) (h : s.step ng (.drop i) = some s' ∨ s.step ng (.step i .cancel) = some s') :
    s'.sh = s.sh := by
  have hdrop : u.drop s.sh = some s.sh := by simp only [Use.drop, hpc]
  rcases h with h | h
  · simp only [State.step, ht, Task.drop, hu, hdrop] at h
    split at h
    · rename_i hd
      cases h
      cases hd
      rfl
    · cases h
  · simp only [State.step, ht, Task.step, hu, hdrop] at h
    split at h
    · rename_i hd
      cases h
      cases hd
      rfl
    · cases h

/-- **Debts to the device are paid exactly once and in order**, whatever the tasks do and wherever they are dropped. -/
theorem debts_kept (table : ChannelTable) (incoming : IncomingQueue) (desync : Bool) (es : List Event) (s : State)
    (hrun : Runs.Run (State.step ng) Runs.Any (State.start table incoming desync) es s) : DebtsKept ng s := by
  obtain ⟨hx, h⟩ := run_half (fun _ _ h hm => h.move hm) (fun _ _ h hq => h.quiet hq)
    (Exclusive.start table incoming desync) hrun (DebtInv.start ng.ackMode table incoming desync)
  refine ⟨h.account.order, h.here.writing, h.torn, fun es s' hrun => nothing_more hx h hrun, ?_, h.account.flushed,
    fun i t u s' ht hu hpc hd => State.drop_waiting ht hu hpc hd, h.account.begun, h.account.forgiven⟩
  intro e s' hstep
  obtain ⟨v1, hv1, -, hq⟩ := ((State.step_moves hstep).half hx).2
  cases hv1 with
  | refl => exact (Leaves.of_eq rfl).quiet hq
  | single hm => exact (hm.leaves h).quiet hq

end Moves

/-- A call closes the channel and is dropped while it waits for the write half; another opens one, and pays before its
OPEN is begun. -/
def paidForAnother : List Event :=
  [.call (.close ⟨0, ⟨1⟩⟩), .step 1 .go, .step 1 .go, .step 1 .go, .step 1 .go, .drop 1,
    .call (.«open» [104]), .step 2 .go, .step 2 .go, .step 2 .acquire, .step 2 .go, .step 2 .accept, .step 2 .flush,
    .step 2 .go, .step 2 .go, .step 2 .go]

set_option maxRecDepth 20000 in
theorem debts_kept_for_another :
    ∃ s, Runs.exec (@State.step usize64 sampleNegotiated) (State.start sampleTable [] false) paidForAnother = some s ∧
      wroteOf s.sh.trace = [(true, Packet.close ⟨⟨1⟩, ⟨9⟩⟩)] ∧ s.sh.owed = [] ∧
      (begunOf s.sh.trace).map (fun b => (b.1, b.2.command)) = [(true, .close), (false, .«open»)] ∧
      @DebtsKept usize64 sampleNegotiated s := by
  have kept : ∀ s, Runs.exec (@State.step usize64 sampleNegotiated) (State.start sampleTable [] false)
      paidForAnother = some s → @DebtsKept usize64 sampleNegotiated s :=
    fun s h => @debts_kept usize64 sampleNegotiated sampleTable [] false _ s (Runs.Run.of_exec h)
  exact ⟨_, rfl, rfl, rfl, rfl, kept _ rfl⟩

end LibAdb.Split
