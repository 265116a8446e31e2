import LibAdb.Split.System

/-!
# LibAdb.Split.Quiet — what control steps leave alone

A step of a task's control state, as opposed to one of its use of the write half, never touches the write half, the
flag or the transport, and all it does to the list of debts is append to it.  `Quiet` is that relation; it holds of
every operation on the shared state that a control step is made of, and so of every control step.
-/

namespace LibAdb.Split

/-! ## Reading a trace -/

namespace Obs

@[simp] def owed? : Obs → Option Owed
  | .owed d => some d
  | _ => none

@[simp] def paid? : Obs → Option Owed
  | .paid d => some d
  | _ => none

/-- Whether only a task that holds the write half, or takes it, can have this happen. -/
def atWriteHalf : Obs → Bool
  | .locked _ | .begun _ _ | .wrote _ _ _ | .flushed _ _ | .paid _ | .forgiven | .settled _ => true
  | _ => false

end Obs

/-- The debts that joined the list, oldest first. -/
def owedOf (tr : List Obs) : List Owed := tr.filterMap Obs.owed?

/-- The debts that left it written and flushed. -/
def paidOf (tr : List Obs) : List Owed := tr.filterMap Obs.paid?

@[simp] theorem owedOf_append (a b : List Obs) : owedOf (a ++ b) = owedOf a ++ owedOf b := List.filterMap_append

@[simp] theorem paidOf_append (a b : List Obs) : paidOf (a ++ b) = paidOf a ++ paidOf b := List.filterMap_append

/-- A trace of one entry has at most one thing of a kind. -/
theorem filterMap_one {α β : Type*} (f : α → Option β) (a : α) : [a].filterMap f = (f a).toList := by
  cases h : f a <;> simp [h]

@[simp] theorem owedOf_one (o : Obs) : owedOf [o] = o.owed?.toList := filterMap_one _ _

@[simp] theorem paidOf_one (o : Obs) : paidOf [o] = o.paid?.toList := filterMap_one _ _

/-! ## The relation -/

structure Quiet (sh sh' : Shared) : Prop where
  writeHalf : sh'.writeHalf = sh.writeHalf
  desync : sh'.desync = sh.desync
  gone : sh'.gone = sh.gone
  trace : ∃ obs, sh'.trace = sh.trace ++ obs ∧ sh'.owed = sh.owed ++ owedOf obs ∧
    ∀ o ∈ obs, o.atWriteHalf = false

namespace Quiet

variable {sh sh' sh'' : Shared}

theorem refl (sh : Shared) : Quiet sh sh :=
  ⟨rfl, rfl, rfl, [], (List.append_nil _).symm, (List.append_nil _).symm, fun _ ho => absurd ho List.not_mem_nil⟩

theorem trans (h : Quiet sh sh') (h' : Quiet sh' sh'') : Quiet sh sh'' := by
  obtain ⟨a1, a2, a3, obs, at1, at2, at3⟩ := h
  obtain ⟨b1, b2, b3, obs', bt1, bt2, bt3⟩ := h'
  refine ⟨b1.trans a1, b2.trans a2, b3.trans a3, obs ++ obs', ?_, ?_, ?_⟩
  · rw [bt1, at1, List.append_assoc]
  · rw [bt2, at2, owedOf_append, List.append_assoc]
  · intro o ho
    exact (List.mem_append.mp ho).elim (at3 o) (bt3 o)

/-- An operation on the other fields. -/
theorem of_eq (h1 : sh'.writeHalf = sh.writeHalf) (h2 : sh'.desync = sh.desync) (h3 : sh'.gone = sh.gone)
    (h4 : sh'.trace = sh.trace) (h5 : sh'.owed = sh.owed) : Quiet sh sh' :=
  ⟨h1, h2, h3, [], h4.trans (List.append_nil _).symm, h5.trans (List.append_nil _).symm,
    fun _ ho => absurd ho List.not_mem_nil⟩

theorem note (sh : Shared) {o : Obs} (h : o.atWriteHalf = false) (howed : o.owed? = none) : Quiet sh (sh.note o) :=
  ⟨rfl, rfl, rfl, [o], rfl, by rw [owedOf_one, howed]; exact (List.append_nil _).symm, by simpa using h⟩

theorem channels (sh : Shared) (t : ChannelTable) : Quiet sh { sh with channels := t } := of_eq rfl rfl rfl rfl rfl

theorem wake (sh : Shared) (idx : ℕ) : Quiet sh (sh.wake idx) := of_eq rfl rfl rfl rfl rfl

theorem stop (sh : Shared) : Quiet sh sh.stop := of_eq rfl rfl rfl rfl rfl

theorem endStream (sh : Shared) : Quiet sh sh.endStream := of_eq rfl rfl rfl rfl rfl

theorem owe (sh : Shared) (d : Owed) : Quiet sh (sh.owe d) :=
  ⟨rfl, rfl, rfl, [.owed d], rfl, rfl, by simp [Obs.atWriteHalf]⟩

theorem holdIncoming (sh : Shared) (p : PendingOpen) : Quiet sh (sh.holdIncoming p).2 := of_eq rfl rfl rfl rfl rfl

theorem takeIncomingPast {cap : ℕ} {h : Holder} (ht : sh.takeIncomingPast cap = some (h, sh')) : Quiet sh sh' := by
  unfold Shared.takeIncomingPast at ht
  split_ifs at ht
  split at ht
  · cases ht
  · cases ht
    exact of_eq rfl rfl rfl rfl rfl

theorem handOut {h : Holder} (ht : sh.handOut = some (h, sh')) : Quiet sh sh' := by
  obtain ⟨⟨h1, sh1⟩, htake, ⟨⟩⟩ := Option.map_eq_some_iff.mp ht
  exact (takeIncomingPast htake).trans (note _ rfl rfl)

theorem queueIncoming {n : ℕ} {p : PendingOpen} (hq : sh.queueIncoming n p = some sh') : Quiet sh sh' := by
  unfold Shared.queueIncoming at hq
  split_ifs at hq
  cases hq
  exact of_eq rfl rfl rfl rfl rfl

theorem withdrawOpen (sh : Shared) (remote : RemoteId) : Quiet sh (sh.withdrawOpen remote) := by
  unfold Shared.withdrawOpen
  split <;> exact of_eq rfl rfl rfl rfl rfl

theorem failChannel (sh : Shared) (idx : ℕ) (ids : ChannelIds) (fault : ChannelFault) :
    Quiet sh (sh.failChannel idx ids fault) := by
  unfold Shared.failChannel
  split
  · exact of_eq rfl rfl rfl rfl rfl
  · exact refl sh

theorem dropSlot (sh : Shared) (ch : ChannelId) : Quiet sh (sh.dropSlot ch) := by
  unfold Shared.dropSlot
  split
  · exact refl sh
  · dsimp only
    split
    · exact (channels sh _).trans (owe _ _)
    · exact channels sh _

theorem dropCredit (sh : Shared) (ch : ChannelId) (n : ℕ) (committed : Bool) :
    Quiet sh (sh.dropCredit ch n committed) := by
  unfold Shared.dropCredit
  dsimp only
  split_ifs
  all_goals split <;> exact of_eq rfl rfl rfl rfl rfl

theorem leaveQueue (sh : Shared) (ch : ChannelId) (place : ℕ) : Quiet sh (sh.leaveQueue ch place) := by
  unfold Shared.leaveQueue
  split
  · dsimp only
    split_ifs <;> exact of_eq rfl rfl rfl rfl rfl
  · exact refl sh

end Quiet

/-! ## Control steps -/

/-- The packets each use of the write half is for. -/
def Job.Proper : Job → Prop
  | .send pkt => pkt.command = .«open» ∨ pkt.command = .write
  | .answer pkt => pkt.command = .ready ∨ pkt.command = .close
  | _ => True

/-- What every control step comes to: a quiet change, and perhaps a use of the write half, at its beginning. -/
structure Controls (sh : Shared) (use' : Option Use) (sh' : Shared) : Prop where
  quiet : Quiet sh sh'
  begins : ∀ u, use' = some u → ∃ job, u = .start job ∧ job.Proper

namespace Controls

variable {sh sh' : Shared} {use : Option Use}

theorem plain (h : Quiet sh sh') : Controls sh none sh' := ⟨h, fun _ hu => by cases hu⟩

theorem starting (h : Quiet sh sh') {job : Job} (hjob : job.Proper) : Controls sh (some (.start job)) sh' :=
  ⟨h, fun _ hu => ⟨job, (Option.some.inj hu).symm, hjob⟩⟩

end Controls

section Steps

variable [Usize] {ng : Negotiated} {a : Act} {sh sh' : Shared} {use : Option Use}

theorem WriteCall.tryReserve_quiet {c : WriteCall} {place n : ℕ}
    (h : c.tryReserve ng place sh = .ok (some (n, sh'))) : Quiet sh sh' := by
  unfold WriteCall.tryReserve at h
  split at h
  · cases h
  · split_ifs at h
    · cases h
    · split at h
      · cases h
      · cases h
        split_ifs <;> exact .of_eq rfl rfl rfl rfl rfl

theorem WriteCall.Moves.controls {c c' : WriteCall} (h : c.Moves ng sh c' use sh') : Controls sh use sh' := by
  cases h with
  | idle => exact .plain (.refl _)
  | joins => exact .plain (.channels _ _)
  | reserves place gen n sh' hpc hres => exact .plain (tryReserve_quiet hres)
  | leaves => exact .plain (.leaveQueue _ _ _)
  | unnamed => exact .plain (.refl _)
  | sends => exact .starting (.refl _) (Or.inr rfl)
  | commits => exact .plain (.dropCredit _ _ _ _)
  | refunds => exact .plain (.dropCredit _ _ _ _)

omit [Usize] in
theorem CloseCall.Moves.controls {c c' : CloseCall} (h : c.Moves sh c' use sh') : Controls sh use sh' := by
  cases h with
  | idle => exact .plain (.refl _)
  | frees => exact .plain (.channels _ _)
  | owes => exact .plain ((Quiet.wake _ _).trans (.owe _ _))
  | locks => exact .starting (.refl _) trivial

omit [Usize] in
theorem TakePc.Moves.controls {ch : ChannelId} {want : ℕ} {pc : TakePc} {next : TakeNext}
    (h : TakePc.Moves ch want sh pc next use sh') : Controls sh use sh' := by
  cases h with
  | takes => exact .plain ((Quiet.channels _ _).trans (.note _ rfl rfl))
  | acks => exact .starting (.refl _) trivial
  | _ => exact .plain (.refl _)

omit [Usize] in
theorem ReadCall.Moves.controls {c c' : ReadCall} (h : c.Moves sh c' use sh') : Controls sh use sh' := by
  cases h with
  | takes pc pc' use sh' hpc ht => exact ht.controls
  | fails pc e use sh1 hpc ht => exact .plain (ht.controls.quiet.trans (.note _ rfl rfl))
  | empty pc use sh' hpc ht => exact ht.controls
  | returns pc out use sh' hpc ht => exact ht.controls
  | noSlot => exact .plain (.note _ rfl rfl)
  | dead => exact .plain (.note _ rfl rfl)
  | _ => exact .plain (.refl _)

theorem takeSlot_controls {destination : Bytes} {ch : ChannelId} {u : Use}
    (h : takeSlot ng destination sh = .ok (ch, u, sh')) : Controls sh (some u) sh' := by
  unfold takeSlot at h
  split at h
  · cases h
  · cases h; exact .starting (.channels _ _) (Or.inl rfl)

theorem OpenCall.Moves.controls {c c' : OpenCall} (h : c.Moves ng sh c' use sh') : Controls sh use sh' := by
  cases h with
  | idle => exact .plain (.refl _)
  | takes ch u sh' hpc htake => exact takeSlot_controls htake
  | waits => exact .plain (.refl _)
  | opened => exact .plain (.note _ rfl rfl)
  | unguards => exact .plain (.dropSlot _ _)

theorem HolderCall.Moves.controls {c c' : HolderCall} (h : c.Moves ng sh c' use sh') : Controls sh use sh' := by
  cases h with
  | withdrawn => exact .plain (.refl _)
  | noSlot => exact .starting (.refl _) (Or.inr rfl)
  | reserves => exact .starting (.channels _ _) (Or.inl rfl)
  | rejects => exact .starting (.refl _) (Or.inr rfl)
  | frees => exact .plain (.channels _ _)
  | noneReserved => exact .plain (.refl _)
  | ends | returns => exact .plain (.of_eq rfl rfl rfl rfl rfl)

omit [Usize] in
theorem ListenCall.Moves.controls {c c' : ListenCall} (h : c.Moves sh c' use sh') : Controls sh use sh' := by
  cases h with
  | idle => exact .plain (.refl _)
  | takes hd sh' hpc hout => exact .plain (.handOut hout)

/-! ### The Reader -/

namespace ReaderTask

variable {c c' : ReaderTask}

/-- The moves that are written as a triple. -/
def Fine (sh : Shared) (m : ReaderTask × Option Use × Shared) : Prop := Controls sh m.2.1 m.2.2

omit [Usize] in
theorem Fine.after {sh1 : Shared} {m : ReaderTask × Option Use × Shared} (hq : Quiet sh sh1) (hf : Fine sh1 m) :
    Fine sh m := ⟨hq.trans hf.quiet, hf.begins⟩

omit [Usize] in
theorem leave_fine (c : ReaderTask) (e : Error) (sh : Shared) : Fine sh (c.leave e sh) := by
  refine .plain ?_
  unfold leave
  dsimp only
  split
  · exact .note _ rfl rfl
  · exact .refl _

omit [Usize] in
theorem actOn_quiet (c : ReaderTask) (outcome : DispatchOutcome) (sh : Shared) :
    Quiet sh (c.actOn outcome sh).2 := by
  unfold actOn
  cases outcome with
  | ackWrite => exact .wake _ _
  | creditGranted => exact .wake _ _
  | slotClosed => exact .wake _ _
  | dataBuffered => exact .wake _ _
  | incomingOpen => exact .refl _
  | cancelPendingOpen => exact .refl _
  | strayReady => exact .refl _
  | unmatched => exact .refl _
  | channelFault =>
    dsimp only
    split_ifs <;> exact .refl _

theorem dispatch_fine (c : ReaderTask) (pkt : Packet) (sh : Shared) : Fine sh (c.dispatch pkt sh) :=
  .plain (((Quiet.channels sh _).trans (.note _ rfl rfl)).trans (actOn_quiet c _ _))

omit [Usize] in
theorem openReady_fine (c : ReaderTask) (ch : ChannelId) (pkt : Packet) (sh : Shared) :
    Fine sh (c.openReady ch pkt sh) := by
  unfold openReady
  split
  · exact .plain ((Quiet.note _ rfl rfl).trans (.note _ rfl rfl))
  · split
    · exact .plain (((Quiet.channels sh _).trans (.note _ rfl rfl)).trans (.note _ rfl rfl))
    · exact .plain (.note _ rfl rfl)

theorem receive_fine (c : ReaderTask) (pkt : Packet) (sh : Shared) : Fine sh (c.receive pkt sh) := by
  unfold receive
  split
  · split_ifs
    · exact openReady_fine c _ _ _
    · exact .after (.note _ rfl rfl) (leave_fine c _ _)
    · exact dispatch_fine c _ _
  · exact dispatch_fine c _ _

omit [Usize] in
theorem Says.quiet (h : c.Says sh sh') : Quiet sh sh' := by
  rcases h with rfl | ⟨ch, want, e, -, rfl⟩
  · exact .refl _
  · exact .note _ rfl rfl

theorem Moves.controls (h : c.Moves ng sh c' use sh') : Controls sh use sh' := by
  cases h with
  | plain c' use sh' hl hl' huse hsaid => exact ⟨hsaid.quiet, fun u hu => ⟨.debts, huse u hu, trivial⟩⟩
  | ends e sh' hpc hsaid => exact .plain ((Quiet.endStream _).trans hsaid.quiet)
  | allocates destination ch u sh' hpc htake => exact takeSlot_controls htake
  | takes ch want pc pc' d use sh' hcall hpc hm => exact hm.controls
  | taken ch want pc d r sh1 hcall hpc hm =>
    obtain ⟨-, huse, hsaid⟩ := c.taken_said d r sh1
    exact ⟨hm.controls.quiet.trans hsaid.quiet, by simp [huse]⟩
  | drains h sh' hpc htake | refuses h sh' hpc htake => exact .plain (.takeIncomingPast htake)
  | handsOut h sh' hpc hcall htake => exact .plain (.handOut htake)
  | inner h h' pc' use sh' hpc hpc' hm => exact hm.controls
  | refused h r c' sh' hpc hdone hl' hsaid => exact .plain hsaid.quiet
  | receives => exact .plain (.refl _)
  | received pkt hpc => exact receive_fine c _ _
  | fails => exact .plain (.failChannel _ _ _ _)
  | owes => exact .plain (.owe _ _)
  | queues pending sh' hpc hq => exact .plain (.queueIncoming hq)
  | overflows => exact .plain (.refl _)
  | stages => exact .plain (.holdIncoming _ _)
  | withdraws => exact .plain (.withdrawOpen _ _)
  | looks => exact .plain (.refl _)
  | unguards => exact .plain (.dropSlot _ _)
  | stops => exact .plain (.stop _)

omit [Usize] in
theorem resume_quiet (c : ReaderTask) (r : Option Error) (sh : Shared) : Quiet sh (c.resume r sh).2 :=
  (c.resume_resumes r sh).2.quiet

end ReaderTask

/-- **Control steps are quiet.** -/
theorem Ctl.Moves.controls {ctl ctl' : Ctl} (h : Ctl.Moves ng sh ctl ctl' use sh') : Controls sh use sh' := by
  cases h with
  | write _ _ _ _ hm => exact hm.controls
  | close _ _ _ _ hm => exact hm.controls
  | read _ _ _ _ hm => exact hm.controls
  | «open» _ _ _ _ hm => exact hm.controls
  | holder _ _ _ _ hm => exact hm.controls
  | listen _ _ _ _ hm => exact hm.controls
  | reader _ _ _ _ hm => exact hm.controls

omit [Usize] in
theorem Ctl.resume_quiet (ctl : Ctl) (r : Option Error) (sh : Shared) : Quiet sh (ctl.resume r sh).2 := by
  cases ctl with
  | reader c => exact ReaderTask.resume_quiet c r sh
  | _ => exact .refl _

end Steps

end LibAdb.Split
