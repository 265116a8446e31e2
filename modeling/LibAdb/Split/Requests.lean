import LibAdb.Split.Quiet
import LibAdb.Lib.Tasks

/-!
# LibAdb.Split.Requests — requests in the queue and in hand

A request is queued or it is staged, in the hands of a task that has still to decide on it.  `DeskMove` says what a
step can do to the queue, the staged list and the flags: nothing, stage a request under a flag of its own, change the
queue, or unstage the task's own.  So each task that has a request in hand has its own flag, and that flag is on the
staged list (`Flags`).
-/

namespace LibAdb.Split

open Runs Tasks

/-- The requests nobody has decided on. -/
def Shared.undecided (sh : Shared) : ℕ := sh.staged.length + sh.incoming.length

/-! ## What leaves the requests alone -/

/-- Neither the queue nor the staged list nor a flag changes. -/
structure SameDesk (sh sh' : Shared) : Prop where
  staged : sh'.staged = sh.staged
  incoming : sh'.incoming = sh.incoming
  cancelled : sh'.cancelled = sh.cancelled

namespace SameDesk

variable {sh sh' sh'' : Shared}

theorem refl (sh : Shared) : SameDesk sh sh := ⟨rfl, rfl, rfl⟩

theorem trans (h : SameDesk sh sh') (h' : SameDesk sh' sh'') : SameDesk sh sh'' :=
  ⟨h'.staged.trans h.staged, h'.incoming.trans h.incoming, h'.cancelled.trans h.cancelled⟩

/-- `trans`, with what came before put last. -/
theorem before (h' : SameDesk sh' sh'') (h : SameDesk sh sh') : SameDesk sh sh'' := h.trans h'

theorem undecided (h : SameDesk sh sh') : sh'.undecided = sh.undecided := by
  rw [Shared.undecided, Shared.undecided, h.staged, h.incoming]

theorem release (sh : Shared) : SameDesk sh sh.release := by
  unfold Shared.release
  dsimp only
  split_ifs <;> exact ⟨rfl, rfl, rfl⟩

/-- The write half is given back after `sh1`. -/
theorem released (sh1 : Shared) (h : SameDesk sh sh1) : SameDesk sh sh1.release := h.trans (release sh1)

theorem failChannel (sh : Shared) (idx : ℕ) (ids : ChannelIds) (fault : ChannelFault) :
    SameDesk sh (sh.failChannel idx ids fault) := by
  unfold Shared.failChannel
  split <;> exact ⟨rfl, rfl, rfl⟩

theorem dropSlot (sh : Shared) (ch : ChannelId) : SameDesk sh (sh.dropSlot ch) := by
  unfold Shared.dropSlot
  split
  · exact refl sh
  · dsimp only
    split <;> exact ⟨rfl, rfl, rfl⟩

theorem dropCredit [Usize] (sh : Shared) (ch : ChannelId) (n : ℕ) (committed : Bool) :
    SameDesk sh (sh.dropCredit ch n committed) := by
  unfold Shared.dropCredit
  dsimp only
  split_ifs
  all_goals split <;> exact ⟨rfl, rfl, rfl⟩

theorem leaveQueue [Usize] (sh : Shared) (ch : ChannelId) (place : ℕ) : SameDesk sh (sh.leaveQueue ch place) := by
  unfold Shared.leaveQueue
  split
  · dsimp only
    split_ifs <;> exact ⟨rfl, rfl, rfl⟩
  · exact refl sh

end SameDesk

variable [Usize] {ng : Negotiated} {sh sh' : Shared} {use : Option Use}

theorem WriteCall.Moves.desk {c c' : WriteCall} (h : c.Moves ng sh c' use sh') : SameDesk sh sh' := by
  cases h with
  | reserves place gen n sh' hpc hres =>
    unfold WriteCall.tryReserve at hres
    split at hres
    · cases hres
    · split_ifs at hres
      · cases hres
      · split at hres
        · cases hres
        · cases hres
          split_ifs <;> exact ⟨rfl, rfl, rfl⟩
  | leaves => exact .leaveQueue _ _ _
  | commits => exact .dropCredit _ _ _ _
  | refunds => exact .dropCredit _ _ _ _
  | _ => exact ⟨rfl, rfl, rfl⟩

omit [Usize] in
theorem TakePc.Moves.desk {ch : ChannelId} {want : ℕ} {pc : TakePc} {next : TakeNext}
    (h : TakePc.Moves ch want sh pc next use sh') : SameDesk sh sh' := by
  cases h <;> exact ⟨rfl, rfl, rfl⟩

omit [Usize] in
theorem ReadCall.Moves.desk {c c' : ReadCall} (h : c.Moves sh c' use sh') : SameDesk sh sh' := by
  cases h with
  | takes pc pc' use sh' hpc ht => exact ht.desk
  | fails pc e use sh1 hpc ht => exact ht.desk.trans ⟨rfl, rfl, rfl⟩
  | empty pc use sh' hpc ht => exact ht.desk
  | returns pc out use sh' hpc ht => exact ht.desk
  | _ => exact ⟨rfl, rfl, rfl⟩

theorem takeSlot_desk {destination : Bytes} {ch : ChannelId} {u : Use}
    (h : takeSlot ng destination sh = .ok (ch, u, sh')) : SameDesk sh sh' := by
  unfold takeSlot at h
  split at h
  · cases h
  · cases h
    exact ⟨rfl, rfl, rfl⟩

theorem OpenCall.Moves.desk {c c' : OpenCall} (h : c.Moves ng sh c' use sh') : SameDesk sh sh' := by
  cases h with
  | takes ch u sh' hpc htake => exact takeSlot_desk htake
  | unguards => exact .dropSlot _ _
  | _ => exact ⟨rfl, rfl, rfl⟩

theorem Use.Moves.desk {i : ℕ} {u : Use} {a : Act} {next : UseNext} (h : u.Moves ng i sh a next sh') :
    SameDesk sh sh' := by
  cases h with
  | debtRefused => exact .release _
  | debtFailed => exact .released _ ⟨rfl, rfl, rfl⟩
  | own next sh' hpc hown =>
    cases hown with
    | release => exact .release _
    | refused => exact .release _
    | settled ch want ack sh1 hjob h1 =>
      obtain ⟨channels, rfl⟩ := Use.settled_inv h1
      exact .released _ ⟨rfl, rfl, rfl⟩
    | begun => exact ⟨rfl, rfl, rfl⟩
    | okay ch want ack sh1 hjob h1 =>
      obtain ⟨channels, rfl⟩ := Use.settled_inv h1
      exact ⟨rfl, rfl, rfl⟩
  | flushed => exact .released _ ⟨rfl, rfl, rfl⟩
  | failed pkt whole e =>
    have hfailed : SameDesk sh (sh.writeFailed e) := by
      unfold Shared.writeFailed
      split_ifs <;> exact ⟨rfl, rfl, rfl⟩
    exact .released _ hfailed
  | _ => exact ⟨rfl, rfl, rfl⟩

omit [Usize] in
theorem Use.drop_desk {u : Use} (h : u.drop sh = some sh') : SameDesk sh sh' := by
  unfold Use.drop at h
  split at h
  · cases h
    exact .refl _
  all_goals cases h
  all_goals exact .released _ ⟨rfl, rfl, rfl⟩

/-! ## The flags of the requests in hand -/

/-- The flag of a request that is still in hand. -/
def HolderCall.live (c : HolderCall) : Option ℕ :=
  match c.pc with
  | .done _ => none
  | _ => some c.holder.flag

def ReaderTask.flag (c : ReaderTask) : Option ℕ :=
  match c.pc with
  | .handOver h => some h.flag
  | .draining h | .refusing h | .rejecting h => h.live
  | _ => none

def ListenCall.flag (c : ListenCall) : Option ℕ :=
  match c.pc with
  | .handOver h => some h.flag
  | _ => none

def Ctl.flag : Ctl → Option ℕ
  | .holder c => c.live
  | .listen c => c.flag
  | .reader c => c.flag
  | _ => none

/-- What a step of a task does to the requests; `old` and `new` are the flags of the task's own. -/
inductive DeskMove (sh sh' : Shared) : Option ℕ → Option ℕ → Prop
  | same (f : Option ℕ) (h : SameDesk sh sh') : DeskMove sh sh' f f
  | holds (p : PendingOpen) (hcancelled : sh'.cancelled = sh.cancelled ++ [false])
      (hstaged : sh'.staged = sh.staged ++ [(p.remote, sh.cancelled.length)]) :
      DeskMove sh sh' none (some sh.cancelled.length)
  | queue (hcancelled : sh'.cancelled.length = sh.cancelled.length) (hstaged : sh'.staged = sh.staged) :
      DeskMove sh sh' none none
  | ends (f : ℕ) (hcancelled : sh'.cancelled = sh.cancelled)
      (hstaged : sh'.staged = sh.staged.filter fun entry => entry.2 ≠ f) : DeskMove sh sh' (some f) none

omit [Usize] in
/-- What a request taken from the queue is. -/
theorem Shared.takeIncomingPast_inv {cap : ℕ} {h : Holder} (ht : sh.takeIncomingPast cap = some (h, sh')) :
    ∃ p, sh.incoming = p :: sh'.incoming ∧ sh'.staged = sh.staged ++ [(p.remote, sh.cancelled.length)] ∧
      sh'.cancelled = sh.cancelled ++ [false] ∧ h = ⟨some p, none, sh.cancelled.length⟩ ∧ cap < sh.undecided := by
  unfold Shared.takeIncomingPast at ht
  split_ifs at ht with hcap
  split at ht
  · cases ht
  · rename_i p rest hq
    cases ht
    exact ⟨p, hq, rfl, rfl, rfl, Nat.lt_of_not_le hcap⟩

omit [Usize] in
theorem Shared.handOut_inv {h : Holder} (ht : sh.handOut = some (h, sh')) :
    ∃ p, sh.incoming = p :: sh'.incoming ∧ sh'.staged = sh.staged ++ [(p.remote, sh.cancelled.length)] ∧
      sh'.cancelled = sh.cancelled ++ [false] ∧ h = ⟨some p, none, sh.cancelled.length⟩ := by
  obtain ⟨⟨h1, sh1⟩, htake, ⟨⟩⟩ := Option.map_eq_some_iff.mp ht
  obtain ⟨p, hq, hstaged, hcancelled, hh, -⟩ := Shared.takeIncomingPast_inv htake
  exact ⟨p, hq, hstaged, hcancelled, hh⟩

omit [Usize] in
/-- Nothing is taken when no more than the cap is undecided, or nothing is queued. -/
theorem Shared.takeIncomingPast_none {cap : ℕ} (ht : sh.takeIncomingPast cap = none) :
    sh.undecided ≤ cap ∨ sh.incoming = [] := by
  unfold Shared.takeIncomingPast at ht
  split_ifs at ht with hcap
  · exact Or.inl hcap
  · split at ht
    · exact Or.inr (by assumption)
    · cases ht

omit [Usize] in
theorem Shared.length_cancelStaged (sh : Shared) (remote : RemoteId) :
    (sh.cancelStaged remote).length = sh.cancelled.length := by
  have hfold : ∀ (f : List Bool → RemoteId × ℕ → List Bool),
      (∀ flags entry, (f flags entry).length = flags.length) →
      ∀ (l : List (RemoteId × ℕ)) (flags : List Bool), (l.foldl f flags).length = flags.length := by
    intro f hf l
    induction l with
    | nil => exact fun _ => rfl
    | cons entry l ih =>
      intro flags
      rw [List.foldl_cons, ih, hf]
  refine hfold _ (fun flags entry => ?_) _ _
  dsimp only
  split_ifs
  · exact List.length_set
  · rfl

theorem HolderCall.Moves.desk {c c' : HolderCall} (h : c.Moves ng sh c' use sh') :
    DeskMove sh sh' c.live c'.live := by
  cases h with
  | withdrawn pending r hpc =>
    have hlive : c.live = some c.holder.flag := by
      rcases hpc with hpc | hpc <;> rw [HolderCall.live, hpc]
    rw [hlive]
    exact .same _ (.refl _)
  | noSlot pending hpc | rejects pending hpc =>
    rw [HolderCall.live, hpc]
    exact .same _ (.refl _)
  | reserves pending ch channels hpc | frees r ch hpc =>
    rw [HolderCall.live, hpc]
    exact .same _ ⟨rfl, rfl, rfl⟩
  | noneReserved r hpc =>
    rw [HolderCall.live, hpc]
    exact .same _ (.refl _)
  | ends r hpc | returns r pending hpc =>
    rw [HolderCall.live, hpc]
    exact .ends _ rfl rfl

section

omit [Usize]

theorem HolderCall.resume_live (c : HolderCall) (r : Option Error) : (c.resume r).live = c.live := by
  obtain ⟨holder, pc⟩ := c
  unfold HolderCall.resume
  cases r with
  | none => cases pc <;> rfl
  | some e =>
    dsimp only
    split_ifs <;> cases pc <;> rfl

theorem HolderCall.resume_done (c : HolderCall) (r : Option Error) (e : HolderEnd) (h : (c.resume r).pc = .done e) :
    c.pc = .done e := by
  obtain ⟨holder, pc⟩ := c
  unfold HolderCall.resume at h
  cases r with
  | none => cases pc <;> first | exact h | cases h
  | some err =>
    dsimp only at h
    split_ifs at h <;> cases pc <;> first | exact h | cases h

theorem HolderCall.drop_done {c c' : HolderCall} {r : HolderEnd} (h : c.drop = some c') : c'.pc ≠ .done r := by
  unfold HolderCall.drop at h
  split at h
  case h_5 => cases h
  all_goals
    cases h
    exact nofun

theorem HolderCall.drop_live {c c' : HolderCall} (h : c.drop = some c') : c'.live = c.live := by
  unfold HolderCall.drop at h
  split at h
  case h_5 => cases h
  all_goals
    rename_i hpc
    cases h
    rw [HolderCall.live, HolderCall.live, hpc]
    rfl

theorem ListenCall.Moves.desk {c c' : ListenCall} (h : c.Moves sh c' use sh') : DeskMove sh sh' c.flag c'.flag := by
  have hnone : ∀ d : ListenCall, (∀ h, d.pc ≠ .handOver h) → d.flag = none := by
    intro d hd
    unfold ListenCall.flag
    split
    · rename_i h hpc
      exact absurd hpc (hd h)
    · rfl
  cases h with
  | idle c' hpc hpc' =>
    rw [hnone c hpc, hnone c' hpc']
    exact .same _ (.refl _)
  | takes hd sh' hpc hout =>
    obtain ⟨p, -, hstaged, hcancelled, hh⟩ := Shared.handOut_inv hout
    rw [hnone c (by simp [hpc]), hh]
    exact .holds p hcancelled hstaged

end

namespace ReaderTask

variable {c c' : ReaderTask}

section

omit [Usize]

theorem flag_light (h : c.pc.light = true) : c.flag = none := by
  unfold flag
  split <;> rename_i hpc <;> first | rfl | (rw [hpc] at h; cases h)

theorem flag_refusing {h : HolderCall} (hpc : Refusing h c.pc) : c.flag = h.live := by
  unfold flag
  cases hpc' : c.pc <;> rw [hpc'] at hpc <;> cases hpc <;> rfl

theorem Says.desk (h : c.Says sh sh') : SameDesk sh sh' := by
  rcases h with rfl | ⟨ch, want, e, -, rfl⟩ <;> exact ⟨rfl, rfl, rfl⟩

/-- Where a packet leads, its request aside. -/
structure Takes (c : ReaderTask) (sh : Shared) (m : ReaderTask × Option Use × Shared) : Prop where
  flag : m.1.flag = none
  refusing : ∀ h, ¬ Refusing h m.1.pc
  call : m.1.call = c.call
  desk : SameDesk sh m.2.2

theorem Refusing.not_light {h : HolderCall} {pc : ReaderPc} (hpc : Refusing h pc) : pc.light = false := by
  cases hpc <;> rfl

theorem not_refusing (hl : c.pc.light = true) (h : HolderCall) : ¬ Refusing h c.pc :=
  fun hpc => nomatch hpc.not_light.symm.trans hl

theorem Takes.light {m : ReaderTask × Option Use × Shared} (hl : c.Light m.1) (hd : SameDesk sh m.2.2) :
    Takes c sh m where
  flag := flag_light hl.light
  refusing := not_refusing hl.light
  call := hl.call
  desk := hd

theorem actOn_takes (c : ReaderTask) (outcome : DispatchOutcome) (sh : Shared) :
    (c.actOn outcome sh).1.flag = none ∧ (∀ h, ¬ Refusing h (c.actOn outcome sh).1.pc) ∧
      (c.actOn outcome sh).1.call = c.call ∧ SameDesk sh (c.actOn outcome sh).2 := by
  unfold actOn
  cases outcome with
  | channelFault =>
    dsimp only
    split_ifs <;> exact ⟨rfl, fun _ hpc => (by cases hpc), rfl, rfl, rfl, rfl⟩
  | _ => exact ⟨rfl, fun _ hpc => (by cases hpc), rfl, rfl, rfl, rfl⟩

end

theorem dispatch_takes (c : ReaderTask) (pkt : Packet) (sh : Shared) : Takes c sh (c.dispatch pkt sh) := by
  obtain ⟨h1, h2, h3, h4⟩ := c.actOn_takes (sh.channels.dispatch pkt).1
    ({ sh with channels := (sh.channels.dispatch pkt).2 }.note (.received pkt (sh.channels.dispatch pkt).1))
  exact ⟨h1, h2, h3, h4.before ⟨rfl, rfl, rfl⟩⟩

omit [Usize] in
theorem leave_desk (c : ReaderTask) (e : Error) (sh : Shared) : SameDesk sh (c.leave e sh).2.2 := (Says.leave c e sh).desk

theorem receive_takes (c : ReaderTask) (pkt : Packet) (sh : Shared) : Takes c sh (c.receive pkt sh) := by
  unfold receive
  split
  · split_ifs
    · unfold openReady
      have hfinish := Light.finish ({ c with guard := none } : ReaderTask)
      split
      · exact ⟨flag_light hfinish.light, not_refusing hfinish.light, hfinish.call,
          rfl, rfl, rfl⟩
      · split
        · exact ⟨flag_light hfinish.light, not_refusing hfinish.light, hfinish.call,
            rfl, rfl, rfl⟩
        · exact ⟨rfl, fun _ hpc => (by cases hpc), rfl, rfl, rfl, rfl⟩
    · exact .light (.unwind c) ((leave_desk c _ _).before ⟨rfl, rfl, rfl⟩)
    · exact dispatch_takes c _ _
  · exact dispatch_takes c _ _

theorem Moves.desk (h : c.Moves ng sh c' use sh') : DeskMove sh sh' c.flag c'.flag := by
  cases h with
  | plain c' use sh' hl hl' huse hsaid =>
    rw [flag_light hl, flag_light hl'.light]
    exact .same _ hsaid.desk
  | ends e sh' hpc hsaid =>
    rw [flag_light (by rw [hpc]; rfl), flag_light (Light.unwind c).light]
    exact .same _ (hsaid.desk.before ⟨rfl, rfl, rfl⟩)
  | allocates destination ch u sh' hpc htake =>
    rw [flag_light (by rw [hpc]; rfl)]
    exact .same _ (takeSlot_desk htake)
  | takes ch want pc pc' d use sh' hcall hpc hm =>
    rw [flag, hpc]
    exact .same _ hm.desk
  | taken ch want pc d r sh1 hcall hpc hm =>
    obtain ⟨hl, -, hsaid⟩ := c.taken_said d r sh1
    rw [flag_light hl.light, flag, hpc]
    exact .same _ (hm.desk.trans hsaid.desk)
  | drains h sh' hpc htake | refuses h sh' hpc htake =>
    obtain ⟨p, -, hstaged, hcancelled, rfl, -⟩ := Shared.takeIncomingPast_inv htake
    rw [flag_light (by rw [hpc]; rfl)]
    exact .holds p hcancelled hstaged
  | handsOut h sh' hpc hcall htake =>
    obtain ⟨p, -, hstaged, hcancelled, rfl⟩ := Shared.handOut_inv htake
    rw [flag_light (by rw [hpc]; rfl)]
    exact .holds p hcancelled hstaged
  | inner h h' pc' use sh' hpc hpc' hm =>
    rw [flag_refusing hpc, flag_refusing (c := c.goto pc') hpc']
    exact hm.desk
  | refused h r c' sh' hpc hdone hl' hsaid =>
    rw [flag_refusing hpc, flag_light hl'.light, HolderCall.live, hdone]
    exact .same _ hsaid.desk
  | receives pkt hpc =>
    rw [flag_light (by rw [hpc]; rfl)]
    exact .same _ (.refl _)
  | received pkt hpc =>
    rw [(c.receive_takes pkt sh).flag, flag, hpc]
    exact .same _ (c.receive_takes pkt sh).desk
  | fails idx ids fault after hpc =>
    rw [flag, hpc]
    exact .same _ (.failChannel _ _ _ _)
  | owes d after hpc =>
    rw [flag, hpc]
    exact .same _ ⟨rfl, rfl, rfl⟩
  | queues pending sh' hpc hq =>
    unfold Shared.queueIncoming at hq
    split_ifs at hq
    cases hq
    rw [flag, hpc]
    exact .queue rfl rfl
  | overflows pending hpc =>
    rw [flag, hpc]
    exact .same _ (.refl _)
  | stages pending hpc =>
    rw [flag, hpc]
    exact .holds pending rfl rfl
  | withdraws remote hpc =>
    rw [flag, hpc]
    unfold Shared.withdrawOpen
    split
    · exact .same _ ⟨rfl, rfl, rfl⟩
    · exact .queue (Shared.length_cancelStaged sh remote) rfl
  | looks d ch want hpc =>
    rw [flag_light hpc]
    exact .same _ (.refl _)
  | unguards ch hpc =>
    rw [flag_light (by rw [hpc]; rfl), flag_light (Light.finish _).light]
    exact .same _ (.dropSlot _ _)
  | stops hpc =>
    rw [flag_light (by rw [hpc]; rfl)]
    exact .same _ ⟨rfl, rfl, rfl⟩

omit [Usize]

theorem Resumes.flag {r : Option Error} (h : c.Resumes r c') : c'.flag = c.flag := by
  cases h with
  | light c' hl hl' => rw [flag_light hl, flag_light hl'.light]
  | prePaid ch want hpc => rw [flag_light (c := c) (by rw [hpc]; rfl)]; rfl
  | acked d hpc => rw [ReaderTask.flag, ReaderTask.flag, hpc]; rfl
  | inner h pc' hpc hpc' => rw [flag_refusing hpc, flag_refusing (c := c.goto pc') hpc', HolderCall.resume_live]
  | same => rfl

/-- Where a dropped call goes. -/
inductive Drops (c : ReaderTask) : ReaderTask → Prop
  | unwinds (hno : ∀ h, ¬ Refusing h c.pc) (hflag : c.flag = none) : Drops c c.unwind
  | inner (h h' : HolderCall) (pc' : ReaderPc) (hpc : Refusing h c.pc) (hpc' : Refusing h' pc')
      (hpast : pc'.past = c.pc.past) (hd : h.drop = some h') : Drops c (c.goto pc')

theorem drop_drops (h : c.drop = some c') : c.Drops c' := by
  unfold drop at h
  split at h
  case h_7 hd hpc =>
    obtain ⟨h1, hh, rfl⟩ := Option.map_eq_some_iff.mp h
    exact .inner hd h1 _ (by rw [hpc]; exact .draining) .draining (by rw [hpc]; rfl) hh
  case h_8 hd hpc =>
    obtain ⟨h1, hh, rfl⟩ := Option.map_eq_some_iff.mp h
    exact .inner hd h1 _ (by rw [hpc]; exact .refusing) .refusing (by rw [hpc]; rfl) hh
  case h_9 hd hpc =>
    obtain ⟨h1, hh, rfl⟩ := Option.map_eq_some_iff.mp h
    exact .inner hd h1 _ (by rw [hpc]; exact .rejecting) .rejecting (by rw [hpc]; rfl) hh
  case h_10 => cases h
  all_goals
    rename_i hpc
    cases h
    exact .unwinds (by rw [hpc]; exact fun h hr => nomatch hr) (by rw [flag, hpc])

theorem Drops.flag (h : c.Drops c') : c'.flag = c.flag := by
  cases h with
  | unwinds hno hflag => rw [flag_light (Light.unwind c).light, hflag]
  | inner h h' pc' hpc hpc' hpast hd =>
    rw [flag_refusing hpc, flag_refusing (c := c.goto pc') hpc', HolderCall.drop_live hd]

theorem cancel_inv (h : c.cancel sh = some c') : ∃ d, c.pc = .take .acking d ∧ c' = c.goto (.take .look d) := by
  unfold cancel at h
  split at h
  · rename_i d hpc
    split_ifs at h
    cases h
    exact ⟨d, hpc, rfl⟩
  · cases h

theorem begin_inv {call : ReaderCall} (h : c.begin call = some c') :
    c.pc = .idle ∧ c'.call = call ∧ c'.pc.light = true ∧ c'.pc.past = false := by
  unfold ReaderTask.begin at h
  split_ifs at h with hidle
  cases h
  refine ⟨hidle, rfl, ?_, ?_⟩ <;> dsimp only <;> split <;> rfl

end ReaderTask

theorem Ctl.Moves.desk {ctl ctl' : Ctl} (h : Ctl.Moves ng sh ctl ctl' use sh') :
    DeskMove sh sh' ctl.flag ctl'.flag := by
  cases h with
  | write _ _ _ _ hm => exact .same _ hm.desk
  | close _ _ _ _ hm => exact .same _ (by cases hm <;> exact ⟨rfl, rfl, rfl⟩)
  | read _ _ _ _ hm => exact .same _ hm.desk
  | «open» _ _ _ _ hm => exact .same _ hm.desk
  | holder _ _ _ _ hm => exact hm.desk
  | listen _ _ _ _ hm => exact hm.desk
  | reader _ _ _ _ hm => exact hm.desk

omit [Usize] in
theorem Ctl.resume_desk (ctl : Ctl) (r : Option Error) (sh : Shared) :
    (ctl.resume r sh).1.flag = ctl.flag ∧ SameDesk sh (ctl.resume r sh).2 := by
  cases ctl with
  | reader c => exact ⟨(c.resume_resumes r sh).1.flag, (c.resume_resumes r sh).2.desk⟩
  | holder c => exact ⟨c.resume_live r, .refl _⟩
  | _ => exact ⟨rfl, .refl _⟩

omit [Usize] in
theorem Ctl.drop_flag {ctl ctl' : Ctl} (h : ctl.drop = some ctl') : ctl'.flag = ctl.flag := by
  cases ctl with
  | holder c =>
    obtain ⟨c', hc, rfl⟩ := Option.map_eq_some_iff.mp h
    exact HolderCall.drop_live hc
  | reader c =>
    obtain ⟨c', hc, rfl⟩ := Option.map_eq_some_iff.mp h
    exact (ReaderTask.drop_drops hc).flag
  | listen c =>
    obtain ⟨c', hc, rfl⟩ := Option.map_eq_some_iff.mp h
    unfold ListenCall.drop at hc
    split at hc
    · rename_i gen hpc
      cases hc
      show none = c.flag
      rw [ListenCall.flag, hpc]
    · cases hc
  | _ =>
    obtain ⟨c', hc, rfl⟩ := Option.map_eq_some_iff.mp h
    rfl

omit [Usize] in
theorem Ctl.cancel_flag {ctl ctl' : Ctl} (h : ctl.cancel sh = some ctl') : ctl'.flag = ctl.flag := by
  cases ctl with
  | reader c =>
    obtain ⟨c', hc, rfl⟩ := Option.map_eq_some_iff.mp h
    obtain ⟨d, hpc, rfl⟩ := ReaderTask.cancel_inv hc
    show none = c.flag
    rw [ReaderTask.flag, hpc]
  | close c | read c =>
    obtain ⟨c', hc, rfl⟩ := Option.map_eq_some_iff.mp h
    rfl
  | _ => cases h

/-- What any event of a task does to the requests. -/
theorem Task.Moves.desk {i : ℕ} {t t' : Task} {e : Event} (h : t.Moves ng i sh e t' sh') :
    DeskMove sh sh' t.ctl.flag t'.ctl.flag := by
  cases h with
  | ctl a ctl' use' sh' hu hm => exact hm.desk
  | more u a u' sh' hu hm => exact .same _ hm.desk
  | ended u a r sh1 hu hm =>
    obtain ⟨hflag, hdesk⟩ := t.ctl.resume_desk r sh1
    rw [hflag]
    exact .same _ (hm.desk.trans hdesk)
  | cancel u ctl' sh' hu hc hd =>
    rw [Ctl.cancel_flag hc]
    exact .same _ (Use.drop_desk hd)
  | drop u ctl' sh' hu hc hd =>
    rw [Ctl.drop_flag hc]
    exact .same _ (Use.drop_desk hd)
  | dropIdle ctl' hu hc =>
    rw [Ctl.drop_flag hc]
    exact .same _ (.refl _)
  | begin c call c' hu hctl hb =>
    obtain ⟨hidle, -, hl, -⟩ := ReaderTask.begin_inv hb
    rw [hctl]
    show DeskMove sh sh c.flag c'.flag
    rw [ReaderTask.flag_light (c := c) (by rw [hidle]; rfl), ReaderTask.flag_light hl]
    exact .same _ (.refl _)
  | decide c accept hu hctl hheld =>
    rw [hctl]
    show DeskMove sh sh c.live (c.goto _).live
    have hlive : c.live = some c.holder.flag := by rw [HolderCall.live, hheld]
    have hlive' : (c.goto (if accept then .accept else .reject)).live = some c.holder.flag := by
      cases accept <;> rfl
    rw [hlive, hlive']
    exact .same _ (.refl _)
  | dropReader c hu hctl hidle =>
    rw [hctl]
    show DeskMove sh sh c.flag none
    rw [ReaderTask.flag_light (by rw [hidle]; rfl)]
    exact .same _ (.refl _)

omit [Usize] in
/-- The request goes from the call to the application. -/
theorem Ctl.handOver_flag {ctl ctl' : Ctl} {h : Holder} (hh : ctl.handOver = some (h, ctl')) :
    ctl.flag = some h.flag ∧ ctl'.flag = none := by
  unfold Ctl.handOver at hh
  split at hh
  · rename_i c
    split at hh
    · rename_i h' hpc
      cases hh
      exact ⟨by simp only [Ctl.flag, ListenCall.flag, hpc], rfl⟩
    · cases hh
  · rename_i c
    split at hh
    · rename_i h' hpc
      cases hh
      exact ⟨by simp only [Ctl.flag, ReaderTask.flag, hpc], ReaderTask.flag_light (ReaderTask.Light.finish c).light⟩
    · cases hh
  · cases hh

/-- Every request in hand has a flag of its own, and it is on the staged list. -/
structure Flags (s : State) : Prop where
  own : Each (fun _ t => ∀ f, t.ctl.flag = some f →
    f < s.sh.cancelled.length ∧ ∃ id, (id, f) ∈ s.sh.staged) s.tasks
  apart : ∀ (i j : ℕ) (ti tj : Task) (f : ℕ), s.tasks[i]? = some ti → s.tasks[j]? = some tj → ti.ctl.flag = some f →
    tj.ctl.flag = some f → i = j

omit [Usize] in
theorem getElem?_set_cases {τ : Type*} {l : List τ} {i j : ℕ} {t t' : τ} (h : (l.set i t')[j]? = some t) :
    j = i ∧ t = t' ∨ j ≠ i ∧ l[j]? = some t := by
  by_cases hj : j = i
  · subst hj
    rw [List.getElem?_set_self'] at h
    cases hl : l[j]? with
    | none => rw [hl] at h; cases h
    | some u =>
      rw [hl] at h
      exact Or.inl ⟨rfl, (Option.some.inj h).symm⟩
  · rw [List.getElem?_set_ne (Ne.symm hj)] at h
    exact Or.inr ⟨hj, h⟩

theorem Flags.task {s : State} {i : ℕ} {t t' : Task} {e : Event} (hf : Flags s) (ht : s.tasks[i]? = some t)
    (hm : t.Moves ng i s.sh e t' sh') : Flags (s.set i t' sh') := by
  have hdesk := hm.desk
  generalize hold : t.ctl.flag = old at hdesk
  generalize hnew : t'.ctl.flag = new at hdesk
  have hother : ∀ j u f, j ≠ i → s.tasks[j]? = some u → u.ctl.flag = some f → old ≠ some f := by
    intro j u f hj hu hflag hsame
    exact hj (hf.apart j i u t f hu ht hflag (hold.trans hsame))
  -- the flags in hand afterwards: the others' as before, and the one of the task that moved
  have hown : Each (fun _ t => ∀ f, t.ctl.flag = some f → f < sh'.cancelled.length ∧ ∃ id, (id, f) ∈ sh'.staged)
      (s.tasks.set i t') := by
    cases hdesk with
    | same f hsame =>
      refine hf.own.set ?_ ?_
      · intro f' hf'
        rw [hsame.cancelled, hsame.staged]
        exact hf.own i t ht f' (hold.trans (hnew.symm.trans hf'))
      · intro j u _ _ hu f' hf'
        rw [hsame.cancelled, hsame.staged]
        exact hu f' hf'
    | holds p hcancelled hstaged =>
      refine hf.own.set ?_ ?_
      · intro f' hf'
        obtain rfl := Option.some.inj (hnew.symm.trans hf')
        rw [hcancelled, hstaged]
        exact ⟨by simp, p.remote, by simp⟩
      · intro j u _ _ hu f' hf'
        obtain ⟨hlt, id, hid⟩ := hu f' hf'
        rw [hcancelled, hstaged]
        exact ⟨by rw [List.length_append]; omega, id, List.mem_append_left _ hid⟩
    | queue hcancelled hstaged =>
      refine hf.own.set ?_ ?_
      · intro f' hf'
        cases hnew.symm.trans hf'
      · intro j u _ _ hu f' hf'
        rw [hcancelled, hstaged]
        exact hu f' hf'
    | ends f hcancelled hstaged =>
      refine hf.own.set ?_ ?_
      · intro f' hf'
        cases hnew.symm.trans hf'
      · intro j u hj hu hown f' hf'
        obtain ⟨hlt, id, hid⟩ := hown f' hf'
        rw [hcancelled, hstaged]
        refine ⟨hlt, id, List.mem_filter.mpr ⟨hid, ?_⟩⟩
        have hne := hother j u f' hj hu hf'
        simpa using fun h : f' = f => hne (h ▸ rfl)
  have hfresh : ∀ j u f, j ≠ i → s.tasks[j]? = some u → u.ctl.flag = some f → new ≠ some f := by
    intro j u f hj hu hflag hsame
    cases hdesk with
    | same g hsame' => exact hother j u f hj hu hflag hsame
    | holds p hcancelled hstaged =>
      have := (hf.own j u hu f hflag).1
      have hlen := Option.some.inj hsame
      omega
    | queue => cases hsame
    | ends => cases hsame
  refine ⟨hown, fun a b ta tb f ha hb hfa hfb => ?_⟩
  rcases getElem?_set_cases ha with ⟨rfl, rfl⟩ | ⟨hai, ha'⟩ <;> rcases getElem?_set_cases hb with ⟨rfl, rfl⟩ | ⟨hbi, hb'⟩
  · rfl
  · exact absurd (hnew.symm.trans hfa) (hfresh b tb f hbi hb' hfb)
  · exact absurd (hnew.symm.trans hfb) (hfresh a ta f hai ha' hfa)
  · exact hf.apart a b ta tb f ha' hb' hfa hfb

omit [Usize] in
theorem Flags.append {s : State} {t : Task} (hf : Flags s) (ht : t.ctl.flag = none) :
    Flags ⟨s.sh, s.tasks ++ [t]⟩ := by
  have hlast : ∀ (i : ℕ) (u : Task), (s.tasks ++ [t])[i]? = some u → s.tasks[i]? = some u ∨ u = t := by
    intro i u hu
    rw [List.getElem?_append] at hu
    split_ifs at hu with hi
    · exact Or.inl hu
    · exact Or.inr (by simpa using (List.mem_of_getElem? hu))
  refine ⟨hf.own.append (fun f hflag => nomatch ht.symm.trans hflag), fun a b ta tb f ha hb hfa hfb => ?_⟩
  rcases hlast a ta ha with ha' | rfl
  · rcases hlast b tb hb with hb' | rfl
    · exact hf.apart a b ta tb f ha' hb' hfa hfb
    · exact nomatch ht.symm.trans hfb
  · exact nomatch ht.symm.trans hfa

omit [Usize] in
/-- A request changes hands. -/
theorem Flags.handOver {s : State} {i : ℕ} {t : Task} {h : Holder} {ctl' : Ctl} (hf : Flags s)
    (ht : s.tasks[i]? = some t) (hh : t.ctl.handOver = some (h, ctl')) :
    Flags ⟨s.sh, s.tasks.set i ⟨ctl', none⟩ ++ [⟨.holder ⟨h, .held⟩, none⟩]⟩ := by
  obtain ⟨hfrom, hto⟩ := Ctl.handOver_flag hh
  have hlen : (s.tasks.set i ⟨ctl', none⟩).length = s.tasks.length := List.length_set
  have hlast : ∀ j u f, (s.tasks.set i ⟨ctl', none⟩ ++ [⟨.holder ⟨h, .held⟩, none⟩])[j]? = some u →
      u.ctl.flag = some f → (j ≠ i ∧ s.tasks[j]? = some u) ∨ (j = s.tasks.length ∧ f = h.flag) := by
    intro j u f hu hflag
    rw [List.getElem?_append] at hu
    split_ifs at hu with hj
    · rcases getElem?_set_cases hu with ⟨rfl, rfl⟩ | hne
      · cases hto.symm.trans hflag
      · exact Or.inl hne
    · rw [List.getElem?_singleton] at hu
      split_ifs at hu with h0
      cases hu
      exact Or.inr ⟨by omega, (Option.some.inj hflag).symm⟩
  refine ⟨fun j u hu f hflag => ?_, fun a b ta tb f ha hb hfa hfb => ?_⟩
  · rcases hlast j u f hu hflag with ⟨-, hu'⟩ | ⟨-, rfl⟩
    · exact hf.own j u hu' f hflag
    · exact hf.own i t ht _ hfrom
  · rcases hlast a ta f ha hfa with ⟨hai, ha'⟩ | ⟨hal, hah⟩ <;>
      rcases hlast b tb f hb hfb with ⟨hbi, hb'⟩ | ⟨hbl, hbh⟩
    · exact hf.apart a b ta tb f ha' hb' hfa hfb
    · exact absurd (hf.apart a i ta t f ha' ht hfa (hbh ▸ hfrom)) hai
    · exact absurd (hf.apart b i tb t f hb' ht hfb (hah ▸ hfrom)) hbi
    · exact hal.trans hbl.symm

end LibAdb.Split
