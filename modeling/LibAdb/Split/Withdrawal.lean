import LibAdb.Split.Budget

/-!
# LibAdb.Split.Withdrawal — requests the device takes back

A CLSE without a local id takes an OPEN back: out of the queue, and where a task has the request in hand by the flag of
its holder.  `RequestMove` says what a step can do to the requests and to the one its task has in hand.  So a holder's
entry on the staged list has the device id of its request (`Listed`), and once an id was withdrawn whoever still has a
request of that id in hand has a flag that is set (`Withdrawn`): it does not go back to the queue and is not answered
with READY.

That is so if no slot has the id yet.  An accept that has reserved its slot and waits for the write half is not told:
the CLSE closes the slot, and a request given back after that is in the queue again.
-/

namespace LibAdb.Split

open Runs Tasks

/-! ## The request a task has in hand -/

/-- A verdict, until it is done with. -/
def HolderCall.undone (c : HolderCall) : Option HolderCall :=
  match c.pc with
  | .done _ => none
  | _ => some c

def ReaderTask.request (c : ReaderTask) : Option HolderCall :=
  match c.pc with
  | .handOver h => some ⟨h, .held⟩
  | .draining h | .refusing h | .rejecting h => h.undone
  | _ => none

def ListenCall.request (c : ListenCall) : Option HolderCall :=
  match c.pc with
  | .handOver h => some ⟨h, .held⟩
  | _ => none

def Ctl.request : Ctl → Option HolderCall
  | .holder c => c.undone
  | .listen c => c.request
  | .reader c => c.request
  | _ => none

/-- The `Reader` is about to queue or refuse an OPEN of this device id. -/
def ReaderTask.Brings (c : ReaderTask) (remote : RemoteId) : Prop :=
  ∃ p : PendingOpen, (c.pc = .queue p ∨ c.pc = .stage p) ∧ p.remote = remote

def Ctl.Brings (ctl : Ctl) (remote : RemoteId) : Prop := ∃ c, ctl = .reader c ∧ c.Brings remote

/-- A step of a verdict that is not its last. -/
structure HolderCall.Follows (sh : Shared) (c c' : HolderCall) : Prop where
  flag : c'.holder.flag = c.holder.flag
  pending : c'.holder.pending = c.holder.pending ∨ c'.holder.pending = none
  readies : ∀ ch, c'.pc = .readying ch → c.pc = .readying ch ∨ sh.isCancelled c.holder.flag = false

/-- What a step of a task does to the requests and to its own. -/
inductive RequestMove (sh sh' : Shared) (ctl ctl' : Ctl) : Prop
  | same (hreq : ctl'.request = ctl.request) (hdesk : SameDesk sh sh')
  | goes (c c' : HolderCall) (hreq : ctl.request = some c) (hreq' : ctl'.request = some c') (h : c.Follows sh c')
      (hdesk : SameDesk sh sh')
  | takes (p : PendingOpen) (pc : HolderPc) (hreq : ctl.request = none)
      (hreq' : ctl'.request = some ⟨⟨some p, none, sh.cancelled.length⟩, pc⟩) (hpc : pc = .held ∨ pc = .reject)
      (hfrom : sh.incoming = p :: sh'.incoming ∨ sh'.incoming = sh.incoming ∧ ctl.Brings p.remote)
      (hstaged : sh'.staged = sh.staged ++ [(p.remote, sh.cancelled.length)])
      (hcancelled : sh'.cancelled = sh.cancelled ++ [false])
  | ends (c : HolderCall) (hreq : ctl.request = some c) (hreq' : ctl'.request = none)
      (hstaged : sh'.staged = sh.staged.filter fun entry => entry.2 ≠ c.holder.flag)
      (hcancelled : sh'.cancelled = sh.cancelled)
      (hincoming : sh'.incoming = sh.incoming ∨ ∃ p, c.holder.pending = some p ∧
        sh.isCancelled c.holder.flag = false ∧ sh'.incoming = p :: sh.incoming)
  | queues (p : PendingOpen) (hreq : ctl.request = none) (hreq' : ctl'.request = none) (hbrings : ctl.Brings p.remote)
      (hincoming : sh'.incoming = sh.incoming ++ [p]) (hstaged : sh'.staged = sh.staged)
      (hcancelled : sh'.cancelled = sh.cancelled)
  | withdraws (remote : RemoteId) (hreq : ctl.request = none) (hreq' : ctl'.request = none)
      (hsh : sh' = sh.withdrawOpen remote)

section Moves

variable [Usize] {ng : Negotiated} {sh sh' : Shared} {use : Option Use} {ctl ctl' : Ctl}

omit [Usize] in
theorem HolderCall.undone_of_pc {c : HolderCall} (h : ∀ r, c.pc ≠ .done r) : c.undone = some c := by
  unfold HolderCall.undone
  split
  · exact absurd (by assumption) (h _)
  · rfl

/-- A step of a verdict, on its own or inside a call of the `Reader`. -/
theorem HolderCall.Moves.request {c c' : HolderCall} (h : c.Moves ng sh c' use sh') (hreq : ctl.request = c.undone)
    (hreq' : ctl'.request = c'.undone) : RequestMove sh sh' ctl ctl' := by
  cases h with
  | withdrawn pending r hpc hp hflag =>
    have hundone : c.undone = some c := undone_of_pc (by rcases hpc with hpc | hpc <;> rw [hpc] <;> exact nofun)
    exact .goes c _ (hreq.trans hundone) hreq' ⟨rfl, .inr rfl, nofun⟩ (.refl _)
  | noSlot pending hpc | rejects pending hpc =>
    have hundone : c.undone = some c := undone_of_pc (by rw [hpc]; exact nofun)
    exact .goes c _ (hreq.trans hundone) hreq' ⟨rfl, .inl rfl, nofun⟩ (.refl _)
  | reserves pending ch channels hpc hp hflag =>
    have hundone : c.undone = some c := undone_of_pc (by rw [hpc]; exact nofun)
    exact .goes c _ (hreq.trans hundone) hreq' ⟨rfl, .inl rfl, fun _ _ => .inr hflag⟩ ⟨rfl, rfl, rfl⟩
  | frees r ch hpc =>
    have hundone : c.undone = some c := undone_of_pc (by rw [hpc]; exact nofun)
    exact .goes c _ (hreq.trans hundone) hreq' ⟨rfl, .inl rfl, nofun⟩ ⟨rfl, rfl, rfl⟩
  | noneReserved r hpc =>
    have hundone : c.undone = some c := undone_of_pc (by rw [hpc]; exact nofun)
    exact .goes c _ (hreq.trans hundone) hreq' ⟨rfl, .inl rfl, nofun⟩ (.refl _)
  | ends r hpc =>
    have hundone : c.undone = some c := undone_of_pc (by rw [hpc]; exact nofun)
    exact .ends c (hreq.trans hundone) hreq' rfl rfl (.inl rfl)
  | returns r pending hpc hp hflag =>
    have hundone : c.undone = some c := undone_of_pc (by rw [hpc]; exact nofun)
    exact .ends c (hreq.trans hundone) hreq' rfl rfl (.inr ⟨pending, hp, hflag, rfl⟩)

section

omit [Usize]

/-- A verdict whose write has ended. -/
theorem HolderCall.resume_follows (c : HolderCall) (r : Option Error) (sh : Shared) : c.Follows sh (c.resume r) := by
  obtain ⟨⟨pending, reserved, flag⟩, pc⟩ := c
  unfold HolderCall.resume
  cases r with
  | none => cases pc <;> exact ⟨rfl, .inr rfl, nofun⟩
  | some e =>
    dsimp only
    split_ifs <;> cases pc <;> first | exact ⟨rfl, .inr rfl, nofun⟩ | exact ⟨rfl, .inl rfl, nofun⟩

theorem HolderCall.resume_request (c : HolderCall) (r : Option Error) (hdesk : SameDesk sh sh')
    (hreq : ctl.request = c.undone) (hreq' : ctl'.request = (c.resume r).undone) : RequestMove sh sh' ctl ctl' := by
  by_cases hdone : ∃ e, c.pc = .done e
  · obtain ⟨e, hpc⟩ := hdone
    obtain ⟨holder, pc⟩ := c
    cases hpc
    refine .same (hreq'.trans (Eq.trans ?_ hreq.symm)) hdesk
    unfold HolderCall.resume
    dsimp only
    split_ifs <;> rfl
  · have hundone : c.undone = some c := undone_of_pc fun e hpc => hdone ⟨e, hpc⟩
    have hundone' : (c.resume r).undone = some (c.resume r) :=
      undone_of_pc fun e hpc => hdone ⟨e, c.resume_done r e hpc⟩
    exact .goes c _ (hreq.trans hundone) (hreq'.trans hundone') (c.resume_follows r sh) hdesk

theorem HolderCall.drop_follows {c c' : HolderCall} (h : c.drop = some c') (sh : Shared) :
    c.Follows sh c' ∧ c.undone = some c ∧ c'.undone = some c' := by
  unfold HolderCall.drop at h
  split at h
  case h_5 => cases h
  all_goals
    rename_i hpc
    cases h
    exact ⟨⟨rfl, .inl rfl, nofun⟩, undone_of_pc (by rw [hpc]; exact nofun), rfl⟩

theorem HolderCall.live_eq (c : HolderCall) : c.live = c.undone.map fun h => h.holder.flag := by
  obtain ⟨holder, pc⟩ := c
  cases pc <;> rfl

/-- The flag of a task is that of its request. -/
theorem Ctl.flag_eq (ctl : Ctl) : ctl.flag = ctl.request.map fun h => h.holder.flag := by
  cases ctl with
  | holder c => exact c.live_eq
  | listen c =>
    obtain ⟨listener, pc⟩ := c
    cases pc <;> rfl
  | reader c =>
    obtain ⟨call, guard, pc⟩ := c
    cases pc <;> first | rfl | exact HolderCall.live_eq _
  | _ => rfl

theorem Ctl.request_of_flag (h : ctl.flag = none) : ctl.request = none := by
  rw [Ctl.flag_eq] at h
  exact Option.map_eq_none_iff.mp h

end

namespace ReaderTask

variable {c c' : ReaderTask} {remote : RemoteId}

omit [Usize] in
theorem request_light (h : c.pc.light = true) : (Ctl.reader c).request = none :=
  @Ctl.request_of_flag (.reader c) (flag_light h)

omit [Usize] in
theorem request_refusing {h : HolderCall} (hpc : Refusing h c.pc) : (Ctl.reader c).request = h.undone := by
  obtain ⟨call, guard, pc⟩ := c
  cases hpc <;> rfl

theorem Moves.request (h : c.Moves ng sh c' use sh') : RequestMove sh sh' (.reader c) (.reader c') := by
  cases h with
  | plain c' use sh' hl hl' huse hsaid =>
    exact .same ((request_light hl'.light).trans (request_light hl).symm) hsaid.desk
  | ends e sh' hpc hsaid =>
    exact .same ((request_light (Light.unwind c).light).trans (request_light (by rw [hpc]; rfl)).symm)
      (hsaid.desk.before ⟨rfl, rfl, rfl⟩)
  | allocates destination ch u sh' hpc htake =>
    exact .same (request_light (c := c) (by rw [hpc]; rfl)).symm (takeSlot_desk htake)
  | takes ch want pc pc' d use sh' hcall hpc hm =>
    exact .same (by rw [Ctl.request, Ctl.request, request, request, hpc]; rfl) hm.desk
  | taken ch want pc d r sh1 hcall hpc hm =>
    obtain ⟨hl, -, hsaid⟩ := c.taken_said d r sh1
    refine .same ((request_light hl.light).trans ?_) (hm.desk.trans hsaid.desk)
    rw [Ctl.request, request, hpc]
  | drains h sh' hpc htake | refuses h sh' hpc htake =>
    obtain ⟨p, hq, hstaged, hcancelled, rfl, -⟩ := Shared.takeIncomingPast_inv htake
    exact .takes p .reject (request_light (by rw [hpc]; rfl)) rfl (.inr rfl) (.inl hq) hstaged hcancelled
  | handsOut h sh' hpc hcall htake =>
    obtain ⟨p, hq, hstaged, hcancelled, rfl⟩ := Shared.handOut_inv htake
    exact .takes p .held (request_light (by rw [hpc]; rfl)) rfl (.inl rfl) (.inl hq) hstaged hcancelled
  | inner h h' pc' use sh' hpc hpc' hm =>
    exact hm.request (request_refusing hpc) (request_refusing (c := c.goto pc') hpc')
  | refused h r c' sh' hpc hdone hl' hsaid =>
    refine .same ((request_light hl'.light).trans ?_) hsaid.desk
    rw [request_refusing hpc, HolderCall.undone, hdone]
  | receives pkt hpc => exact .same (request_light (c := c) (by rw [hpc]; rfl)).symm (.refl _)
  | received pkt hpc =>
    refine .same ((@Ctl.request_of_flag (.reader _) (c.receive_takes pkt sh).flag).trans ?_)
      (c.receive_takes pkt sh).desk
    rw [Ctl.request, request, hpc]
  | fails idx ids fault after hpc =>
    exact .same (by rw [Ctl.request, Ctl.request, request, request, hpc]; rfl) (.failChannel _ _ _ _)
  | owes d after hpc =>
    exact .same (by rw [Ctl.request, Ctl.request, request, request, hpc]; rfl) ⟨rfl, rfl, rfl⟩
  | queues pending sh' hpc hq =>
    unfold Shared.queueIncoming at hq
    split_ifs at hq
    cases hq
    exact .queues pending (by rw [Ctl.request, request, hpc]) rfl ⟨c, rfl, pending, .inl hpc, rfl⟩ rfl rfl rfl
  | overflows pending hpc =>
    exact .same (by rw [Ctl.request, Ctl.request, request, request, hpc]; rfl) (.refl _)
  | stages pending hpc =>
    exact .takes pending .reject (by rw [Ctl.request, request, hpc]) rfl (.inr rfl)
      (.inr ⟨rfl, c, rfl, pending, .inr hpc, rfl⟩) rfl rfl
  | withdraws remote hpc => exact .withdraws remote (by rw [Ctl.request, request, hpc]) rfl rfl
  | looks d ch want hpc => exact .same (request_light (c := c) hpc).symm (.refl _)
  | unguards ch hpc =>
    exact .same ((request_light (Light.finish _).light).trans (request_light (by rw [hpc]; rfl)).symm) (.dropSlot _ _)
  | stops hpc => exact .same (request_light (c := c) (by rw [hpc]; rfl)).symm ⟨rfl, rfl, rfl⟩

omit [Usize] in
theorem Resumes.request {r : Option Error} (h : c.Resumes r c') (hdesk : SameDesk sh sh') :
    RequestMove sh sh' (.reader c) (.reader c') := by
  cases h with
  | light c' hl hl' => exact .same ((request_light hl'.light).trans (request_light hl).symm) hdesk
  | prePaid ch want hpc => exact .same (request_light (c := c) (by rw [hpc]; rfl)).symm hdesk
  | acked d hpc => exact .same (by rw [Ctl.request, Ctl.request, request, request, hpc]; rfl) hdesk
  | inner h pc' hpc hpc' =>
    exact (h.resume_request r hdesk (request_refusing hpc) (request_refusing (c := c.goto pc') hpc'))
  | same => exact .same rfl hdesk

omit [Usize] in
theorem Drops.request (h : c.Drops c') (hdesk : SameDesk sh sh') : RequestMove sh sh' (.reader c) (.reader c') := by
  cases h with
  | unwinds hno hflag =>
    exact .same ((request_light (Light.unwind c).light).trans (@Ctl.request_of_flag (.reader c) hflag).symm) hdesk
  | inner h h' pc' hpc hpc' hpast hd =>
    obtain ⟨hfollows, hundone, hundone'⟩ := HolderCall.drop_follows hd sh
    exact .goes h h' ((request_refusing hpc).trans hundone)
      ((request_refusing (c := c.goto pc') hpc').trans hundone') hfollows hdesk

/-! ### Where an OPEN comes from -/

omit [Usize] in
theorem Brings.not_light (h : c.Brings remote) : c.pc.light = false := by
  obtain ⟨p, hpc | hpc, -⟩ := h <;> rw [hpc] <;> rfl

omit [Usize] in
theorem not_brings_light (hl : c.pc.light = true) : ¬ c.Brings remote :=
  fun h => nomatch h.not_light.symm.trans hl

theorem dispatch_brings {pkt : Packet} (h : (c.dispatch pkt sh).1.Brings remote) :
    pkt.command = .«open» ∧ ⟨pkt.arg0⟩ = remote := by
  have hspec := ChannelTable.dispatch_spec sh.channels pkt
  obtain ⟨p, hpc, rfl⟩ := h
  unfold dispatch at hpc
  generalize hout : sh.channels.dispatch pkt = d at hpc hspec
  obtain ⟨outcome, channels⟩ := d
  dsimp only at hpc hspec
  cases hspec with
  | opens hcmd =>
    rcases hpc with hpc | hpc
    · cases hpc
      exact ⟨hcmd, rfl⟩
    · cases hpc
  | _ =>
    exfalso
    rcases hpc with hpc | hpc <;>
      first | cases hpc | (dsimp only [actOn, ChannelTable.fault] at hpc; split_ifs at hpc <;> cases hpc)

theorem receive_brings {pkt : Packet} (h : (c.receive pkt sh).1.Brings remote) :
    pkt.command = .«open» ∧ ⟨pkt.arg0⟩ = remote := by
  unfold receive at h
  split at h
  · split_ifs at h
    · exfalso
      unfold openReady at h
      have hfinish : ¬ ({ c with guard := none } : ReaderTask).finish.Brings remote :=
        not_brings_light (Light.finish _).light
      split at h
      · exact hfinish h
      · split at h
        · exact hfinish h
        · obtain ⟨p, hpc | hpc, -⟩ := h <;> cases hpc
    · exact absurd h (not_brings_light (Light.unwind c).light)
    · exact dispatch_brings h
  · exact dispatch_brings h

/-- An OPEN is brought to the queue by the step that dispatches it. -/
theorem Moves.brings (h : c.Moves ng sh c' use sh') (hb : c'.Brings remote) :
    c.Brings remote ∨ ∃ pkt, c.pc = .received pkt ∧ pkt.command = .«open» ∧ ⟨pkt.arg0⟩ = remote := by
  cases h with
  | plain c' use sh' hl hl' => exact absurd hb (not_brings_light hl'.light)
  | ends => exact absurd hb (not_brings_light (Light.unwind c).light)
  | taken ch want pc d r sh1 => exact absurd hb (not_brings_light (c.taken_said d r sh1).1.light)
  | inner h h' pc' use sh' hpc hpc' =>
    obtain ⟨p, hpc | hpc, -⟩ := hb <;> rw [goto_pc] at hpc <;> rw [hpc] at hpc' <;> cases hpc'
  | refused h r c' sh' hpc hdone hl' => exact absurd hb (not_brings_light hl'.light)
  | received pkt hpc => exact .inr ⟨pkt, hpc, receive_brings hb⟩
  | overflows pending hpc =>
    obtain ⟨p, hpc' | hpc', rfl⟩ := hb
    · cases hpc'
    · cases hpc'
      exact .inl ⟨pending, .inl hpc, rfl⟩
  | unguards ch => exact absurd hb (not_brings_light (Light.finish _).light)
  | _ => obtain ⟨p, hpc' | hpc', -⟩ := hb <;> cases hpc'

omit [Usize] in
theorem Resumes.brings {r : Option Error} (h : c.Resumes r c') (hb : c'.Brings remote) : c.Brings remote := by
  cases h with
  | light c' hl hl' => exact absurd hb (not_brings_light hl'.light)
  | inner h pc' hpc hpc' =>
    obtain ⟨p, hpc | hpc, -⟩ := hb <;> rw [goto_pc] at hpc <;> rw [hpc] at hpc' <;> cases hpc'
  | same => exact hb
  | _ => obtain ⟨p, hpc' | hpc', -⟩ := hb <;> cases hpc'

omit [Usize] in
theorem Drops.brings (h : c.Drops c') : ¬ c'.Brings remote := by
  cases h with
  | unwinds => exact not_brings_light (Light.unwind c).light
  | inner h h' pc' hpc hpc' =>
    rintro ⟨p, hpc | hpc, -⟩ <;> rw [goto_pc] at hpc <;> rw [hpc] at hpc' <;> cases hpc'

end ReaderTask

omit [Usize] in
theorem ListenCall.Moves.request {c c' : ListenCall} (h : c.Moves sh c' use sh') :
    RequestMove sh sh' (.listen c) (.listen c') := by
  have hnone : ∀ d : ListenCall, (∀ h, d.pc ≠ .handOver h) → (Ctl.listen d).request = none := by
    rintro ⟨listener, pc⟩ hd
    cases pc with
    | handOver h => exact absurd rfl (hd h)
    | _ => rfl
  cases h with
  | idle c' hpc hpc' => exact .same ((hnone c' hpc').trans (hnone c hpc).symm) (.refl _)
  | takes hd sh' hpc hout =>
    obtain ⟨p, hq, hstaged, hcancelled, rfl⟩ := Shared.handOut_inv hout
    exact .takes p .held (hnone c (by simp [hpc])) rfl (.inl rfl) (.inl hq) hstaged hcancelled

theorem Ctl.Moves.request (h : Ctl.Moves ng sh ctl ctl' use sh') : RequestMove sh sh' ctl ctl' := by
  cases h with
  | write _ _ _ _ hm => exact .same rfl hm.desk
  | close _ _ _ _ hm => exact .same rfl (by cases hm <;> exact ⟨rfl, rfl, rfl⟩)
  | read _ _ _ _ hm => exact .same rfl hm.desk
  | «open» _ _ _ _ hm => exact .same rfl hm.desk
  | holder _ _ _ _ hm => exact hm.request rfl rfl
  | listen _ _ _ _ hm => exact hm.request
  | reader _ _ _ _ hm => exact hm.request

omit [Usize] in
theorem Ctl.resume_request (ctl : Ctl) (r : Option Error) {sh1 : Shared} (hdesk : SameDesk sh sh1) :
    RequestMove sh (ctl.resume r sh1).2 ctl (ctl.resume r sh1).1 := by
  cases ctl with
  | holder c => exact c.resume_request r hdesk rfl rfl
  | reader c => exact (c.resume_resumes r sh1).1.request (hdesk.trans (c.resume_resumes r sh1).2.desk)
  | _ => exact .same rfl hdesk

omit [Usize] in
theorem Ctl.drop_request (h : ctl.drop = some ctl') (hdesk : SameDesk sh sh') : RequestMove sh sh' ctl ctl' := by
  cases ctl with
  | holder c =>
    obtain ⟨c', hc, rfl⟩ := Option.map_eq_some_iff.mp h
    obtain ⟨hfollows, hundone, hundone'⟩ := HolderCall.drop_follows hc sh
    exact .goes c c' hundone hundone' hfollows hdesk
  | reader c =>
    obtain ⟨c', hc, rfl⟩ := Option.map_eq_some_iff.mp h
    exact (ReaderTask.drop_drops hc).request hdesk
  | listen c =>
    obtain ⟨c', hc, rfl⟩ := Option.map_eq_some_iff.mp h
    obtain ⟨listener, pc⟩ := c
    cases pc with
    | waiting gen =>
      cases hc
      exact .same rfl hdesk
    | _ => cases hc
  | _ =>
    obtain ⟨c', hc, rfl⟩ := Option.map_eq_some_iff.mp h
    exact .same rfl hdesk

/-- **What any event of a task does to the requests.** -/
theorem Task.Moves.request {i : ℕ} {t t' : Task} {e : Event} (h : t.Moves ng i sh e t' sh') :
    RequestMove sh sh' t.ctl t'.ctl := by
  cases h with
  | ctl a ctl' use' sh' hu hm => exact hm.request
  | more u a u' sh' hu hm => exact .same rfl hm.desk
  | ended u a r sh1 hu hm => exact t.ctl.resume_request r hm.desk
  | cancel u ctl' sh' hu hc hd =>
    have hflag : t.ctl.flag = none := by
      cases hctl : t.ctl with
      | reader c =>
        rw [hctl] at hc
        obtain ⟨c', hc', rfl⟩ := Option.map_eq_some_iff.mp hc
        obtain ⟨d, hpc, rfl⟩ := ReaderTask.cancel_inv hc'
        rw [Ctl.flag, ReaderTask.flag, hpc]
      | close c => rfl
      | read c => rfl
      | _ =>
        rw [hctl] at hc
        cases hc
    have hflag' := (Ctl.cancel_flag hc).trans hflag
    exact .same ((Ctl.request_of_flag hflag').trans (Ctl.request_of_flag hflag).symm) (Use.drop_desk hd)
  | drop u ctl' sh' hu hc hd => exact Ctl.drop_request hc (Use.drop_desk hd)
  | dropIdle ctl' hu hc => exact Ctl.drop_request hc (.refl _)
  | begin c call c' hu hctl hb =>
    obtain ⟨hidle, -, hl, -⟩ := ReaderTask.begin_inv hb
    rw [hctl]
    exact .same ((ReaderTask.request_light hl).trans (ReaderTask.request_light (by rw [hidle]; rfl)).symm) (.refl _)
  | decide c accept hu hctl hheld =>
    have hundone : c.undone = some c := by
      refine HolderCall.undone_of_pc fun r hr => ?_
      cases hheld.symm.trans hr
    rw [hctl]
    refine .goes c _ hundone (HolderCall.undone_of_pc fun r hr => ?_) ⟨rfl, .inl rfl, fun ch hch => ?_⟩ (.refl _)
    · cases accept <;> cases hr
    · cases accept <;> cases hch
  | dropReader c hu hctl hidle =>
    rw [hctl]
    exact .same (ReaderTask.request_light (c := c) (by rw [hidle]; rfl)).symm (.refl _)

/-- Whether the event dispatches an OPEN of this device id. -/
def State.opens (s : State) (e : Event) (remote : RemoteId) : Bool :=
  match e with
  | .step i _ =>
    match s.tasks[i]? with
    | some ⟨.reader c, _⟩ =>
      match c.pc with
      | .received pkt => decide (pkt.command = .«open» ∧ (⟨pkt.arg0⟩ : RemoteId) = remote)
      | _ => false
    | _ => false
  | _ => false

theorem Task.Moves.brings {s : State} {i : ℕ} {t t' : Task} {e : Event} {remote : RemoteId}
    (ht : s.tasks[i]? = some t) (h : t.Moves ng i s.sh e t' sh') (hno : s.opens e remote = false)
    (hb : t'.ctl.Brings remote) : t.ctl.Brings remote := by
  obtain ⟨c', hctl', hb⟩ := hb
  have hreader : t.ctl.isReader = true := by
    rw [← h.isReader, hctl']
    rfl
  obtain ⟨ctl, use⟩ := t
  cases ctl with
  | reader c =>
    refine ⟨c, rfl, ?_⟩
    cases h with
    | ctl a ctl' use' sh' hu hm =>
      cases hm with
      | reader _ c1 _ _ hm =>
        cases hctl'
        rcases hm.brings hb with hb | ⟨pkt, hpc, hopen⟩
        · exact hb
        · simp [State.opens, ht, hpc, hopen] at hno
    | more =>
      cases hctl'
      exact hb
    | ended u a r sh1 hu hm =>
      cases hctl'
      exact (c.resume_resumes r sh1).1.brings hb
    | cancel u ctl1 sh' hu hc hd =>
      obtain ⟨c1, hc1, rfl⟩ := Option.map_eq_some_iff.mp hc
      obtain ⟨d, hpc, rfl⟩ := ReaderTask.cancel_inv hc1
      cases hctl'
      obtain ⟨p, hpc' | hpc', -⟩ := hb <;> cases hpc'
    | drop u ctl1 sh' hu hc hd | dropIdle ctl1 hu hc =>
      obtain ⟨c1, hc1, rfl⟩ := Option.map_eq_some_iff.mp hc
      cases hctl'
      exact absurd hb (ReaderTask.drop_drops hc1).brings
    | begin c0 call c1 hu hctl hbegin =>
      obtain ⟨-, -, hl, -⟩ := ReaderTask.begin_inv hbegin
      cases hctl'
      exact absurd hb (ReaderTask.not_brings_light hl)
    | decide c0 accept hu hctl => cases hctl
    | dropReader c0 hu hctl hidle =>
      cases hctl'
      obtain ⟨p, hpc' | hpc', -⟩ := hb <;> cases hpc'
  | _ => cases hreader

end Moves

/-! ## The flags of the withdrawn -/

theorem getD_set_true {flags : List Bool} {g f : ℕ} (h : flags.getD f false = true ∨ g = f ∧ f < flags.length) :
    (flags.set g true).getD f false = true := by
  by_cases hg : g = f
  · have hlt : f < flags.length := by
      rcases h with h | ⟨-, hlt⟩
      · by_contra hge
        rw [List.getD_eq_default _ _ (Nat.le_of_not_lt hge)] at h
        cases h
      · exact hlt
    subst hg
    simp [List.getD, List.getElem?_set_self hlt]
  · rcases h with h | ⟨heq, -⟩
    · simpa [List.getD, List.getElem?_set_ne hg] using h
    · exact absurd heq hg

/-- A flag that is set stays set, and the entries of one id have theirs set. -/
theorem getD_cancel (remote : RemoteId) (l : List (RemoteId × ℕ)) (flags : List Bool) (f : ℕ)
    (h : flags.getD f false = true ∨ (remote, f) ∈ l ∧ f < flags.length) :
    (l.foldl (fun flags entry => if entry.1 = remote then flags.set entry.2 true else flags) flags).getD f false
      = true := by
  induction l generalizing flags with
  | nil =>
    rcases h with h | ⟨h, -⟩
    · exact h
    · cases h
  | cons entry l ih =>
    rw [List.foldl_cons]
    refine ih _ ?_
    split_ifs with hid
    · rcases h with h | ⟨hmem, hlt⟩
      · exact .inl (getD_set_true (.inl h))
      · rcases List.mem_cons.mp hmem with rfl | hmem
        · exact .inl (getD_set_true (.inr ⟨rfl, hlt⟩))
        · exact .inr ⟨hmem, by rwa [List.length_set]⟩
    · rcases h with h | ⟨hmem, hlt⟩
      · exact .inl h
      · rcases List.mem_cons.mp hmem with rfl | hmem
        · exact absurd rfl hid
        · exact .inr ⟨hmem, hlt⟩

theorem Shared.withdrawOpen_cancelled {sh : Shared} {remote : RemoteId} {f : ℕ} (h : sh.isCancelled f = true) :
    (sh.withdrawOpen remote).isCancelled f = true := by
  unfold Shared.withdrawOpen
  split
  · exact h
  · exact getD_cancel remote sh.staged sh.cancelled f (.inl h)

theorem Shared.withdrawOpen_staged (sh : Shared) (remote : RemoteId) : (sh.withdrawOpen remote).staged = sh.staged := by
  unfold Shared.withdrawOpen
  split <;> rfl

theorem Shared.withdrawOpen_incoming (sh : Shared) (remote : RemoteId) :
    ∀ p ∈ (sh.withdrawOpen remote).incoming, p ∈ sh.incoming := by
  unfold Shared.withdrawOpen
  split
  · exact fun _ hp => hp
  · exact fun _ hp => List.mem_of_mem_filter hp

/-- A flag that is set stays set. -/
theorem RequestMove.cancelled {sh sh' : Shared} {ctl ctl' : Ctl} {f : ℕ} (h : RequestMove sh sh' ctl ctl')
    (hf : sh.isCancelled f = true) : sh'.isCancelled f = true := by
  unfold Shared.isCancelled at hf ⊢
  cases h with
  | same _ hdesk | goes _ _ _ _ _ hdesk => rwa [hdesk.cancelled]
  | takes p pc hreq hreq' hpc hfrom hstaged hcancelled =>
    have hlt : f < sh.cancelled.length := by
      by_contra hge
      rw [List.getD_eq_default _ _ (Nat.le_of_not_lt hge)] at hf
      cases hf
    rw [hcancelled, List.getD_append _ _ _ _ hlt]
    exact hf
  | ends c hreq hreq' hstaged hcancelled => rwa [hcancelled]
  | queues p hreq hreq' hbrings hincoming hstaged hcancelled => rwa [hcancelled]
  | withdraws remote hreq hreq' hsh =>
    subst hsh
    exact Shared.withdrawOpen_cancelled hf

/-! ## What a step leaves of the requests -/

namespace RequestMove

variable {sh sh' : Shared} {ctl ctl' : Ctl}

/-- An entry goes with the request it is for. -/
theorem keeps {id : RemoteId} {f : ℕ} (h : RequestMove sh sh' ctl ctl') (hentry : (id, f) ∈ sh.staged)
    (hother : ∀ c, ctl.request = some c → f ≠ c.holder.flag) : (id, f) ∈ sh'.staged := by
  cases h with
  | same _ hdesk | goes _ _ _ _ _ hdesk => rwa [hdesk.staged]
  | takes p pc hreq hreq' hpc hfrom hstaged hcancelled =>
    rw [hstaged]
    exact List.mem_append_left _ hentry
  | ends c hreq hreq' hstaged hcancelled hincoming =>
    rw [hstaged]
    exact List.mem_filter.mpr ⟨hentry, by simpa using hother c hreq⟩
  | queues p hreq hreq' hbrings hincoming hstaged hcancelled => rwa [hstaged]
  | withdraws remote hreq hreq' hsh =>
    subst hsh
    rwa [Shared.withdrawOpen_staged]

/-- The request a task has in hand has its own entry. -/
theorem listed (h : RequestMove sh sh' ctl ctl')
    (hlisted : ∀ c p, ctl.request = some c → c.holder.pending = some p → (p.remote, c.holder.flag) ∈ sh.staged) :
    ∀ c p, ctl'.request = some c → c.holder.pending = some p → (p.remote, c.holder.flag) ∈ sh'.staged := by
  intro c p hc hp
  cases h with
  | same hreq hdesk =>
    rw [hdesk.staged]
    exact hlisted c p (hreq ▸ hc) hp
  | goes c1 c1' hreq hreq' hfollows hdesk =>
    cases hreq'.symm.trans hc
    rw [hdesk.staged, hfollows.flag]
    rcases hfollows.pending with hsame | hnone
    · exact hlisted c1 p hreq (hsame ▸ hp)
    · cases hnone.symm.trans hp
  | takes p1 pc hreq hreq' hpc hfrom hstaged hcancelled =>
    cases hreq'.symm.trans hc
    cases hp
    rw [hstaged]
    exact List.mem_append_right _ (List.mem_singleton_self _)
  | ends c1 hreq hreq' => cases hreq'.symm.trans hc
  | queues p1 hreq hreq' => cases hreq'.symm.trans hc
  | withdraws remote hreq hreq' => cases hreq'.symm.trans hc

end RequestMove

/-- READY for a request of this device id is on its way. -/
def Ctl.Readies (ctl : Ctl) (remote : RemoteId) : Prop :=
  ∃ c p ch, ctl.request = some c ∧ c.holder.pending = some p ∧ p.remote = remote ∧ c.pc = .readying ch

/-- Of a withdrawn device id a task has at most a request whose flag is set, and READY is not on its way. -/
def Ctl.ToldOf (sh : Shared) (remote : RemoteId) (ctl : Ctl) : Prop :=
  ∀ c p, ctl.request = some c → c.holder.pending = some p → p.remote = remote →
    sh.isCancelled c.holder.flag = true ∧ ∀ ch, c.pc ≠ .readying ch

namespace RequestMove

variable {sh sh' : Shared} {ctl ctl' : Ctl} {remote : RemoteId}

theorem toldOf (h : RequestMove sh sh' ctl ctl') (htold : ctl.ToldOf sh remote)
    (hqueue : ∀ p ∈ sh.incoming, p.remote ≠ remote) (hbrings : ¬ ctl.Brings remote) : ctl'.ToldOf sh' remote := by
  intro c p hc hp hremote
  have hmono : ∀ f, sh.isCancelled f = true → sh'.isCancelled f = true := fun f => h.cancelled
  cases h with
  | same hreq hdesk =>
    obtain ⟨hflag, hready⟩ := htold c p (hreq ▸ hc) hp hremote
    exact ⟨hmono _ hflag, hready⟩
  | goes c1 c1' hreq hreq' hfollows hdesk =>
    cases hreq'.symm.trans hc
    rcases hfollows.pending with hsame | hnone
    · obtain ⟨hflag, hready⟩ := htold c1 p hreq (hsame ▸ hp) hremote
      refine ⟨hmono _ (hfollows.flag ▸ hflag), fun ch hch => ?_⟩
      rcases hfollows.readies ch hch with hbefore | hunset
      · exact hready ch hbefore
      · cases hunset.symm.trans hflag
    · cases hnone.symm.trans hp
  | takes p1 pc hreq hreq' hpc hfrom hstaged hcancelled =>
    exfalso
    cases hreq'.symm.trans hc
    cases hp
    rcases hfrom with hfrom | ⟨-, hbrought⟩
    · exact hqueue _ (by rw [hfrom]; exact List.mem_cons_self) hremote
    · exact hbrings (hremote ▸ hbrought)
  | ends c1 hreq hreq' => cases hreq'.symm.trans hc
  | queues p1 hreq hreq' => cases hreq'.symm.trans hc
  | withdraws r hreq hreq' => cases hreq'.symm.trans hc

theorem queue (h : RequestMove sh sh' ctl ctl') (htold : ctl.ToldOf sh remote)
    (hqueue : ∀ p ∈ sh.incoming, p.remote ≠ remote) (hbrings : ¬ ctl.Brings remote) :
    ∀ p ∈ sh'.incoming, p.remote ≠ remote := by
  cases h with
  | same _ hdesk | goes _ _ _ _ _ hdesk => rwa [hdesk.incoming]
  | takes p1 pc hreq hreq' hpc hfrom hstaged hcancelled =>
    rcases hfrom with hfrom | ⟨hsame, -⟩
    · exact fun p hp => hqueue p (by rw [hfrom]; exact List.mem_cons_of_mem _ hp)
    · rwa [hsame]
  | ends c hreq hreq' hstaged hcancelled hincoming =>
    rcases hincoming with hsame | ⟨p1, hp1, hunset, hback⟩
    · rwa [hsame]
    · rw [hback]
      refine List.forall_mem_cons.mpr ⟨fun hremote => ?_, hqueue⟩
      cases hunset.symm.trans (htold c p1 hreq hp1 hremote).1
  | queues p1 hreq hreq' hbrought hincoming hstaged hcancelled =>
    rw [hincoming]
    intro p hp
    rcases List.mem_append.mp hp with hp | hp
    · exact hqueue p hp
    · rw [List.mem_singleton.mp hp]
      exact fun hremote => hbrings (hremote ▸ hbrought)
  | withdraws r hreq hreq' hsh =>
    subst hsh
    exact fun p hp => hqueue p (Shared.withdrawOpen_incoming sh r p hp)

end RequestMove

/-! ## Who has which request -/

variable [Usize] {ng : Negotiated}

omit [Usize] in
/-- What is handed over goes to a task of its own. -/
theorem Ctl.handOver_request {ctl ctl' : Ctl} {hd : Holder} (hh : ctl.handOver = some (hd, ctl')) :
    ctl.request = some ⟨hd, .held⟩ ∧ ctl'.request = none := by
  refine ⟨?_, Ctl.request_of_flag (Ctl.handOver_flag hh).2⟩
  unfold Ctl.handOver at hh
  split at hh
  · split at hh
    · rename_i hpc
      cases hh
      simp only [Ctl.request, ListenCall.request, hpc]
    · cases hh
  · split at hh
    · rename_i hpc
      cases hh
      simp only [Ctl.request, ReaderTask.request, hpc]
    · cases hh
  · cases hh

omit [Usize] in
/-- A call that has returned a request brings none. -/
theorem Ctl.handOver_brings {ctl ctl' : Ctl} {hd : Holder} {remote : RemoteId} (hh : ctl.handOver = some (hd, ctl')) :
    ¬ ctl'.Brings remote := by
  unfold Ctl.handOver at hh
  rintro ⟨c1, hc, hb⟩
  split at hh
  · split at hh
    · cases hh
      cases hc
    · cases hh
  · rename_i c
    split at hh
    · cases hh
      cases hc
      exact ReaderTask.not_brings_light (ReaderTask.Light.finish c).light hb
    · cases hh
  · cases hh

/-- The entry of a request in hand has its device id; there is one `Reader`. -/
structure Listed (s : State) : Prop where
  flags : Flags s
  listed : Each (fun _ t => ∀ c p, t.ctl.request = some c → c.holder.pending = some p →
    (p.remote, c.holder.flag) ∈ s.sh.staged) s.tasks
  only : ∀ (i : ℕ) (t : Task), s.tasks[i]? = some t → t.ctl.isReader = true → i = 0

namespace Listed

variable {s : State} {e : Event} {sh' : Shared}

theorem task {i : ℕ} {t t' : Task} (h : Listed s) (ht : s.tasks[i]? = some t) (hm : t.Moves ng i s.sh e t' sh') :
    Listed (s.set i t' sh') := by
  refine ⟨h.flags.task ht hm, ?_, fun j u hu hisr => ?_⟩
  · refine h.listed.set (hm.request.listed (h.listed i t ht)) ?_
    intro j u hj hju hu c p hc hp
    refine hm.request.keeps (hu c p hc hp) ?_
    -- the flag that goes is another's
    intro c1 hreq heq
    refine hj (h.flags.apart j i u t c.holder.flag hju ht ?_ ?_)
    · rw [Ctl.flag_eq, hc]
      rfl
    · rw [Ctl.flag_eq, hreq, heq]
      rfl
  · rcases getElem?_set_cases hu with ⟨rfl, rfl⟩ | ⟨-, hu'⟩
    · exact h.only j t ht (hm.isReader.symm.trans hisr)
    · exact h.only j u hu' hisr

omit [Usize] in
theorem handOver {i : ℕ} {t : Task} {hd : Holder} {ctl' : Ctl} (h : Listed s) (ht : s.tasks[i]? = some t)
    (hh : t.ctl.handOver = some (hd, ctl')) :
    Listed ⟨s.sh, s.tasks.set i ⟨ctl', none⟩ ++ [⟨.holder ⟨hd, .held⟩, none⟩]⟩ := by
  obtain ⟨hfrom, hto⟩ := Ctl.handOver_request hh
  refine ⟨h.flags.handOver ht hh, ?_, fun j u hj hisr => ?_⟩
  · refine Each.append (h.listed.set ?_ fun j u _ _ hu => hu) ?_
    · intro c p hc
      cases hto.symm.trans hc
    · intro c p hc hp
      cases hc
      exact h.listed i t ht _ p hfrom hp
  · rw [List.getElem?_append] at hj
    split_ifs at hj with hjl
    · rcases getElem?_set_cases hj with ⟨rfl, rfl⟩ | ⟨-, hj'⟩
      · exact h.only j t ht ((Ctl.handOver_isReader hh).symm.trans hisr)
      · exact h.only j u hj' hisr
    · obtain rfl : u = ⟨.holder ⟨hd, .held⟩, none⟩ := by simpa using List.mem_of_getElem? hj
      cases hisr

theorem moves {s' : State} (h : Listed s) (hm : s.Moves ng e s') : Listed s' := by
  cases hm with
  | task i e t t' sh' ht hm => exact h.task ht hm
  | call c =>
    refine ⟨h.flags.append (by cases c <;> rfl), h.listed.append ?_, fun i u hu hisr => ?_⟩
    · intro c1 p hc
      cases c <;> cases hc
    · rw [List.getElem?_append] at hu
      split_ifs at hu with hi
      · exact h.only i u hu hisr
      · obtain rfl : u = ⟨c.start, none⟩ := by simpa using List.mem_of_getElem? hu
        cases c <;> cases hisr
  | handOver i t hd ctl' ht hu hh => exact h.handOver ht hh
  | listeners e n he => exact ⟨⟨h.flags.own, h.flags.apart⟩, h.listed, h.only⟩

omit [Usize] in
theorem start (table : ChannelTable) (incoming : IncomingQueue) (desync : Bool) :
    Listed (State.start table incoming desync) := by
  refine ⟨⟨fun i t ht f hf => ?_, fun i j ti tj f hi hj _ _ => ?_⟩, fun i t ht c p hc => ?_,
    fun i t ht _ => (State.start_task ht).1⟩
  · obtain ⟨-, rfl⟩ := State.start_task ht
    cases hf
  · rw [(State.start_task hi).1, (State.start_task hj).1]
  · obtain ⟨-, rfl⟩ := State.start_task ht
    cases hc

end Listed

/-- Once a device id was withdrawn: no request of it is in the queue or on its way there, and whoever has one in hand
is told. -/
structure Withdrawn (remote : RemoteId) (s : State) : Prop where
  queue : ∀ p ∈ s.sh.incoming, p.remote ≠ remote
  told : Each (fun _ t => t.ctl.ToldOf s.sh remote) s.tasks
  brings : Each (fun _ t => ¬ t.ctl.Brings remote) s.tasks

namespace Withdrawn

variable {remote : RemoteId} {s s' : State} {e : Event}

theorem moves (h : Withdrawn remote s) (hno : s.opens e remote = false) (hm : s.Moves ng e s') :
    Withdrawn remote s' := by
  cases hm with
  | task i e t t' sh' ht hm =>
    have htold := h.told i t ht
    have hbrings := h.brings i t ht
    refine ⟨hm.request.queue htold h.queue hbrings, ?_, ?_⟩
    · refine h.told.set (hm.request.toldOf htold h.queue hbrings) ?_
      intro j u _ _ hu c p hc hp hremote
      obtain ⟨hflag, hready⟩ := hu c p hc hp hremote
      exact ⟨hm.request.cancelled hflag, hready⟩
    · exact h.brings.set (fun hb => hbrings (hm.brings ht hno hb)) fun _ _ _ _ hu => hu
  | call c =>
    refine ⟨h.queue, h.told.append ?_, h.brings.append ?_⟩
    · intro c1 p hc
      cases c <;> cases hc
    · rintro ⟨c1, hc, -⟩
      cases c <;> cases hc
  | handOver i t hd ctl' ht hu hh =>
    obtain ⟨hfrom, hto⟩ := Ctl.handOver_request hh
    refine ⟨h.queue, Each.append (h.told.set ?_ fun _ _ _ _ hu => hu) ?_,
      Each.append (h.brings.set ?_ fun _ _ _ _ hu => hu) ?_⟩
    · intro c p hc
      cases hto.symm.trans hc
    · intro c p hc hp hremote
      cases hc
      exact h.told i t ht _ p hfrom hp hremote
    · exact Ctl.handOver_brings hh
    · rintro ⟨c, hc, -⟩
      cases hc
  | listeners e n he => exact ⟨h.queue, h.told, h.brings⟩

/-- The step that withdraws, where no slot has the id. -/
theorem of_withdraw {i : ℕ} {c : ReaderTask} (h : Listed s) (ht : s.tasks[i]? = some ⟨.reader c, none⟩)
    (hpc : c.pc = .withdraw remote) (hfree : s.sh.channels.closeRemote remote = none)
    (hready : ∀ t ∈ s.tasks, ¬ t.ctl.Readies remote) (hstep : s.step ng (.step i .go) = some s') :
    Withdrawn remote s' := by
  have hsh : s.sh.withdrawOpen remote =
      { s.sh with incoming := s.sh.incoming.withdraw remote, cancelled := s.sh.cancelStaged remote } := by
    rw [Shared.withdrawOpen, hfree]
  have hs' : s' = s.set i ⟨.reader (c.goto (.acted none)), none⟩ (s.sh.withdrawOpen remote) := by
    simp only [State.step, ht, Task.step, Ctl.step, ReaderTask.step, hpc, Option.map_some, Option.some.injEq] at hstep
    exact hstep.symm
  subst hs'
  have hi : i = 0 := h.only i _ ht rfl
  refine ⟨?_, ?_, ?_⟩
  · intro p hp
    rw [State.set_sh, hsh] at hp
    simpa using (List.mem_filter.mp hp).2
  · refine h.listed.set ?_ ?_
    · intro c1 p hc
      cases hc
    · intro j u hj hju hu c1 p hc hp hremote
      refine ⟨?_, fun ch hch => hready u (List.mem_of_getElem? hju) ⟨c1, p, ch, hc, hp, hremote, hch⟩⟩
      have hown := (h.flags.own j u hju c1.holder.flag (by rw [Ctl.flag_eq, hc]; rfl)).1
      rw [State.set_sh, hsh]
      exact getD_cancel remote s.sh.staged s.sh.cancelled _ (.inr ⟨hremote ▸ hu c1 p hc hp, hown⟩)
  · intro j u hu
    rcases getElem?_set_cases hu with ⟨rfl, rfl⟩ | ⟨hj, hu'⟩
    · rintro ⟨c1, hc, hb⟩
      cases hc
      exact ReaderTask.not_brings_light (c := c.goto (.acted none)) rfl hb
    · rintro ⟨c1, hc, -⟩
      exact hj (hi ▸ h.only j u hu' (by rw [hc]; rfl))

end Withdrawn

/-- **A withdrawn request stays withdrawn**, if the CLSE is dispatched when no slot has its device id and no READY for
it is on its way. -/
theorem withdrawn_stays_withdrawn (ng : Negotiated) :
    (∀ (c : ReaderTask) (sh : Shared) (pkt : Packet), pkt.command = .close → pkt.arg1 = 0 →
      sh.channels.closeRemote ⟨pkt.arg0⟩ = none → (c.dispatch pkt sh).1.pc = .withdraw ⟨pkt.arg0⟩) ∧
    ∀ (table : ChannelTable) (incoming : IncomingQueue) (desync : Bool) (es es' : List Event) (s s1 s' : State)
      (remote : RemoteId) (i : ℕ) (c : ReaderTask),
      Run (State.step ng) Any (State.start table incoming desync) es s →
      s.tasks[i]? = some ⟨.reader c, none⟩ → c.pc = .withdraw remote →
      s.sh.channels.closeRemote remote = none → (∀ t ∈ s.tasks, ¬ t.ctl.Readies remote) →
      s.step ng (.step i .go) = some s1 →
      Run (State.step ng) (fun a e => a.opens e remote = false) s1 es' s' →
      (∀ p ∈ s'.sh.incoming, p.remote ≠ remote) ∧
      (∀ h sh p, s'.sh.handOut = some (h, sh) → h.pending = some p → p.remote ≠ remote) ∧
      ∀ t ∈ s'.tasks, ¬ t.ctl.Readies remote := by
  constructor
  · intro c sh pkt hcmd hzero hfree
    have hout : sh.channels.dispatch pkt = (.cancelPendingOpen ⟨pkt.arg0⟩, sh.channels) := by
      simp [ChannelTable.dispatch, hcmd, hzero, hfree]
    simp [ReaderTask.dispatch, hout, ReaderTask.actOn]
  · intro table incoming desync es es' s s1 s' remote i c hrun ht hpc hfree hready hstep hrest
    have hlisted : Listed s :=
      hrun.invariant (.start table incoming desync) fun _ _ _ ha _ hs => ha.moves (State.step_moves hs)
    have hwithdrawn : Withdrawn remote s' :=
      hrest.invariant (.of_withdraw hlisted ht hpc hfree hready hstep) fun _ _ _ ha hno hs =>
        ha.moves hno (State.step_moves hs)
    refine ⟨hwithdrawn.queue, ?_, ?_⟩
    · intro h sh p hout hp
      obtain ⟨p1, hq, -, -, rfl⟩ := Shared.handOut_inv hout
      cases hp
      exact hwithdrawn.queue p (by rw [hq]; exact List.mem_cons_self)
    · rintro t ht ⟨c1, p, ch, hc, hp, hremote, hch⟩
      obtain ⟨j, hj⟩ := List.getElem?_of_mem ht
      exact (hwithdrawn.told j t hj c1 p hc hp hremote).2 ch hch

end LibAdb.Split

namespace LibAdb.Split

/-- `dispatch_one` takes in the device's CLSE for its OPEN. -/
def receivesClose (id : UInt32) : List Event :=
  [.begin 0 .dispatchOne, .step 0 .go, .step 0 .go, .step 0 .go, .step 0 .go, .step 0 (.packet ⟨.close, id, 0, []⟩)]

/-- The application gives its request back. -/
def givesBack : List Event := [.drop 1, .step 1 .go, .step 1 .go]

set_option maxRecDepth 20000 in
/-- The application has the request in hand when the CLSE comes, and gives it back after that. -/
theorem withdrawn_stays_withdrawn_held :
    (∀ c : ReaderTask, (@ReaderTask.dispatch usize64 c ⟨.close, 21, 0, []⟩
      (State.start oneSlot [] false).sh).1.pc = .withdraw ⟨21⟩) ∧
    ∃ s s1 s', Runs.exec (@State.step usize64 oneRequest) (State.start oneSlot [] false)
        (queuesOpen 21 ++ takesRequest ++ receivesClose 21 ++ [.step 0 .go]) = some s ∧
      @State.step usize64 oneRequest s (.step 0 .go) = some s1 ∧
      Runs.exec (@State.step usize64 oneRequest) s1 givesBack = some s' ∧ ∀ p ∈ s'.sh.incoming, p.remote ≠ ⟨21⟩ := by
  obtain ⟨hdispatch, hstays⟩ := @withdrawn_stays_withdrawn usize64 oneRequest
  have hrun := hstays oneSlot [] false (queuesOpen 21 ++ takesRequest ++ receivesClose 21 ++ [.step 0 .go]) givesBack
  have hready : ∀ t : Task, (∀ c ch, t.ctl.request = some c → c.pc ≠ .readying ch) → ¬ t.ctl.Readies ⟨21⟩ :=
    fun t ht ⟨c, p, ch, hc, _, _, hch⟩ => ht c ch hc hch
  refine ⟨fun c => hdispatch c _ _ rfl rfl rfl, _, _, _, rfl, rfl, rfl, ?_⟩
  refine (hrun _ _ _ ⟨21⟩ 0 _ (Runs.Run.of_exec rfl) rfl rfl rfl ?_ rfl
    (Runs.Run.of_guarded (p := fun a e => !a.opens e ⟨21⟩) (fun _ _ h => by simpa using h) rfl)).1
  refine List.forall_mem_cons.mpr ⟨hready _ ?_, List.forall_mem_singleton.mpr (hready _ ?_)⟩
  · intro c ch hc
    cases hc
  · intro c ch hc
    cases hc
    exact nofun

set_option maxRecDepth 20000 in
/-- An accept has reserved its slot and waits for the write half when the CLSE comes: the slot is closed, the flag is
not set, and the request is in the queue again once the accept is dropped. -/
theorem withdrawn_request_returns :
    ∃ s s1 s' c h, Runs.exec (@State.step usize64 oneRequest) (State.start oneSlot [] false)
        (queuesOpen 21 ++ takesRequest ++ [.decide 1 true, .step 1 .go] ++ receivesClose 21) = some s ∧
      s.tasks = [⟨.reader c, none⟩,
        ⟨.holder h, some (.start (.answer (@readyPacket usize64 oneRequest ⟨0, ⟨1⟩⟩ ⟨21⟩)))⟩] ∧
      c.pc = .received ⟨.close, 21, 0, []⟩ ∧ h.holder.pending = some ⟨⟨21⟩, 0, [115]⟩ ∧
      @State.step usize64 oneRequest s (.step 0 .go) = some s1 ∧
      Runs.exec (@State.step usize64 oneRequest) s1 givesBack = some s' ∧
      s1.sh.incoming = [] ∧ s'.sh.incoming = [⟨⟨21⟩, 0, [115]⟩] :=
  ⟨_, _, _, _, _, rfl, rfl, rfl, rfl, rfl, rfl, rfl, rfl⟩

end LibAdb.Split
