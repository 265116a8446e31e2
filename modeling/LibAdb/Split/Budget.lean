import LibAdb.Split.Requests

/-!
# LibAdb.Split.Budget — how many requests wait for a decision

`Shared.undecided` counts the requests that are queued or staged.  Only the `Reader` can raise the count over
`max_channels`, by one, when it stages a request it is going to refuse, and it does so only when it has seen no leftover
of an earlier refusal: `Budget`.  What it relies on is that a count over `max_channels` shows in the queue.  A request
that is handed out from such a queue takes that away, and the bound with it (`dropped_refusals_pile_up`); in the runs in
which none is, the bound holds (`requests_bounded`).
-/

namespace LibAdb.Split

open Runs Tasks

variable [Usize] {ng : Negotiated} {sh sh' : Shared} {use : Option Use}

/-! ## Refusals -/

omit [Usize] in
/-- An entry that is on the list comes off it. -/
theorem length_unstaged {l : List (RemoteId × ℕ)} {id : RemoteId} {f : ℕ} (h : (id, f) ∈ l) :
    (l.filter fun entry => entry.2 ≠ f).length < l.length := by
  rw [List.length_filter_lt_length_iff_exists]
  exact ⟨(id, f), h, by simp⟩

/-- A verdict that leaves nothing of the request has consumed it. -/
def HolderCall.Clean (c : HolderCall) : Prop :=
  ∀ r, c.pc = .free r ∨ c.pc = .unstage r → r.settles = true → c.holder.pending = none

theorem HolderCall.Moves.clean {c c' : HolderCall} (h : c.Moves ng sh c' use sh') (hc : c.Clean) : c'.Clean := by
  cases h with
  | withdrawn => exact fun _ _ _ => rfl
  | frees r ch hpc => exact fun r' hr' hset => hc r' (by rcases hr' with hr' | hr' <;> cases hr'; exact Or.inl hpc) hset
  | noneReserved r hpc =>
    exact fun r' hr' hset => hc r' (by rcases hr' with hr' | hr' <;> cases hr'; exact Or.inl hpc) hset
  | _ => exact fun r' hr' => by rcases hr' with hr' | hr' <;> cases hr'

omit [Usize] in
theorem HolderCall.resume_clean {c : HolderCall} (hc : c.Clean) (r : Option Error) : (c.resume r).Clean := by
  obtain ⟨holder, pc⟩ := c
  cases r with
  | none => exact fun _ _ _ => by cases pc <;> rfl
  | some e =>
    by_cases hgone : connectionGone e = true
    · have hall : (some e).all connectionGone = true := hgone
      intro r' hr' hset
      unfold HolderCall.resume at hr' ⊢
      simp only [hall, if_true] at hr' ⊢
      cases pc <;> rfl
    · have hall : ¬ (some e).all connectionGone = true := hgone
      intro r' hr' hset
      unfold HolderCall.resume at hr' ⊢
      simp only [hall] at hr' ⊢
      cases pc with
      | readying | refusing | rejecting =>
        rcases hr' with hr' | hr' <;> cases hr'
        exact absurd hset hgone
      | _ => exact hc r' hr' hset

omit [Usize] in
theorem HolderCall.drop_clean {c c' : HolderCall} (h : c.drop = some c') : c'.Clean := by
  unfold HolderCall.drop at h
  split at h
  case h_5 => cases h
  all_goals
    cases h
    intro r' hr' hset
    rcases hr' with hr' | hr' <;> cases hr'
    cases hset

/-- The `Reader`'s part: a count over the limit shows in the queue or is a refusal of its own, and a call that may yet
receive has seen none. -/
structure Budget (limit : ℕ) (sh : Shared) (c : ReaderTask) : Prop where
  call : c.call ≠ .run
  bound : sh.undecided ≤ limit ∨ sh.undecided = limit + 1 ∧
    (sh.incoming ≠ [] ∨ ∃ h, ReaderTask.Refusing h c.pc ∧ h.live ≠ none)
  past : c.pc.past = true → (∀ h, c.pc ≠ .rejecting h) → sh.undecided ≤ limit
  refusal : ∀ h, ReaderTask.Refusing h c.pc → h.Clean ∧
    ∀ r, h.pc = .done r → r.settles = true → sh.undecided ≤ limit

namespace Budget

variable {limit : ℕ} {c c' : ReaderTask}

section

omit [Usize]

theorem le (h : Budget limit sh c) : sh.undecided ≤ limit + 1 := by
  rcases h.bound with h | ⟨h, -⟩ <;> omega

/-- A call with no refusal under way. -/
theorem calm (hcall : c'.call ≠ .run) (hno : ∀ h, ¬ ReaderTask.Refusing h c'.pc)
    (hbound : sh.undecided ≤ limit ∨ sh.undecided = limit + 1 ∧ sh.incoming ≠ [])
    (hpast : c'.pc.past = true → sh.undecided ≤ limit) : Budget limit sh c' where
  call := hcall
  bound := hbound.imp_right fun h => ⟨h.1, Or.inl h.2⟩
  past hp _ := hpast hp
  refusal h hpc := absurd hpc (hno h)

/-- Where no refusal is under way a count over the limit shows in the queue. -/
theorem shows (h : Budget limit sh c) (hno : ∀ h, ReaderTask.Refusing h c.pc → h.live = none) :
    sh.undecided ≤ limit ∨ sh.undecided = limit + 1 ∧ sh.incoming ≠ [] := by
  rcases h.bound with hle | ⟨heq, hq | ⟨hd, hpc, hlive⟩⟩
  · exact Or.inl hle
  · exact Or.inr ⟨heq, hq⟩
  · exact absurd (hno hd hpc) hlive

/-- What a call that is past the queue has seen. -/
theorem past_at {pc : ReaderPc} (h : Budget limit sh c) (hpc : c.pc = pc) (hpast : pc.past = true)
    (hrej : ∀ h, pc ≠ .rejecting h) : sh.undecided ≤ limit := by
  rw [← hpc] at hpast hrej
  exact h.past hpast hrej

/-- A call that was past the queue still is. -/
theorem stays {pc : ReaderPc} (h : Budget limit sh c) (hpc : c.pc = pc) (hpast : pc.past = true)
    (hrej : ∀ h, pc ≠ .rejecting h) (hcall : c'.call = c.call) (hno : ∀ h, ¬ ReaderTask.Refusing h c'.pc)
    (hd : SameDesk sh sh') : Budget limit sh' c' := by
  have hle := h.past_at hpc hpast hrej
  rw [← hd.undecided] at hle
  exact calm (by rw [hcall]; exact h.call) hno (Or.inl hle) fun _ => hle

/-- The step touches no request, and the call has none in hand before or after. -/
theorem goes (h : Budget limit sh c) (hno : ∀ h, ReaderTask.Refusing h c.pc → h.live = none)
    (hcall : c'.call = c.call) (hno' : ∀ h, ¬ ReaderTask.Refusing h c'.pc) (hd : SameDesk sh sh')
    (hpast : c'.pc.past = true → sh.undecided ≤ limit) : Budget limit sh' c' := by
  refine calm (by rw [hcall]; exact h.call) hno' ?_ (by rw [hd.undecided]; exact hpast)
  rw [hd.undecided, hd.incoming]
  exact h.shows hno

/-- A request the `Reader` has just taken for a refusal. -/
theorem refuses {h : Holder} {pc' : ReaderPc} (hcall : c.call ≠ .run)
    (hpc' : ReaderTask.Refusing ⟨h, .reject⟩ pc') (hpast : pc'.past = true → ∃ h, pc' = .rejecting h)
    (hle : sh.undecided ≤ limit + 1) : Budget limit sh (c.goto pc') where
  call := hcall
  bound := by
    by_cases hlt : sh.undecided ≤ limit
    · exact Or.inl hlt
    · exact Or.inr ⟨by omega, Or.inr ⟨_, hpc', by simp [HolderCall.live]⟩⟩
  past hp hrej := by
    obtain ⟨h', hh⟩ := hpast hp
    exact absurd hh (hrej h')
  refusal h' hh' := by
    have : h' = ⟨h, .reject⟩ := by
      cases hpc' <;> cases hh' <;> rfl
    subst this
    exact ⟨fun r hr => (by rcases hr with hr | hr <;> cases hr), fun r hr => (by cases hr)⟩

end

theorem passes (h : Budget limit sh c) (hl : c.pc.light = true)
    {pc' : ReaderPc} (hmax : ng.config.maxChannels = limit) (hp : c.Passes ng sh pc') (hpast : pc'.past = true) :
    sh.undecided ≤ limit := by
  have hshows := h.shows fun hd hpc => absurd hpc (ReaderTask.not_refusing hl hd)
  have hnone : ∀ cap, cap ≤ limit → sh.takeIncomingPast cap = none → sh.undecided ≤ limit := by
    intro cap hcap ht
    rcases Shared.takeIncomingPast_none ht with hle | hnil
    · omega
    · exact hshows.elim id fun hq => absurd hnil hq.2
  rcases hp hpast with hpast | ⟨-, hdrain⟩ | ⟨-, hrun | hout⟩ | ⟨-, hrefuse⟩
  · exact h.past hpast fun hd heq => by rw [heq] at hl; cases hl
  · exact hnone _ hmax.le hdrain
  · exact absurd hrun h.call
  · exact hnone 0 (Nat.zero_le _) (Option.map_eq_none_iff.mp hout)
  · exact hnone 0 (Nat.zero_le _) hrefuse

omit [Usize] in
theorem refusing_unique {h h' : HolderCall} {pc : ReaderPc} (hpc : ReaderTask.Refusing h pc)
    (hpc' : ReaderTask.Refusing h' pc) : h' = h := by
  cases hpc <;> cases hpc' <;> rfl

/-- A step of a refusal. -/
theorem inner {h h' : HolderCall} {pc' : ReaderPc} (hb : Budget limit sh c) (hpc : ReaderTask.Refusing h c.pc)
    (hpc' : ReaderTask.Refusing h' pc') (hm : h.Moves ng sh h' use sh')
    (hstaged : ∀ f, h.live = some f → ∃ id, (id, f) ∈ sh.staged) : Budget limit sh' (c.goto pc') := by
  obtain ⟨hclean, hsettled⟩ := hb.refusal h hpc
  have hpast : (c.goto pc').pc.past = true → (∀ h, (c.goto pc').pc ≠ .rejecting h) → sh'.undecided ≤ limit := by
    intro hp hrej
    cases hpc' with
    | draining | refusing => cases hp
    | rejecting => exact absurd rfl (hrej h')
  have hle := hb.le
  -- until the destructor has unstaged the request the count is the same
  have hgoes : SameDesk sh sh' → h'.live ≠ none → Budget limit sh' (c.goto pc') := by
    intro hd hlive
    refine ⟨hb.call, ?_, hpast, fun h1 hpc1 => ?_⟩
    · rw [hd.undecided]
      by_cases hlt : sh.undecided ≤ limit
      · exact Or.inl hlt
      · exact Or.inr ⟨by omega, Or.inr ⟨h', hpc', hlive⟩⟩
    · obtain rfl := refusing_unique hpc' hpc1
      refine ⟨hm.clean hclean, fun r hr => ?_⟩
      exact absurd (by rw [HolderCall.live, hr]) hlive
  have hends : ∀ r, h'.pc = .done r → (sh'.undecided ≤ limit ∨ sh'.undecided = limit + 1 ∧ sh'.incoming ≠ []) →
      (r.settles = true → sh'.undecided ≤ limit) → Budget limit sh' (c.goto pc') := by
    intro r hdone hbound hset
    refine ⟨hb.call, hbound.imp_right fun h => ⟨h.1, Or.inl h.2⟩, hpast, fun h1 hpc1 => ?_⟩
    obtain rfl := refusing_unique hpc' hpc1
    refine ⟨hm.clean hclean, fun r' hr' => ?_⟩
    cases hdone.symm.trans hr'
    exact hset
  cases hm with
  | withdrawn | noSlot | rejects | noneReserved => exact hgoes (.refl _) (by simp [HolderCall.live, HolderCall.goto])
  | reserves | frees => exact hgoes ⟨rfl, rfl, rfl⟩ (by simp [HolderCall.live])
  | ends r hpc1 =>
    obtain ⟨id, hid⟩ := hstaged h.holder.flag (by rw [HolderCall.live, hpc1])
    have hlt := length_unstaged hid
    have hless : (sh.staged.filter fun entry => entry.2 ≠ h.holder.flag).length + sh.incoming.length ≤ limit := by
      unfold Shared.undecided at hle
      omega
    exact hends r rfl (Or.inl hless) fun _ => hless
  | returns r pending hpc1 hp =>
    obtain ⟨id, hid⟩ := hstaged h.holder.flag (by rw [HolderCall.live, hpc1])
    have hlt := length_unstaged hid
    have hless : (sh.staged.filter fun entry => entry.2 ≠ h.holder.flag).length + (pending :: sh.incoming).length ≤
        limit + 1 := by
      unfold Shared.undecided at hle
      rw [List.length_cons]
      omega
    refine hends r rfl ?_ fun hset => ?_
    · by_cases hfit : (sh.staged.filter fun entry => entry.2 ≠ h.holder.flag).length + (pending :: sh.incoming).length ≤
          limit
      · exact Or.inl hfit
      · exact Or.inr ⟨Nat.le_antisymm hless (Nat.lt_of_not_le hfit), List.cons_ne_nil _ _⟩
    · cases (hclean r (Or.inr hpc1) hset).symm.trans hp

/-- **A step of the `Reader`.** -/
theorem reader (hb : Budget limit sh c) (hmax : ng.config.maxChannels = limit) (hm : c.Moves ng sh c' use sh')
    (hstaged : ∀ f, c.flag = some f → ∃ id, (id, f) ∈ sh.staged)
    (hspare : c.pc = .serve → c.call ≠ .run → sh.undecided ≤ limit ∨ sh.incoming.length ≠ 1) :
    Budget limit sh' c' := by
  cases hm with
  | plain c' use sh' hl hl' huse hsaid hp =>
    exact hb.goes (fun h hpc => absurd hpc (ReaderTask.not_refusing hl h)) hl'.call
      (ReaderTask.not_refusing hl'.light) hsaid.desk (hb.passes hl hmax hp)
  | ends e sh' hpc hsaid =>
    refine hb.goes (fun h hpc' => by rw [hpc] at hpc'; cases hpc') (ReaderTask.Light.unwind c).call
      (ReaderTask.not_refusing (ReaderTask.Light.unwind c).light) (hsaid.desk.before ⟨rfl, rfl, rfl⟩) fun hp => ?_
    cases (ReaderTask.unwind_past c).symm.trans hp
  | allocates destination ch u sh' hpc htake =>
    exact hb.goes (fun h hpc' => by rw [hpc] at hpc'; cases hpc') rfl (fun _ hpc' => by cases hpc')
      (takeSlot_desk htake) fun hp => by cases hp
  | takes ch want pc pc' d use sh' hcall hpc ht =>
    refine hb.goes (fun h hpc' => by rw [hpc] at hpc'; cases hpc') rfl (fun _ hpc' => by cases hpc') ht.desk
      fun hp => ?_
    exact hb.past_at hpc (by cases d <;> exact hp) fun _ hp => by cases hp
  | taken ch want pc d r sh1 hcall hpc ht =>
    obtain ⟨hl, -, hsaid⟩ := c.taken_said d r sh1
    refine hb.goes (fun h hpc' => by rw [hpc] at hpc'; cases hpc') hl.call (ReaderTask.not_refusing hl.light)
      (ht.desk.trans hsaid.desk) fun hp => ?_
    exact hb.past_at hpc (ReaderTask.taken_past hp) fun _ hp => by cases hp
  | drains h sh' hpc htake | refuses h sh' hpc htake =>
    obtain ⟨p, hq, hst, -, -, -⟩ := Shared.takeIncomingPast_inv htake
    refine Budget.refuses hb.call (by constructor) (fun hp => by cases hp) ?_
    have hle := hb.le
    unfold Shared.undecided at hle ⊢
    rw [hq, List.length_cons] at hle
    rw [hst, List.length_append, List.length_singleton]
    omega
  | handsOut h sh' hpc hcall htake =>
    obtain ⟨p, hq, hst, -, -⟩ := Shared.handOut_inv htake
    have hsum : sh'.undecided = sh.undecided := by
      unfold Shared.undecided
      rw [hq, hst, List.length_append, List.length_singleton, List.length_cons]
      omega
    refine calm hb.call (fun _ hpc' => by cases hpc') ?_ fun hp => by cases hp
    rw [hsum]
    rcases hb.shows (fun h hpc' => by rw [hpc] at hpc'; cases hpc') with hle | ⟨heq, -⟩
    · exact Or.inl hle
    · refine (hspare hpc hcall).imp_right fun hmore => ⟨heq, fun hnil => hmore ?_⟩
      rw [hq, hnil]
      rfl
  | inner h h' pc' use sh' hpc hpc' hm =>
    exact hb.inner hpc hpc' hm (by rw [← ReaderTask.flag_refusing hpc]; exact hstaged)
  | refused h r c' sh' hpc hdone hl' hsaid hp =>
    refine hb.goes (fun h' hpc' => ?_) hl'.call (ReaderTask.not_refusing hl'.light) hsaid.desk fun hpast => ?_
    · rw [refusing_unique hpc hpc', HolderCall.live, hdone]
    · exact (hb.refusal h hpc).2 r hdone (hp hpast).2
  | receives pkt hpc =>
    exact hb.stays hpc rfl (fun _ hp => by cases hp) rfl (fun _ hpc' => by cases hpc') (.refl _)
  | received pkt hpc =>
    have ht := c.receive_takes pkt sh
    exact hb.stays hpc rfl (fun _ hp => by cases hp) ht.call ht.refusing ht.desk
  | fails idx ids fault after hpc =>
    exact hb.stays hpc rfl (fun _ hp => by cases hp) rfl (fun _ hpc' => by cases hpc') (.failChannel _ _ _ _)
  | owes d after hpc =>
    exact hb.stays hpc rfl (fun _ hp => by cases hp) rfl (fun _ hpc' => by cases hpc') ⟨rfl, rfl, rfl⟩
  | queues pending sh' hpc hq =>
    unfold Shared.queueIncoming at hq
    split_ifs at hq with hfull
    cases hq
    have hle : sh.staged.length + (sh.incoming ++ [pending]).length ≤ limit := by
      rw [List.length_append, List.length_singleton]
      omega
    exact calm hb.call (fun _ hpc' => by cases hpc') (Or.inl hle) fun _ => hle
  | overflows pending hpc =>
    exact hb.stays hpc rfl (fun _ hp => by cases hp) rfl (fun _ hpc' => by cases hpc') (.refl _)
  | stages pending hpc =>
    have hle := hb.past_at hpc rfl fun _ hp => by cases hp
    refine Budget.refuses hb.call .rejecting (fun _ => ⟨_, rfl⟩) ?_
    unfold Shared.undecided at hle
    show (sh.staged ++ [(pending.remote, sh.cancelled.length)]).length + sh.incoming.length ≤ limit + 1
    rw [List.length_append, List.length_singleton]
    omega
  | withdraws remote hpc =>
    have hle := hb.past_at hpc rfl fun _ hp => by cases hp
    have hless : (sh.withdrawOpen remote).undecided ≤ limit := by
      unfold Shared.withdrawOpen
      split
      · exact hle
      · have := List.length_filter_le (fun p : PendingOpen => decide (p.remote ≠ remote)) sh.incoming
        unfold Shared.undecided at hle
        exact le_trans (Nat.add_le_add_left this _) hle
    exact calm hb.call (fun _ hpc' => by cases hpc') (Or.inl hless) fun _ => hless
  | looks d ch want hpc hcall hp =>
    exact hb.goes (fun h hpc' => absurd hpc' (ReaderTask.not_refusing hpc h)) rfl (fun _ hpc' => by cases hpc')
      (.refl _) (hb.passes hpc hmax hp)
  | unguards ch hpc =>
    refine hb.goes (fun h hpc' => by rw [hpc] at hpc'; cases hpc') (ReaderTask.Light.finish _).call
      (ReaderTask.not_refusing (ReaderTask.Light.finish _).light) (.dropSlot _ _) fun hp => ?_
    cases (ReaderTask.finish_past _).symm.trans hp
  | stops hpc =>
    exact hb.goes (fun h hpc' => by rw [hpc] at hpc'; cases hpc') rfl (fun _ hpc' => by cases hpc') ⟨rfl, rfl, rfl⟩
      fun hp => by cases hp

omit [Usize]

/-- The step of a refusal that is not a step of its own: its use of the write half has ended, or it was dropped. -/
theorem turns {h h' : HolderCall} {pc' : ReaderPc} (hb : Budget limit sh c) (hpc : ReaderTask.Refusing h c.pc)
    (hpc' : ReaderTask.Refusing h' pc') (hclean : h'.Clean) (hlive : h'.live = h.live)
    (hdone : ∀ r, h'.pc = .done r → h.pc = .done r) (hd : SameDesk sh sh') : Budget limit sh' (c.goto pc') where
  call := hb.call
  bound := by
    rw [hd.undecided, hd.incoming]
    refine hb.bound.imp_right fun ⟨heq, hor⟩ => ⟨heq, hor.imp_right fun ⟨h1, hpc1, hl1⟩ => ⟨h', hpc', ?_⟩⟩
    rw [hlive, ← refusing_unique hpc hpc1]
    exact hl1
  past hp hrej := by
    cases hpc' with
    | draining | refusing => cases hp
    | rejecting => exact absurd rfl (hrej h')
  refusal h1 hpc1 := by
    obtain rfl := refusing_unique hpc' hpc1
    refine ⟨hclean, fun r hr hset => ?_⟩
    rw [hd.undecided]
    exact (hb.refusal h hpc).2 r (hdone r hr) hset

theorem resume (hb : Budget limit sh c) (r : Option Error) (hd : SameDesk sh sh') (hr : c.Resumes r c') :
    Budget limit sh' c' := by
  cases hr with
  | light c' hl hl' hp =>
    exact hb.goes (fun h hpc => absurd hpc (ReaderTask.not_refusing hl h)) hl'.call
      (ReaderTask.not_refusing hl'.light) hd fun hpast => hb.past (hp hpast) fun h heq => by rw [heq] at hl; cases hl
  | prePaid ch want hpc =>
    exact hb.goes (fun h hpc' => by rw [hpc] at hpc'; cases hpc') rfl (fun _ hpc' => by cases hpc') hd nofun
  | acked d hpc =>
    exact hb.goes (fun h hpc' => by rw [hpc] at hpc'; cases hpc') rfl (fun _ hpc' => by cases hpc') hd fun hp =>
      hb.past_at hpc (by cases d <;> exact hp) fun _ hp => by cases hp
  | inner h pc' hpc hpc' =>
    exact hb.turns hpc hpc' (HolderCall.resume_clean (hb.refusal h hpc).1 r) (h.resume_live r) (h.resume_done r) hd
  | same =>
    refine ⟨hb.call, ?_, ?_, ?_⟩
    · rw [hd.undecided, hd.incoming]
      exact hb.bound
    · rw [hd.undecided]
      exact hb.past
    · rw [hd.undecided]
      exact hb.refusal

theorem drop (hb : Budget limit sh c) (hd : SameDesk sh sh') (hdrop : c.Drops c') : Budget limit sh' c' := by
  cases hdrop with
  | unwinds hno hflag =>
    refine hb.goes (fun h hpc => absurd hpc (hno h)) (ReaderTask.Light.unwind c).call
      (ReaderTask.not_refusing (ReaderTask.Light.unwind c).light) hd fun hp => ?_
    exact nomatch (ReaderTask.unwind_past c).symm.trans hp
  | inner h h' pc' hpc hpc' hpast hdr =>
    exact hb.turns hpc hpc' (HolderCall.drop_clean hdr) (HolderCall.drop_live hdr)
      (fun r hr => absurd hr (HolderCall.drop_done hdr)) hd

/-- A step of another task that takes none off the queue that a count over the limit needs there. -/
theorem other (hb : Budget limit sh c) (hle : sh'.undecided ≤ sh.undecided)
    (hkeep : limit < sh'.undecided → sh.incoming ≠ [] → sh'.incoming ≠ []) : Budget limit sh' c where
  call := hb.call
  bound := by
    rcases hb.bound with h | ⟨heq, hor⟩
    · exact Or.inl (hle.trans h)
    · by_cases hlt : sh'.undecided ≤ limit
      · exact Or.inl hlt
      · exact Or.inr ⟨by omega, hor.imp_left (hkeep (by omega))⟩
  past hp hrej := hle.trans (hb.past hp hrej)
  refusal h hpc := ⟨(hb.refusal h hpc).1, fun r hr hset => hle.trans ((hb.refusal h hpc).2 r hr hset)⟩

end Budget

/-! ## Runs -/

/-- The points at which a call hands the oldest request of the queue to the application. -/
def Ctl.handsOut : Ctl → Bool
  | .listen c => c.pc == .take
  | .reader c => c.pc == .serve && c.call != .run
  | _ => false

/-- The events that take no request off a queue that is all there is to be seen of a count over the limit; and no
`run`, which receives without a look at the queue. -/
def State.spares (ng : Negotiated) (s : State) : Event → Bool
  | .begin _ call => call != .run
  | .step i _ =>
    (s.tasks[i]?).all fun t =>
      !t.ctl.handsOut || decide (s.sh.undecided ≤ ng.config.maxChannels) || s.sh.incoming.length != 1
  | _ => true

def Ctl.isReader : Ctl → Bool
  | .reader _ => true
  | _ => false

theorem Task.Moves.isReader {i : ℕ} {t t' : Task} {e : Event} (h : t.Moves ng i sh e t' sh') :
    t'.ctl.isReader = t.ctl.isReader := by
  cases h with
  | ctl a ctl' use' sh' hu hm =>
    generalize t.ctl = ctl at hm
    cases hm <;> rfl
  | more => rfl
  | ended u a r sh1 hu hm => cases hctl : t.ctl <;> rfl
  | cancel u ctl' sh' hu hc hd =>
    cases hctl : t.ctl <;> rw [hctl] at hc <;>
      first | cases hc | (obtain ⟨c', -, rfl⟩ := Option.map_eq_some_iff.mp hc; rfl)
  | drop u ctl' sh' hu hc hd | dropIdle ctl' hu hc =>
    cases hctl : t.ctl <;> rw [hctl] at hc <;> (obtain ⟨c', -, rfl⟩ := Option.map_eq_some_iff.mp hc; rfl)
  | begin c call c' hu hctl | decide c accept hu hctl | dropReader c hu hctl => rw [hctl]; rfl

omit [Usize] in
theorem Ctl.handOver_isReader {ctl ctl' : Ctl} {h : Holder} (hh : ctl.handOver = some (h, ctl')) :
    ctl'.isReader = ctl.isReader := by
  unfold Ctl.handOver at hh
  split at hh
  · split at hh <;> cases hh
    rfl
  · split at hh <;> cases hh
    rfl
  · cases hh

/-- What the other tasks do to the count. -/
structure Eases (limit : ℕ) (sh sh' : Shared) : Prop where
  le : sh'.undecided ≤ sh.undecided
  keeps : limit < sh'.undecided → sh.incoming ≠ [] → sh'.incoming ≠ []

omit [Usize] in
theorem Eases.same {limit : ℕ} (h : SameDesk sh sh') : Eases limit sh sh' :=
  ⟨h.undecided.le, fun _ hq => by rw [h.incoming]; exact hq⟩

theorem HolderCall.Moves.eases {c c' : HolderCall} {limit : ℕ} (hm : c.Moves ng sh c' use sh')
    (hstaged : ∀ f, c.live = some f → ∃ id, (id, f) ∈ sh.staged) : Eases limit sh sh' := by
  cases hm with
  | ends r hpc =>
    obtain ⟨id, hid⟩ := hstaged c.holder.flag (by rw [HolderCall.live, hpc])
    exact ⟨Nat.add_le_add_right (length_unstaged hid).le _, fun _ hq => hq⟩
  | returns r pending hpc =>
    obtain ⟨id, hid⟩ := hstaged c.holder.flag (by rw [HolderCall.live, hpc])
    have hlt := length_unstaged hid
    refine ⟨?_, fun _ _ => List.cons_ne_nil _ _⟩
    show (sh.staged.filter fun entry => entry.2 ≠ c.holder.flag).length + (pending :: sh.incoming).length ≤
      sh.staged.length + sh.incoming.length
    rw [List.length_cons]
    omega
  | _ => exact .same ⟨rfl, rfl, rfl⟩

omit [Usize] in
theorem ListenCall.Moves.eases {c c' : ListenCall} {limit : ℕ} (hm : c.Moves sh c' use sh')
    (hspare : c.pc = .take → sh.undecided ≤ limit ∨ sh.incoming.length ≠ 1) : Eases limit sh sh' := by
  cases hm with
  | idle => exact .same (.refl _)
  | takes hd sh' hpc hout =>
    obtain ⟨p, hq, hst, -, -⟩ := Shared.handOut_inv hout
    have hsum : sh'.undecided = sh.undecided := by
      unfold Shared.undecided
      rw [hq, hst, List.length_append, List.length_singleton, List.length_cons]
      omega
    refine ⟨hsum.le, fun hover _ hnil => ?_⟩
    rcases hspare hpc with hle | hmore
    · omega
    · rw [hq, hnil] at hmore
      exact hmore rfl

/-- **A step of any other task.** -/
theorem Task.Moves.eases {i : ℕ} {t t' : Task} {e : Event} {limit : ℕ} (h : t.Moves ng i sh e t' sh')
    (hother : t.ctl.isReader = false) (hstaged : ∀ f, t.ctl.flag = some f → ∃ id, (id, f) ∈ sh.staged)
    (hspare : (∃ a, e = .step i a) → t.ctl.handsOut = true → sh.undecided ≤ limit ∨ sh.incoming.length ≠ 1) :
    Eases limit sh sh' := by
  cases h with
  | ctl a ctl' use' sh' hu hm =>
    generalize t.ctl = ctl at *
    cases hm with
    | write _ _ _ _ hm => exact .same hm.desk
    | close _ _ _ _ hm => exact .same (by cases hm <;> exact ⟨rfl, rfl, rfl⟩)
    | read _ _ _ _ hm => exact .same hm.desk
    | «open» _ _ _ _ hm => exact .same hm.desk
    | holder _ _ _ _ hm => exact hm.eases hstaged
    | listen c c' _ _ hm => exact hm.eases fun hpc => hspare ⟨a, rfl⟩ (by simp [Ctl.handsOut, hpc])
    | reader => cases hother
  | more u a u' sh' hu hm => exact .same hm.desk
  | ended u a r sh1 hu hm => exact .same (hm.desk.trans (t.ctl.resume_desk r sh1).2)
  | cancel u ctl' sh' hu hc hd => exact .same (Use.drop_desk hd)
  | drop u ctl' sh' hu hc hd => exact .same (Use.drop_desk hd)
  | dropIdle | begin | decide | dropReader => exact .same (.refl _)

/-- **A step of the task that is the `Reader`.** -/
theorem Task.Moves.budget {i : ℕ} {t t' : Task} {e : Event} {limit : ℕ} {c : ReaderTask}
    (h : t.Moves ng i sh e t' sh') (hctl : t.ctl = .reader c) (hb : Budget limit sh c)
    (hmax : ng.config.maxChannels = limit) (hstaged : ∀ f, c.flag = some f → ∃ id, (id, f) ∈ sh.staged)
    (hrun : ∀ j, e ≠ .begin j .run)
    (hspare : (∃ a, e = .step i a) → t.ctl.handsOut = true → sh.undecided ≤ limit ∨ sh.incoming.length ≠ 1) :
    ∃ c', t'.ctl = .reader c' ∧ Budget limit sh' c' := by
  cases h with
  | ctl a ctl' use' sh' hu hm =>
    rw [hctl] at hm hspare
    cases hm with
    | reader _ c' _ _ hm =>
      refine ⟨c', rfl, hb.reader hmax hm hstaged fun hpc hcall => hspare ⟨a, rfl⟩ ?_⟩
      simp [Ctl.handsOut, hpc, hcall]
  | more u a u' sh' hu hm => exact ⟨c, hctl, hb.resume none hm.desk .same⟩
  | ended u a r sh1 hu hm =>
    obtain ⟨hres, hsaid⟩ := c.resume_resumes r sh1
    refine ⟨(c.resume r sh1).1, by rw [hctl]; rfl, ?_⟩
    have hsh : (t.ctl.resume r sh1).2 = (c.resume r sh1).2 := by rw [hctl]; rfl
    rw [hsh]
    exact hb.resume r (hm.desk.trans hsaid.desk) hres
  | cancel u ctl' sh' hu hc hd =>
    rw [hctl] at hc
    obtain ⟨c', hc', rfl⟩ := Option.map_eq_some_iff.mp hc
    obtain ⟨d, hpc, rfl⟩ := ReaderTask.cancel_inv hc'
    exact ⟨_, rfl, hb.resume none (Use.drop_desk hd) (.acked d hpc)⟩
  | drop u ctl' sh' hu hc hd =>
    rw [hctl] at hc
    obtain ⟨c', hc', rfl⟩ := Option.map_eq_some_iff.mp hc
    exact ⟨c', rfl, hb.drop (Use.drop_desk hd) (ReaderTask.drop_drops hc')⟩
  | dropIdle ctl' hu hc =>
    rw [hctl] at hc
    obtain ⟨c', hc', rfl⟩ := Option.map_eq_some_iff.mp hc
    exact ⟨c', rfl, hb.drop (.refl _) (ReaderTask.drop_drops hc')⟩
  | begin c0 call c' hu hctl0 hbegin =>
    cases hctl.symm.trans hctl0
    obtain ⟨hidle, hcall, hl, hpast⟩ := ReaderTask.begin_inv hbegin
    refine ⟨c', rfl, Budget.calm ?_ (ReaderTask.not_refusing hl) ?_ fun hp => nomatch hpast.symm.trans hp⟩
    · rw [hcall]
      exact fun hrun' => hrun i (by rw [hrun'])
    · exact hb.shows fun h hpc => by rw [hidle] at hpc; cases hpc
  | decide c0 accept hu hctl0 => cases hctl.symm.trans hctl0
  | dropReader c0 hu hctl0 hidle =>
    cases hctl.symm.trans hctl0
    exact ⟨_, rfl, hb.goes (fun h hpc => by rw [hidle] at hpc; cases hpc) rfl (fun _ hpc => by cases hpc) (.refl _)
      nofun⟩

/-- The invariant of a whole connection: one `Reader`, the first task. -/
structure RequestInv (limit : ℕ) (s : State) : Prop where
  flags : Flags s
  reader : ∃ c use, s.tasks[0]? = some ⟨.reader c, use⟩ ∧ Budget limit s.sh c
  only : ∀ (i : ℕ) (t : Task), s.tasks[i]? = some t → t.ctl.isReader = true → i = 0

namespace RequestInv

variable {limit : ℕ} {s s' : State} {e : Event}

theorem task {i : ℕ} {t t' : Task} (h : RequestInv limit s) (hmax : ng.config.maxChannels = limit)
    (ht : s.tasks[i]? = some t) (hm : t.Moves ng i s.sh e t' sh') (hrun : ∀ j, e ≠ .begin j .run)
    (hspare : (∃ a, e = .step i a) → t.ctl.handsOut = true →
      s.sh.undecided ≤ limit ∨ s.sh.incoming.length ≠ 1) :
    RequestInv limit (s.set i t' sh') := by
  obtain ⟨c, use, h0, hb⟩ := h.reader
  have hstaged : ∀ f, t.ctl.flag = some f → ∃ id, (id, f) ∈ s.sh.staged := fun f hf => (h.flags.own i t ht f hf).2
  refine ⟨h.flags.task ht hm, ?_, fun j u hu hisr => ?_⟩
  · by_cases hi : i = 0
    · subst hi
      cases h0.symm.trans ht
      obtain ⟨c', hctl', hb'⟩ := hm.budget rfl hb hmax hstaged hrun hspare
      refine ⟨c', t'.use, ?_, hb'⟩
      rw [State.set_tasks, List.getElem?_set_self', h0, ← hctl']
      rfl
    · have hother : t.ctl.isReader = false := by
        cases hisr : t.ctl.isReader with
        | false => rfl
        | true => exact absurd (h.only i t ht hisr) hi
      have heases : Eases limit s.sh sh' := hm.eases hother hstaged hspare
      refine ⟨c, use, ?_, hb.other heases.le heases.keeps⟩
      rw [State.set_tasks, List.getElem?_set_ne hi]
      exact h0
  · rcases getElem?_set_cases hu with ⟨rfl, rfl⟩ | ⟨-, hu'⟩
    · exact h.only j t ht (hm.isReader.symm.trans hisr)
    · exact h.only j u hu' hisr

omit [Usize] in
theorem append {t : Task} (h : RequestInv limit s) (hflag : t.ctl.flag = none) (hother : t.ctl.isReader = false) :
    RequestInv limit ⟨s.sh, s.tasks ++ [t]⟩ := by
  obtain ⟨c, use, h0, hb⟩ := h.reader
  refine ⟨h.flags.append hflag, ⟨c, use, ?_, hb⟩, fun i u hu hisr => ?_⟩
  · rw [List.getElem?_append_left (List.getElem?_eq_some_iff.mp h0).1]
    exact h0
  · rw [List.getElem?_append] at hu
    split_ifs at hu with hi
    · exact h.only i u hu hisr
    · obtain rfl : u = t := by simpa using List.mem_of_getElem? hu
      cases hother.symm.trans hisr

omit [Usize] in
theorem handOver {i : ℕ} {t : Task} {hd : Holder} {ctl' : Ctl} (h : RequestInv limit s) (ht : s.tasks[i]? = some t)
    (hh : t.ctl.handOver = some (hd, ctl')) :
    RequestInv limit ⟨s.sh, s.tasks.set i ⟨ctl', none⟩ ++ [⟨.holder ⟨hd, .held⟩, none⟩]⟩ := by
  obtain ⟨c, use, h0, hb⟩ := h.reader
  have hlen : 0 < (s.tasks.set i ⟨ctl', none⟩).length := by
    rw [List.length_set]
    exact (List.getElem?_eq_some_iff.mp h0).1
  have hsame := Ctl.handOver_isReader hh
  refine ⟨h.flags.handOver ht hh, ?_, fun j u hj hisr => ?_⟩
  · by_cases hi : i = 0
    · subst hi
      cases h0.symm.trans ht
      -- the `Reader` returns the request and is idle
      have hpc : ∃ h', c.pc = .handOver h' ∧ ctl' = .reader c.finish := by
        unfold Ctl.handOver at hh
        dsimp only at hh
        split at hh
        · rename_i h' hpc
          cases hh
          exact ⟨_, hpc, rfl⟩
        · cases hh
      obtain ⟨h', hpc, rfl⟩ := hpc
      refine ⟨c.finish, none, ?_, ?_⟩
      · rw [List.getElem?_append_left hlen, List.getElem?_set_self', h0]
        rfl
      · refine hb.goes (fun h1 hpc1 => by rw [hpc] at hpc1; cases hpc1) (ReaderTask.Light.finish c).call
          (ReaderTask.not_refusing (ReaderTask.Light.finish c).light) (.refl _) fun hp => ?_
        exact nomatch (ReaderTask.finish_past c).symm.trans hp
    · refine ⟨c, use, ?_, hb⟩
      rw [List.getElem?_append_left hlen, List.getElem?_set_ne hi]
      exact h0
  · rw [List.getElem?_append] at hj
    split_ifs at hj with hjl
    · rcases getElem?_set_cases hj with ⟨rfl, rfl⟩ | ⟨-, hj'⟩
      · exact h.only j t ht (hsame.symm.trans hisr)
      · exact h.only j u hj' hisr
    · obtain rfl : u = ⟨.holder ⟨hd, .held⟩, none⟩ := by simpa using List.mem_of_getElem? hj
      cases hisr

/-- **One event.** -/
theorem moves (h : RequestInv limit s) (hmax : ng.config.maxChannels = limit) (hspare : s.spares ng e = true)
    (hm : s.Moves ng e s') : RequestInv limit s' := by
  cases hm with
  | task i e t t' sh' ht hm =>
    refine h.task hmax ht hm ?_ ?_
    · rintro j rfl
      cases hspare
    · rintro ⟨a, rfl⟩ hout
      simp only [State.spares, ht, Option.all_some, hout, Bool.not_true, Bool.false_or, Bool.or_eq_true,
        decide_eq_true_eq, bne_iff_ne, hmax] at hspare
      exact hspare
  | call c => exact h.append (by cases c <;> rfl) (by cases c <;> rfl)
  | handOver i t hd ctl' ht hu hh => exact h.handOver ht hh
  | listeners e n he =>
    obtain ⟨c, use, h0, hb⟩ := h.reader
    exact ⟨⟨h.flags.own, h.flags.apart⟩, ⟨c, use, h0, ⟨hb.call, hb.bound, hb.past, hb.refusal⟩⟩, h.only⟩

omit [Usize] in
theorem start (table : ChannelTable) (incoming : IncomingQueue) (desync : Bool)
    (hqueue : incoming.length ≤ limit + 1) : RequestInv limit (State.start table incoming desync) := by
  refine ⟨⟨fun i t ht f hf => ?_, fun i j ti tj f hi hj _ _ => ?_⟩, ⟨.fresh, none, rfl, ?_⟩,
    fun i t ht _ => (State.start_task ht).1⟩
  · obtain ⟨-, rfl⟩ := State.start_task ht
    cases hf
  · rw [(State.start_task hi).1, (State.start_task hj).1]
  · refine Budget.calm nofun (fun _ hpc => by cases hpc) ?_ nofun
    have hsum : (State.start table incoming desync).sh.undecided = incoming.length := Nat.zero_add _
    rw [hsum]
    by_cases hle : incoming.length ≤ limit
    · exact Or.inl hle
    · refine Or.inr ⟨by omega, fun hnil => hle ?_⟩
      rw [show incoming = [] from hnil]
      exact Nat.zero_le _

end RequestInv

/-- **The budget for undecided requests.**  In every run in which no request is handed out from a queue that alone
shows a count over `max_channels`, at most one request more than `max_channels` is queued or in hand at any time. -/
theorem requests_bounded (table : ChannelTable) (incoming : IncomingQueue) (desync : Bool)
    (hqueue : incoming.length ≤ ng.config.maxChannels + 1) {es : List Event} {s : State}
    (hrun : Run (State.step ng) (fun s e => s.spares ng e = true) (State.start table incoming desync) es s) :
    s.sh.staged.length + s.sh.incoming.length ≤ ng.config.maxChannels + 1 := by
  have hinv : RequestInv ng.config.maxChannels s :=
    hrun.invariant (.start table incoming desync hqueue) fun a e b ha hP hs =>
      ha.moves rfl hP (State.step_moves hs)
  obtain ⟨c, use, -, hb⟩ := hinv.reader
  exact hb.le

end LibAdb.Split

namespace LibAdb.Split

/-- The small connection with room for one request. -/
def oneRequest : @Negotiated usize64 :=
  @Negotiated.mk usize64 8192 0x01000001 (@ConnectionConfig.withMaxChannels usize64 (@ConnectionConfig.embedded usize64) 1)
    true

def oneSlot : ChannelTable := ⟨[none], 1, @Negotiated.rxPolicy usize64 oneRequest⟩

/-- `dispatch_one` takes in the device's OPEN, which finds room in the queue. -/
def queuesOpen (id : UInt32) : List Event :=
  [.begin 0 .dispatchOne, .step 0 .go, .step 0 .go, .step 0 .go, .step 0 .go,
    .step 0 (.packet ⟨.«open», id, 0, [115]⟩), .step 0 .go, .step 0 .go, .step 0 .go]

/-- The application takes the oldest request with `try_accept_incoming` and keeps it. -/
def takesRequest : List Event := [.begin 0 .tryAccept, .step 0 .go, .handOver 0]

/-- `dispatch_one` takes in an OPEN there is no room for and is dropped where its CLSE waits for the write half. -/
def dropsRefusal (id : UInt32) : List Event :=
  [.begin 0 .dispatchOne, .step 0 .go, .step 0 .go, .step 0 .go, .step 0 .go,
    .step 0 (.packet ⟨.«open», id, 0, [115]⟩), .step 0 .go, .step 0 .go, .step 0 .go, .step 0 .go, .drop 0,
    .step 0 .go, .step 0 .go, .step 0 .go]

set_option maxRecDepth 20000 in
theorem requests_bounded_leftover :
    ∃ s, Runs.exec (Runs.guarded (@State.step usize64 oneRequest) (@State.spares usize64 oneRequest))
        (State.start oneSlot [] false) (queuesOpen 21 ++ takesRequest ++ dropsRefusal 22) = some s ∧
      s.sh.staged.length + s.sh.incoming.length = 2 ∧
      s.sh.staged.length + s.sh.incoming.length ≤ @ConnectionConfig.maxChannels usize64 (@Negotiated.config usize64 oneRequest) + 1 := by
  have bounded : ∀ s, Runs.exec (Runs.guarded (@State.step usize64 oneRequest) (@State.spares usize64 oneRequest))
      (State.start oneSlot [] false) (queuesOpen 21 ++ takesRequest ++ dropsRefusal 22) = some s →
      s.sh.staged.length + s.sh.incoming.length ≤ @ConnectionConfig.maxChannels usize64 (@Negotiated.config usize64 oneRequest) + 1 :=
    fun s h => @requests_bounded usize64 oneRequest oneSlot [] false (Nat.zero_le _) _ s
      (Runs.Run.of_guarded (fun _ _ hp => hp) h)
  exact ⟨_, rfl, rfl, bounded _ rfl⟩

set_option maxRecDepth 20000 in
/-- With `max_channels` one: a leftover is handed out, the drain of the next call finds the queue empty, and another
refusal is dropped.  Between calls two requests are held and one is queued. -/
theorem dropped_refusals_pile_up :
    ∃ s c, Runs.exec (@State.step usize64 oneRequest) (State.start oneSlot [] false)
        (queuesOpen 21 ++ takesRequest ++ dropsRefusal 22 ++ takesRequest ++ dropsRefusal 23) = some s ∧
      s.tasks[0]? = some ⟨.reader c, none⟩ ∧ c.pc = .idle ∧
      ¬ s.sh.staged.length + s.sh.incoming.length ≤ @ConnectionConfig.maxChannels usize64 (@Negotiated.config usize64 oneRequest) + 1 := by
  refine ⟨_, _, rfl, rfl, rfl, ?_⟩
  decide

end LibAdb.Split
