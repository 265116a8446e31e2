import LibAdb.Sync.Replies
import LibAdb.Sync.Push
import LibAdb.Shell.Sending

/-!
# LibAdb.Sync.Sending — what sending leaves alone

`write_message` of `sync.rs` puts a message together behind the unread bytes or writes it in parts, like `send_frame` of
`shell/v2.rs` (`LibAdb.Shell.Sending`).  Either way the channel gets the same bytes, and what is pending stays.

`Settled` says that what a piece of code answers, and what it leaves pending, follows from what is pending and the
length of the buffer alone: not from where the cursors stand, nor from how the channel cuts its stream.  Every operation
is settled (`Op.settled`, `settled_recvNext`), so none can tell whether something was sent in front of it.
-/

namespace LibAdb.Sync

open SyncM

section Settled

variable {α β : Type} {k k' k'' n : ℕ}

/-- The answer, and what is left, follow from what is pending. -/
def Settled (m : SyncM α) (k k' : ℕ) : Prop :=
  ∀ cap p, (∃ a p', Runs m cap k p (.ok a) k' p') ∨ ∃ e p', Runs m cap k p (.error e) 0 p'

namespace Settled

theorem bind {m : SyncM α} {f : α → SyncM β} (hm : Settled m k k') (hf : ∀ a, Settled (f a) k' k'') :
    Settled (m >>= f) k k'' := by
  intro cap p
  rcases hm cap p with ⟨a, p1, h1⟩ | ⟨e, p1, h1⟩
  · rcases hf a cap p1 with ⟨b, p2, h2⟩ | ⟨e, p2, h2⟩
    · exact .inl ⟨b, p2, h1.bind h2⟩
    · exact .inr ⟨e, p2, h1.bind h2⟩
  · exact .inr ⟨e, p1, h1.bind_error⟩

theorem pure (a : α) : Settled (Pure.pure a : SyncM α) k k := fun _ p => .inl ⟨a, p, .pure a⟩

theorem fail (e : Error) : Settled (SyncM.fail e : SyncM α) k k' :=
  fun _ p => .inr ⟨e, p, (Runs.fail e).less (Nat.zero_le _)⟩

theorem less {m : SyncM α} (hm : Settled m k k') (h : k'' ≤ k') : Settled m k k'' := by
  intro cap p
  rcases hm cap p with ⟨a, p1, h1⟩ | herror
  · exact .inl ⟨a, p1, h1.less h⟩
  · exact .inr herror

theorem compact : Settled SyncM.compact k k := fun _ p => .inl ⟨(), p, .compact⟩

theorem peek (h : n ≤ k) : Settled (SyncM.peek n) k k := fun _ p => .inl ⟨p.take n, p, .peek h rfl⟩

theorem advance (h : n ≤ k) : Settled (SyncM.advance n) k (k - n) := fun _ p => .inl ⟨(), p.drop n, .advance h rfl⟩

theorem take (h : n ≤ k) : Settled (SyncM.take n) k (k - n) := fun _ p => .inl ⟨p.take n, p.drop n, .take h rfl rfl⟩

theorem fillAtLeast : Settled (SyncM.fillAtLeast n) k n := by
  intro cap p
  by_cases hn : n ≤ cap
  · by_cases hp : n ≤ p.length
    · exact .inl ⟨(), p, .fillAtLeast hn hp⟩
    · exact .inr ⟨_, p, .fillAtLeast_closed hn (not_le.mp hp)⟩
  · exact .inr ⟨_, p, .fillAtLeast_small (not_le.mp hn)⟩

/-- Code that looks at the length of the buffer. -/
theorem capacity {f : SyncSession → SyncM β}
    (h : ∀ cap, ∃ g : SyncM β, (∀ s : SyncSession, s.rx.capacity = cap → f s = g) ∧ Settled g k k') :
    Settled (state >>= f) k k' := by
  intro cap p
  obtain ⟨g, hg, hsettled⟩ := h cap
  rcases hsettled cap p with ⟨a, p1, h1⟩ | ⟨e, p1, h1⟩
  · refine .inl ⟨a, p1, runs_state fun s hs => ?_⟩
    rw [hg s hs.capacity]
    exact h1 s hs
  · refine .inr ⟨e, p1, runs_state fun s hs => ?_⟩
    rw [hg s hs.capacity]
    exact h1 s hs

end Settled

theorem settled_checkPath (path : Bytes) : Settled (checkPath path) k k := by
  unfold checkPath
  split_ifs
  · exact .fail _
  · exact .pure ()

theorem settled_check (r : Except Error α) : Settled (check r) k k := by
  cases r with
  | ok a => exact .pure a
  | error e => exact .fail e

theorem settled_writeMessage (id : SyncId) (arg : UInt32) (parts : List Bytes) :
    Settled (writeMessage id arg parts) k k := fun _ p => .inl ⟨(), p, runs_writeMessage id arg parts⟩

theorem settled_rounds : Settled rounds k k := fun _ p => .inl ⟨p.length + 1, p, runs_rounds⟩

theorem settled_peekU32 {offset : ℕ} (h : offset + 4 ≤ k) : Settled (peekU32 offset) k k :=
  (Settled.peek h).bind fun _ => .pure _

theorem settled_skip (fuel left : ℕ) : Settled (skip fuel left) k 0 := by
  induction fuel generalizing left k with
  | zero =>
    cases left with
    | zero => exact (Settled.pure ()).less (Nat.zero_le _)
    | succ left => exact .fail _
  | succ fuel ih =>
    cases left with
    | zero => exact (Settled.pure ()).less (Nat.zero_le _)
    | succ left =>
      unfold skip
      refine Settled.capacity fun cap => ⟨_, fun s hs => by rw [hs], ?_⟩
      exact Settled.fillAtLeast.bind fun _ => (Settled.advance le_rfl).bind fun _ => ih _

theorem settled_readFailBody (hk : headerSize ≤ k) : Settled readFailBody k 0 := by
  refine (settled_peekU32 hk).bind fun msgLen => (Settled.advance hk).bind fun _ => ?_
  refine Settled.capacity fun cap => ⟨_, fun s hs => by rw [hs], ?_⟩
  dsimp only
  split_ifs with hkept
  · refine Settled.fillAtLeast.bind fun _ => (Settled.take le_rfl).bind fun msg => ?_
    exact (settled_skip _ _).bind fun _ => .pure msg
  · refine (Settled.take (by omega)).bind fun msg => ?_
    exact (settled_skip _ _).bind fun _ => .pure msg

theorem settled_readNextId (allowed : List SyncId) : Settled (readNextId allowed) k headerSize := by
  refine Settled.fillAtLeast.bind fun _ => (Settled.peek (by decide)).bind fun raw => ?_
  split
  · exact (settled_readFailBody le_rfl).bind fun msg => .fail _
  · split_ifs
    · exact .pure _
    · exact .fail _
  · exact .fail _

theorem settled_stat (path : Bytes) : Settled (stat path) k 0 := by
  refine (settled_checkPath path).bind fun _ => Settled.compact.bind fun _ => ?_
  refine (settled_writeMessage _ _ _).bind fun _ => ?_
  refine (settled_readNextId _).bind fun _ => Settled.fillAtLeast.bind fun _ => ?_
  refine (settled_peekU32 (by decide)).bind fun mode => (settled_peekU32 (by decide)).bind fun size => ?_
  exact (settled_peekU32 (by decide)).bind fun mtime => (Settled.advance le_rfl).bind fun _ => .pure _

theorem settled_statV2 (advertises : Feature → Bool) (path : Bytes) : Settled (statV2 advertises path) k 0 := by
  refine (settled_checkPath path).bind fun _ => (settled_check _).bind fun _ => Settled.compact.bind fun _ => ?_
  refine (settled_writeMessage _ _ _).bind fun _ => ?_
  refine (settled_readNextId _).bind fun _ => Settled.fillAtLeast.bind fun _ => ?_
  refine (Settled.peek le_rfl).bind fun record => ?_
  refine (Settled.advance le_rfl).bind fun _ => ?_
  split_ifs
  · exact .fail _
  · exact .pure _

theorem settled_listLoop {ε : Type} (size : ℕ) (id : SyncId) (namelen : Bytes → ℕ) (entry : Bytes → Bytes → ε)
    (fuel : ℕ) (entries : List ε) : Settled (listLoop size id namelen entry fuel entries) k 0 := by
  induction fuel generalizing k entries with
  | zero => exact .fail _
  | succ fuel ih =>
    refine (settled_readNextId _).bind fun next => Settled.fillAtLeast.bind fun _ => ?_
    split_ifs
    · exact ((Settled.advance le_rfl).bind fun _ => .pure entries).less (Nat.zero_le _)
    · refine (Settled.peek le_rfl).bind fun record => (Settled.advance le_rfl).bind fun _ => ?_
      exact Settled.fillAtLeast.bind fun _ => (Settled.take le_rfl).bind fun name => ih _

theorem settled_list {ε : Type} (path : Bytes) (request : SyncId) (size : ℕ) (id : SyncId) (namelen : Bytes → ℕ)
    (entry : Bytes → Bytes → ε) :
    Settled (SyncM.compact >>= fun _ => writeRequest request [path] >>= fun _ =>
      rounds >>= fun fuel => listLoop size id namelen entry fuel []) k 0 :=
  Settled.compact.bind fun _ => (settled_writeMessage _ _ _).bind fun _ =>
    settled_rounds.bind fun fuel => settled_listLoop size id namelen entry fuel []

theorem settled_sendDone (mtime : UInt32) : Settled (sendDone mtime) k 0 := by
  have hheader : Settled (writeHeader .done mtime) k k := fun _ p => .inl ⟨(), p, .channelWrite _⟩
  refine hheader.bind fun _ => Settled.compact.bind fun _ => ?_
  exact (settled_readNextId _).bind fun _ => .advance le_rfl

variable [Usize]

theorem settled_recvNext : Settled recvNext k 0 := by
  refine Settled.compact.bind fun _ => (settled_readNextId _).bind fun next => ?_
  split_ifs
  · exact (Settled.advance le_rfl).bind fun _ => .pure _
  · refine (settled_peekU32 (by decide)).bind fun dataLen => ?_
    split_ifs
    · exact .fail _
    · refine Settled.fillAtLeast.bind fun _ => (Settled.advance (Nat.le_add_right _ _)).bind fun _ => ?_
      have htake : dataLen.toNat ≤ headerSize + dataLen.toNat - headerSize := by omega
      exact ((Settled.take htake).bind fun chunk => .pure _).less (Nat.zero_le _)

theorem settled_recvLoop (fuel : ℕ) (data : Bytes) : Settled (recvLoop fuel data) k 0 := by
  induction fuel generalizing k data with
  | zero => exact .fail _
  | succ fuel ih =>
    refine settled_recvNext.bind fun next => ?_
    cases next with
    | some chunk => exact ih _
    | none => exact .pure _

/-- **Every operation is settled.** -/
theorem Op.settled (advertises : Feature → Bool) (op : Op) : Settled (op.run advertises) k 0 := by
  cases op with
  | stat path => exact (settled_stat path).bind fun _ => .pure _
  | statV2 path => exact (settled_statV2 advertises path).bind fun _ => .pure _
  | list path =>
    refine Settled.bind ?_ fun _ => .pure _
    exact (settled_checkPath path).bind fun _ => settled_list path _ _ _ _ _
  | listV2 path =>
    refine Settled.bind ?_ fun _ => .pure _
    exact (settled_checkPath path).bind fun _ => (settled_check _).bind fun _ => settled_list path _ _ _ _ _
  | recv path =>
    refine Settled.bind ?_ fun _ => .pure _
    exact (settled_checkPath path).bind fun _ => Settled.compact.bind fun _ => (settled_writeMessage _ _ _).bind fun _ =>
      settled_rounds.bind fun fuel => settled_recvLoop fuel []
  | recvV2 path flags =>
    refine Settled.bind ?_ fun _ => .pure _
    exact (settled_checkPath path).bind fun _ => (settled_check _).bind fun _ =>
      (settled_writeMessage _ _ _).bind fun _ => settled_rounds.bind fun fuel => settled_recvLoop fuel []

/-- What may come after a message: an operation, the next chunk of a transfer, or the end of a push. -/
inductive Later where
  | op (op : Op)
  | next
  | done (mtime : UInt32)

/-- What it returns. -/
inductive Answer where
  | value (value : Value)
  | chunk (chunk : Option Bytes)
  | pushed

def Later.run (advertises : Feature → Bool) : Later → SyncM Answer
  | .op o => .value <$> o.run advertises
  | .next => .chunk <$> recvNext
  | .done mtime => (fun _ => .pushed) <$> sendDone mtime

/-- The answers to what comes later, and the session after it. -/
def runLater (advertises : Feature → Bool) : List Later → SyncSession → List (Except Error Answer) × SyncSession
  | [], s => ([], s)
  | l :: ls, s =>
    let (r, s) := l.run advertises s
    let (rs, s) := runLater advertises ls s
    (r :: rs, s)

theorem Later.settled (advertises : Feature → Bool) (l : Later) : Settled (l.run advertises) 0 0 := by
  cases l with
  | op op => exact (op.settled advertises).bind fun _ => .pure _
  | next => exact settled_recvNext.bind fun _ => .pure _
  | done mtime => exact (settled_sendDone mtime).bind fun _ => .pure _

/-- Sessions with the same bytes pending answer the same for ever. -/
theorem runLater_same (advertises : Feature → Bool) (ls : List Later) {cap : ℕ} {p : Bytes} {s t : SyncSession}
    (hs : s.Sees cap 0 p) (ht : t.Sees cap 0 p) :
    (runLater advertises ls s).1 = (runLater advertises ls t).1 ∧
      (runLater advertises ls s).2.pending = (runLater advertises ls t).2.pending := by
  induction ls generalizing s t p with
  | nil => exact ⟨rfl, hs.pending.trans ht.pending.symm⟩
  | cons l ls ih =>
    have hone : ∃ r p', Runs (l.run advertises) cap 0 p r 0 p' := by
      rcases l.settled advertises cap p with ⟨a, p1, h1⟩ | ⟨e, p1, h1⟩
      · exact ⟨_, p1, h1⟩
      · exact ⟨_, p1, h1⟩
    obtain ⟨r, p1, h1⟩ := hone
    obtain ⟨s1, hs1, hsees⟩ := h1 s hs
    obtain ⟨t1, ht1, htsees⟩ := h1 t ht
    obtain ⟨hanswers, hpending⟩ := ih hsees htsees
    have hcons : ∀ u : SyncSession, runLater advertises (l :: ls) u = ((l.run advertises u).1 ::
        (runLater advertises ls (l.run advertises u).2).1, (runLater advertises ls (l.run advertises u).2).2) :=
      fun u => rfl
    rw [hcons, hcons, hs1, ht1]
    exact ⟨congrArg (r :: ·) hanswers, hpending⟩

end Settled

/-! ## Whether or not the writes succeed -/

/-- The bytes received and not consumed, and those to come, are as they were. -/
structure Untouched (s s' : SyncSession) : Prop where
  within : Slices.Within s'.rx.buf s'.rx.head s'.rx.tail
  capacity : s'.rx.capacity = s.rx.capacity
  unread : s'.rx.unread = s.rx.unread
  stream : s'.stream = s.stream

variable {s s' s'' : SyncSession}

theorem Untouched.trans (h : Untouched s s') (h' : Untouched s' s'') : Untouched s s'' :=
  ⟨h'.within, h'.capacity.trans h.capacity, h'.unread.trans h.unread, h'.stream.trans h.stream⟩

/-- The session with writes that succeed, which it sees as before. -/
theorem sees_forgiven (hw : Slices.Within s.rx.buf s.rx.head s.rx.tail) :
    ({ s with faults := [] } : SyncSession).Sees s.rx.capacity 0 s.pending :=
  ⟨hw, rfl, rfl, Nat.zero_le _, by simp⟩

theorem untouched_compact (hw : Slices.Within s.rx.buf s.rx.head s.rx.tail) :
    Untouched s { s with rx := s.rx.compact } := by
  have hsees := sees_compact (sees_forgiven hw)
  exact ⟨hsees.within, hsees.capacity, List.append_cancel_right hsees.pending, rfl⟩

theorem untouched_scribble (hw : Slices.Within s.rx.buf s.rx.head s.rx.tail) {bytes : Bytes}
    (hfit : bytes.length ≤ s.rx.capacity - s.rx.tail) : Untouched s (scribble 0 bytes s).2 := by
  have hsees := sees_scribble (sees_forgiven hw) hfit
  exact ⟨hsees.within, hsees.capacity, List.append_cancel_right hsees.pending, rfl⟩

theorem untouched_channelWrite (hw : Slices.Within s.rx.buf s.rx.head s.rx.tail) (bytes : Bytes) :
    Untouched s (channelWrite bytes s).2 := by
  unfold channelWrite
  dsimp only
  split
  · exact ⟨hw, rfl, rfl, rfl⟩
  · exact ⟨hw, rfl, rfl, rfl⟩

/-- What comes behind a piece runs only if the piece succeeds. -/
theorem untouched_bind {α β : Type} {m : SyncM α} {f : α → SyncM β} (hm : Untouched s (m s).2)
    (hf : ∀ a, Untouched (m s).2 (f a (m s).2).2) : Untouched s ((m >>= f) s).2 := by
  cases h : m s with
  | mk r s1 =>
    rw [h] at hm hf
    cases r with
    | ok a =>
      rw [bind_of_ok h f]
      exact hm.trans (hf a)
    | error e =>
      rw [bind_of_error h f]
      exact hm

theorem untouched_forM (parts : List Bytes) (hw : Slices.Within s.rx.buf s.rx.head s.rx.tail) :
    Untouched s (parts.forM channelWrite s).2 := by
  induction parts generalizing s with
  | nil => exact ⟨hw, rfl, rfl, rfl⟩
  | cons part parts ih =>
    have hpart := untouched_channelWrite hw part
    exact untouched_bind (f := fun _ => parts.forM channelWrite) hpart fun _ => ih hpart.within

/-- **What was received stays as it was**, whatever becomes of the writes. -/
theorem untouched_writeMessage (hw : Slices.Within s.rx.buf s.rx.head s.rx.tail) (id : SyncId) (arg : UInt32)
    (parts : List Bytes) : Untouched s (writeMessage id arg parts s).2 := by
  have hcompact := untouched_compact hw
  rw [writeMessage_whole]
  refine untouched_bind hcompact fun _ => ?_
  set s1 : SyncSession := { s with rx := s.rx.compact }
  show Untouched s1 ((if (id.asBytes ++ toLeBytes arg ++ parts.flatten).length ≤ s1.rx.capacity - s1.rx.tail then
      scribble 0 (id.asBytes ++ toLeBytes arg ++ parts.flatten) >>= fun _ =>
        channelWrite (id.asBytes ++ toLeBytes arg ++ parts.flatten)
    else writeHeader id arg >>= fun _ => (parts.filter (· ≠ [])).forM channelWrite) s1).2
  by_cases hfit : (id.asBytes ++ toLeBytes arg ++ parts.flatten).length ≤ s1.rx.capacity - s1.rx.tail
  · rw [if_pos hfit]
    have hscribble := untouched_scribble hcompact.within hfit
    exact untouched_bind hscribble fun _ => untouched_channelWrite hscribble.within _
  · rw [if_neg hfit]
    have hheader := untouched_channelWrite hcompact.within (id.asBytes ++ toLeBytes arg)
    exact untouched_bind hheader fun _ => untouched_forM _ hheader.within

end LibAdb.Sync

namespace LibAdb

open Slices ShellV2 Sync

/-- **Sending neither depends on the receive buffer nor disturbs it.**  For a shell and for a sync session in any state:
what is written is the header and the payload, in one piece or in parts; what was received and not consumed stays, also
when a write fails; and what is decoded from it and from later reads is the same as if nothing had been sent.  For a
shell, reads that deliver the same give the same answers; and as there may be room for more in one of them once bytes
were moved, runs with any reads and sends hand out the same bytes under the same ids, whichever pieces long frames come
in. -/
theorem sending_leaves_receiving [Usize] :
    (∀ (shell : Shell) (rest : Bytes) (faults : List (Option Error)) (id : FrameId) (payload : Bytes),
      ShellV2.headerSize ≤ shell.rx.length → Within shell.rx shell.decoder.head shell.decoder.tail →
        let t := Talking.start shell rest faults
        let sent := (t.sendFrame id payload).2
        (payload.length < 2 ^ 32 → (∀ f ∈ faults, f = none) → (t.sendFrame id payload).1 = .ok () ∧
          sent.written.flatten = id.toByte :: toLeBytes (UInt32.ofNat payload.length) ++ payload) ∧
        (2 ^ 32 ≤ payload.length → t.sendFrame id payload = (.error (.protocol .payloadTooLarge), t)) ∧
        sent.reading.shell.decoder.view sent.reading.shell.rx = shell.decoder.view shell.rx ∧
        (∀ fs as as', Shell.answers fs sent.reading.shell = some as → Shell.answers fs shell = some as' → as = as') ∧
        ∀ es es' u u', Runs.exec Talking.step sent es = some u → Runs.exec Talking.step t es' = some u' →
          (u.handedOut <+: u'.handedOut ∨ u'.handedOut <+: u.handedOut) ∧
            (u.Finished → u'.Finished → u.handedOut = u'.handedOut)) ∧
    ∀ (s : SyncSession) (id : SyncId) (arg : UInt32) (parts : List Bytes), Within s.rx.buf s.rx.head s.rx.tail →
      let sent := (writeMessage id arg parts s).2
      (Healthy s → (writeMessage id arg parts s).1 = .ok () ∧
        sent.written.flatten = s.written.flatten ++ (id.asBytes ++ toLeBytes arg ++ parts.flatten)) ∧
      sent.rx.unread = s.rx.unread ∧ sent.stream = s.stream ∧ sent.rx.capacity = s.rx.capacity ∧
      (Healthy sent → ∀ advertises later,
        (runLater advertises later sent).1 = (runLater advertises later { s with faults := [] }).1 ∧
        (runLater advertises later sent).2.pending =
          (runLater advertises later { s with faults := [] }).2.pending) := by
  refine ⟨?_, ?_⟩
  · intro shell rest faults id payload hrx hw t sent
    have hkept : Talking.Kept t sent := Talking.sendFrame_kept hw id payload
    have hsound := Talking.start_sound hw rest faults
    refine ⟨fun hlen hfaults => ?_, fun hlong => if_pos hlong, hkept.view, fun fs as as' => ?_, ?_⟩
    · obtain ⟨t', hsend, hwritten⟩ := Talking.sendFrame_writes (t := t) hw hfaults id payload hlen
      refine ⟨congrArg Prod.fst hsend, ?_⟩
      show (t.sendFrame id payload).2.written.flatten = _
      rw [hsend, hwritten]
      rfl
    · have halike : Shell.Alike sent.reading.shell shell := ⟨hkept.within, hw, hkept.length, hkept.view⟩
      exact halike.answers fs
    · intro es es' u u' hu hu'
      obtain ⟨hsound1, hcontent1⟩ := hkept.sound hsound
      obtain ⟨hsu, hcu⟩ := Talking.sound_run hrx hsound1 (.of_exec hu)
      obtain ⟨hsu', hcu'⟩ := Talking.sound_run hrx hsound (.of_exec hu')
      have hcontent : u.reading.content shell.rx.length = u'.reading.content shell.rx.length :=
        hcu.trans (hcontent1.trans hcu'.symm)
      refine ⟨?_, fun hend hend' => ?_⟩
      · have hprefix : u.handedOut <+: u.reading.content shell.rx.length := u.handedOut_prefix
        rw [hcontent] at hprefix
        exact List.prefix_or_prefix_of_prefix hprefix u'.handedOut_prefix
      · rw [hend.content hrx hsu, hend'.content hrx hsu', hcontent]
  · intro s id arg parts hw sent
    have huntouched : Untouched s sent := untouched_writeMessage hw id arg parts
    refine ⟨fun hs => ?_, huntouched.unread, huntouched.stream, huntouched.capacity, fun hsent advertises later => ?_⟩
    · obtain ⟨a, s', hsend, hwritten, -⟩ := sends_writeMessage id arg parts s hs
      refine ⟨congrArg Prod.fst hsend, ?_⟩
      show (writeMessage id arg parts s).2.written.flatten = _
      rw [hsend]
      exact hwritten
    · have hpending : sent.pending = s.pending := by
        rw [SyncSession.pending, SyncSession.pending, huntouched.unread, huntouched.stream]
      have hsees : sent.Sees s.rx.capacity 0 s.pending :=
        ⟨huntouched.within, huntouched.capacity, hpending, Nat.zero_le _, hsent⟩
      exact runLater_same advertises later hsees (sees_forgiven hw)

/-- A shell in the middle of a long frame, and a sync session with two bytes left and no room for a message. -/
theorem sending_leaves_receiving_midway :
    let _u := usize64
    let shell : Shell := ⟨[0, 0, 7, 8, 0, 0, 0, 0, 0, 0, 0, 0], ⟨2, 4, .ok .stdout, 6⟩⟩
    let sent := ((Talking.start shell [9, 9, 9, 9] []).sendFrame .stdin [1]).2
    let s : SyncSession := ⟨⟨[0, 0, 7, 8], 2, 4⟩, [5], [], [], []⟩
    sent.written.flatten = [0, 1, 0, 0, 0, 1] ∧
      Shell.answers [.next, .arrive [9], .next] sent.reading.shell =
        some [.ok (some (.ok .stdout, [7, 8])), .ok (some (.ok .stdout, [9]))] ∧
      (writeMessage .quit 0 [] s).2.written.flatten = SyncId.quit.asBytes ++ [0, 0, 0, 0] ∧
      (writeMessage .quit 0 [] s).2.rx.unread = [7, 8] := by
  intro _u shell sent s
  obtain ⟨hshell, hsync⟩ := sending_leaves_receiving
  obtain ⟨hwrites, -, -, hanswers, -⟩ :=
    hshell shell [9, 9, 9, 9] [] .stdin [1] (by decide) ⟨by decide, by decide⟩
  obtain ⟨hmessage, hunread, -⟩ := hsync s .quit 0 [] ⟨by decide, by decide⟩
  have hsent : (Shell.answers [.next, .arrive [9], .next] sent.reading.shell).isSome = true := by decide +kernel
  have hunsent : Shell.answers [.next, .arrive [9], .next] shell =
      some [.ok (some (.ok .stdout, [7, 8])), .ok (some (.ok .stdout, [9]))] := rfl
  obtain ⟨as, has⟩ := Option.isSome_iff_exists.mp hsent
  refine ⟨?_, ?_, ?_, hunread⟩
  · exact (hwrites (by decide) (by simp)).2.trans rfl
  · rw [has, hanswers _ as _ has hunsent]
  · exact (hmessage (by simp [Healthy, s])).2.trans rfl

end LibAdb
