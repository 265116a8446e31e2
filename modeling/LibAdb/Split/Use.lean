import LibAdb.Split.Shared

/-!
# LibAdb.Split.Use — the write half

Everything a split connection writes is written by a task that holds the write half: `lock_write`, which pays what is
owed first, and `lock_write_half`, which does not, with the one packet the call sends under the lock.  A `Use` is such
a call from the wait for the lock to its release.

* `debts` is `lock_write` alone (`pay`, and the end of `close_channel_via`);
* `send pkt` is `lock_write` and then an OPEN or a WRTE (`send_open`, `write_channel`);
* `settle ch want` is `acknowledge_take`: without the debts, and the OKAY is decided under the lock;
* `answer pkt` is `SplitIncoming::answer`: without the debts, READY or CLSE.

A packet is begun once its checks passed, `whole` once the transport has accepted its last byte, and done once it is
flushed.  A write or a flush that fails, or a call that is dropped there, leaves the flag set unless the device is
gone, as `sendFrame` has it; `send_matches_use` is the connection to the bytes.
-/

namespace LibAdb.Split

/-- What can happen to a task.  `go` is its next critical section, the others are what it waits for. -/
inductive Act where
  | go
  /-- The write half comes free. -/
  | acquire
  /-- The transport accepts the last byte of a packet. -/
  | accept
  /-- The flush succeeds. -/
  | flush
  /-- A write or a flush fails. -/
  | fail (e : Error)
  /-- A listener is notified. -/
  | wake
  /-- The interrupt of a select resolves. -/
  | interrupt
  /-- The condition of `until` is reached. -/
  | cancel
  | packet (pkt : Packet)
  | recvError (e : Error)
  /-- `receive_interrupted` resolves. -/
  | recvInterrupted
  deriving DecidableEq, Repr

/-- How a call ends. -/
inductive End where
  | ok
  | failed (e : Error)
  | dropped
  deriving DecidableEq, Repr

/-- What a call wants the write half for. -/
inductive Job where
  | debts
  | send (pkt : Packet)
  | settle (ch : ChannelId) (want : ℕ)
  | answer (pkt : Packet)
  deriving DecidableEq, Repr

inductive UsePc where
  /-- `write_half.lock().await` -/
  | waiting
  /-- The head of the loop in `lock_write`. -/
  | looking
  /-- A debt is being written. -/
  | paying (d : Owed) (whole : Bool)
  /-- It is written; `pop_front` is next. -/
  | paid (d : Owed)
  /-- The device is gone; `clear` is next. -/
  | forgiving
  /-- The lock is returned. -/
  | ready
  /-- The call's own packet is being written. -/
  | sending (pkt : Packet) (whole : Bool)
  deriving DecidableEq, Repr

structure Use where
  job : Job
  pc : UsePc
  deriving DecidableEq, Repr

/-- Whether the call goes on with the write half, or ends with a result. -/
inductive UseNext where
  | more (u : Use)
  | ended (r : Option Error)
  deriving DecidableEq, Repr

/-- The errors `write_all` and `flush` give. -/
def isWriteError : Error → Bool
  | .io _ => true
  | .unexpectedEof => true
  | _ => false

namespace Shared

/-- A failed write: the flag is set unless the device is gone. -/
def writeFailed (sh : Shared) (e : Error) : Shared :=
  if connectionGone e then { sh with gone := true } else { sh with desync := true }

end Shared

namespace Use

/-- A call of `job`, about to wait for the write half. -/
def start (job : Job) : Use := ⟨job, .waiting⟩

variable [Usize] (ng : Negotiated)

/-- `settle_take` under the lock of `acknowledge_take`. -/
def settled (sh : Shared) (ch : ChannelId) (want : ℕ) : Option (PendingAck × Shared) :=
  if sh.hasEnded then none
  else match (sh.channels.get ch).bind fun slot => slot.settleTake want with
    | none => none
    | some (ack, slot) =>
      some (ack, { sh with channels := sh.channels.put ch.slot (some slot) }.note (.settled ack))

/-- What `acknowledge_take` makes of a failed OKAY: nothing. -/
def result (job : Job) (r : Option Error) : Option Error :=
  match job with
  | .settle _ _ => none
  | _ => r

/-- Begin the call's own packet, or end with what refuses it. -/
def begin (job : Job) (pkt : Packet) (sh : Shared) : UseNext × Shared :=
  match sh.refuses pkt with
  | some e => (.ended (result job (some e)), sh.release)
  | none => (.more ⟨job, .sending pkt false⟩, sh.note (.begun false pkt))

/-- What a call does once the lock is returned to it. -/
def own (job : Job) (sh : Shared) : UseNext × Shared :=
  match job with
  | .debts => (.ended none, sh.release)
  | .send pkt => begin job pkt sh
  | .answer pkt => begin job pkt sh
  | .settle ch want =>
    match settled sh ch want with
    | none => (.ended none, sh.release)
    | some (ack, sh) => begin job (okayPacket ack ng.ackMode) sh

/-- Where a call is once it has the write half: `lock_write` looks at the debts first. -/
def first : Job → UsePc
  | .debts | .send _ => .looking
  | .settle _ _ | .answer _ => .ready

/-- One step of task `i` with the write half, or towards it. -/
def step (i : ℕ) (u : Use) (a : Act) (sh : Shared) : Option (UseNext × Shared) :=
  match u.pc, a with
  | .waiting, .acquire =>
    if sh.writeHalf = none then
      some (.more ⟨u.job, first u.job⟩, { sh with writeHalf := some i }.note (.locked i))
    else none
  | .looking, .go =>
    match sh.owed with
    | [] => some (.more ⟨u.job, .ready⟩, sh)
    | d :: _ =>
      match sh.refuses (d.packet ng.ackMode) with
      | some e => some (.ended (some e), sh.release)
      | none => some (.more ⟨u.job, .paying d false⟩, sh.note (.begun true (d.packet ng.ackMode)))
  | .paying d false, .accept =>
    if sh.gone then none
    else some (.more ⟨u.job, .paying d true⟩, sh.note (.wrote i true (d.packet ng.ackMode)))
  | .paying d true, .flush =>
    some (.more ⟨u.job, .paid d⟩, sh.note (.flushed true (d.packet ng.ackMode)))
  | .paying _ _, .fail e =>
    if isWriteError e then
      if connectionGone e then some (.more ⟨u.job, .forgiving⟩, sh.writeFailed e)
      else some (.ended (some e), (sh.writeFailed e).release)
    else none
  | .paid d, .go => some (.more ⟨u.job, .looking⟩, { sh with owed := sh.owed.tail }.note (.paid d))
  | .forgiving, .go => some (.more ⟨u.job, .ready⟩, { sh with owed := [] }.note .forgiven)
  | .ready, .go => some (own ng u.job sh)
  | .sending pkt false, .accept =>
    if sh.gone then none
    else some (.more ⟨u.job, .sending pkt true⟩, sh.note (.wrote i false pkt))
  | .sending pkt true, .flush => some (.ended none, (sh.note (.flushed false pkt)).release)
  | .sending _ _, .fail e =>
    if isWriteError e then some (.ended (result u.job (some e)), (sh.writeFailed e).release) else none
  | _, _ => none

/-- The call is dropped at an await: while it waits for the lock, or in the middle of a packet. -/
def drop (u : Use) (sh : Shared) : Option Shared :=
  match u.pc with
  | .waiting => some sh
  | .paying _ _ | .sending _ _ => some { sh with desync := true }.release
  | _ => none

/-! ## Every step there is -/

omit [Usize] in
/-- A take is settled in its own slot, and noted. -/
theorem settled_some {ch : ChannelId} {want : ℕ} {ack : PendingAck} {sh sh' : Shared}
    (h : settled sh ch want = some (ack, sh')) : ∃ slot slot', sh.channels.get ch = some slot ∧
      slot.settleTake want = some (ack, slot') ∧
      sh' = { sh with channels := sh.channels.put ch.slot (some slot') }.note (.settled ack) := by
  unfold settled at h
  split_ifs at h
  split at h
  · cases h
  · rename_i hs
    cases h
    obtain ⟨slot, hget, hsettle⟩ := Option.bind_eq_some_iff.mp hs
    exact ⟨slot, _, hget, hsettle, rfl⟩

omit [Usize] in
/-- Settling a take changes the table and is noted, no more. -/
theorem settled_inv {ch : ChannelId} {want : ℕ} {ack : PendingAck} {sh sh' : Shared}
    (h : settled sh ch want = some (ack, sh')) : ∃ channels, sh' = { sh with channels }.note (.settled ack) := by
  obtain ⟨_, _, -, -, rfl⟩ := settled_some h
  exact ⟨_, rfl⟩

/-- What a call can do with the lock: let go of it, or begin its packet, settling a take before that if it is
`acknowledge_take`. -/
inductive Owns (job : Job) (sh : Shared) : UseNext → Shared → Prop
  | release (hjob : ∀ pkt, job ≠ .send pkt ∧ job ≠ .answer pkt) : Owns job sh (.ended none) sh.release
  | refused (pkt : Packet) (e : Error) (hjob : job = .send pkt ∨ job = .answer pkt)
      (he : sh.refuses pkt = some e) : Owns job sh (.ended (some e)) sh.release
  | settled (ch : ChannelId) (want : ℕ) (ack : PendingAck) (sh1 : Shared)
      (hjob : job = .settle ch want) (h1 : settled sh ch want = some (ack, sh1)) : Owns job sh (.ended none) sh1.release
  | begun (pkt : Packet) (hjob : job = .send pkt ∨ job = .answer pkt) (hok : sh.refuses pkt = none) :
      Owns job sh (.more ⟨job, .sending pkt false⟩) (sh.note (.begun false pkt))
  | okay (ch : ChannelId) (want : ℕ) (ack : PendingAck) (sh1 : Shared) (hjob : job = .settle ch want)
      (h1 : Use.settled sh ch want = some (ack, sh1)) (hok : sh1.refuses (okayPacket ack ng.ackMode) = none) :
      Owns job sh (.more ⟨job, .sending (okayPacket ack ng.ackMode) false⟩)
        (sh1.note (.begun false (okayPacket ack ng.ackMode)))

theorem own_owns (job : Job) (sh : Shared) : Owns ng job sh (own ng job sh).1 (own ng job sh).2 := by
  cases job with
  | debts => exact .release fun _ => ⟨nofun, nofun⟩
  | send pkt =>
    simp only [Use.own, begin]
    split
    · rename_i e he
      exact .refused pkt e (Or.inl rfl) he
    · rename_i hok
      exact .begun pkt (Or.inl rfl) hok
  | answer pkt =>
    simp only [Use.own, begin]
    split
    · rename_i e he
      exact .refused pkt e (Or.inr rfl) he
    · rename_i hok
      exact .begun pkt (Or.inr rfl) hok
  | settle ch want =>
    simp only [Use.own]
    split
    · exact .release fun _ => ⟨nofun, nofun⟩
    · rename_i ack sh1 h1
      simp only [begin]
      split
      · exact .settled ch want ack sh1 rfl h1
      · rename_i hok
        exact .okay ch want ack sh1 rfl h1 hok

/-- `step`, taken apart. -/
inductive Moves (i : ℕ) (u : Use) (sh : Shared) : Act → UseNext → Shared → Prop
  | acquire (hpc : u.pc = .waiting) (hfree : sh.writeHalf = none) :
      Moves i u sh .acquire (.more ⟨u.job, first u.job⟩) ({ sh with writeHalf := some i }.note (.locked i))
  | noDebt (hpc : u.pc = .looking) (howed : sh.owed = []) : Moves i u sh .go (.more ⟨u.job, .ready⟩) sh
  | debtRefused (d : Owed) (ds : List Owed) (e : Error) (hpc : u.pc = .looking) (howed : sh.owed = d :: ds)
      (he : sh.refuses (d.packet ng.ackMode) = some e) : Moves i u sh .go (.ended (some e)) sh.release
  | debtBegun (d : Owed) (ds : List Owed) (hpc : u.pc = .looking) (howed : sh.owed = d :: ds)
      (hok : sh.refuses (d.packet ng.ackMode) = none) :
      Moves i u sh .go (.more ⟨u.job, .paying d false⟩) (sh.note (.begun true (d.packet ng.ackMode)))
  | debtWritten (d : Owed) (hpc : u.pc = .paying d false) (hlive : sh.gone = false) :
      Moves i u sh .accept (.more ⟨u.job, .paying d true⟩) (sh.note (.wrote i true (d.packet ng.ackMode)))
  | debtFlushed (d : Owed) (hpc : u.pc = .paying d true) :
      Moves i u sh .flush (.more ⟨u.job, .paid d⟩) (sh.note (.flushed true (d.packet ng.ackMode)))
  | debtGone (d : Owed) (whole : Bool) (e : Error) (hpc : u.pc = .paying d whole) (hgone : connectionGone e = true) :
      Moves i u sh (.fail e) (.more ⟨u.job, .forgiving⟩) { sh with gone := true }
  | debtFailed (d : Owed) (whole : Bool) (e : Error) (hpc : u.pc = .paying d whole)
      (hgone : connectionGone e = false) :
      Moves i u sh (.fail e) (.ended (some e)) { sh with desync := true }.release
  | popped (d : Owed) (hpc : u.pc = .paid d) :
      Moves i u sh .go (.more ⟨u.job, .looking⟩) ({ sh with owed := sh.owed.tail }.note (.paid d))
  | forgiven (hpc : u.pc = .forgiving) :
      Moves i u sh .go (.more ⟨u.job, .ready⟩) ({ sh with owed := [] }.note .forgiven)
  | own (next : UseNext) (sh' : Shared) (hpc : u.pc = .ready) (h : Owns ng u.job sh next sh') :
      Moves i u sh .go next sh'
  | written (pkt : Packet) (hpc : u.pc = .sending pkt false) (hlive : sh.gone = false) :
      Moves i u sh .accept (.more ⟨u.job, .sending pkt true⟩) (sh.note (.wrote i false pkt))
  | flushed (pkt : Packet) (hpc : u.pc = .sending pkt true) :
      Moves i u sh .flush (.ended none) (sh.note (.flushed false pkt)).release
  | failed (pkt : Packet) (whole : Bool) (e : Error) (hpc : u.pc = .sending pkt whole) :
      Moves i u sh (.fail e) (.ended (result u.job (some e))) (sh.writeFailed e).release

variable {ng} in
theorem step_moves {i : ℕ} {u : Use} {a : Act} {sh sh' : Shared} {next : UseNext}
    (h : u.step ng i a sh = some (next, sh')) : u.Moves ng i sh a next sh' := by
  unfold step at h
  split at h
  · rename_i hpc
    split_ifs at h with hfree
    cases h
    exact .acquire hpc hfree
  · rename_i hpc
    split at h
    · rename_i howed
      cases h
      exact .noDebt hpc howed
    · rename_i d ds howed
      split at h
      · rename_i e he
        cases h
        exact .debtRefused d ds e hpc howed he
      · rename_i hok
        cases h
        exact .debtBegun d ds hpc howed hok
  · rename_i d hpc
    split_ifs at h with hgone
    cases h
    exact .debtWritten d hpc (by simpa using hgone)
  · rename_i d hpc
    cases h
    exact .debtFlushed d hpc
  · rename_i d whole e hpc
    split_ifs at h with _ hgone
    · cases h
      unfold Shared.writeFailed
      rw [if_pos hgone]
      exact .debtGone d whole e hpc hgone
    · cases h
      unfold Shared.writeFailed
      rw [if_neg hgone]
      exact .debtFailed d whole e hpc (by simpa using hgone)
  · rename_i d hpc
    cases h
    exact .popped d hpc
  · rename_i hpc
    cases h
    exact .forgiven hpc
  · rename_i hpc
    obtain ⟨rfl, rfl⟩ := Prod.mk.inj (Option.some.inj h)
    exact .own _ _ hpc (own_owns ng u.job sh)
  · rename_i pkt hpc
    split_ifs at h with hgone
    cases h
    exact .written pkt hpc (by simpa using hgone)
  · rename_i pkt hpc
    cases h
    exact .flushed pkt hpc
  · rename_i pkt whole e hpc
    split_ifs at h
    cases h
    exact .failed pkt whole e hpc
  · cases h

end Use

/-! ## The bytes underneath

A packet of a `Use` is a call of the sending side: the two agree on when it is refused, and each way the call can end
is a way the use can go. -/

/-- What an ending says of the transport: nothing, or that the device is gone. -/
def goneBy : SendResult → Bool
  | .err e => connectionGone e
  | _ => false

/-- The errors are those of the transport, and it is gone exactly when one of them says so, or was before. -/
structure Reports (t : Transport) (r : SendResult) (t' : Transport) : Prop where
  kind : ∀ e, r = .err e → isWriteError e = true
  gone : t'.gone = (t.gone || goneBy r)

theorem writeAll_reports (ws : List Wrote) (buf : Bytes) (t : Transport) :
    Reports t (writeAll ws buf t).1 (writeAll ws buf t).2.1 := by
  have haccept : ∀ (t : Transport) bytes, (t.accept bytes).gone = t.gone := fun t bytes => by
    unfold Transport.accept
    split_ifs <;> rfl
  induction ws generalizing buf t with
  | nil =>
    unfold writeAll
    split_ifs <;> exact ⟨fun e he => (by cases he), by simp [goneBy]⟩
  | cons w ws ih =>
    unfold writeAll
    by_cases hb : buf = []
    · rw [if_pos hb]
      exact ⟨fun e he => (by cases he), by simp [goneBy]⟩
    · rw [if_neg hb]
      cases w with
      | ok n =>
        dsimp only
        by_cases hn : (if t.gone then 0 else min n buf.length) = 0
        · rw [if_pos hn]
          exact ⟨fun e he => by cases he; rfl, by simp [goneBy, connectionGone]⟩
        · rw [if_neg hn]
          obtain ⟨hkind, hgone⟩ := ih (buf.drop (if t.gone then 0 else min n buf.length))
            (t.accept (buf.take (if t.gone then 0 else min n buf.length)))
          exact ⟨hkind, by rw [hgone, haccept]⟩
      | err kind k => exact ⟨fun e he => by cases he; rfl, by simp [Transport.report, haccept, goneBy, connectionGone]⟩
      | dropped k => exact ⟨fun e he => (by cases he), by simp [haccept, goneBy]⟩

theorem Reports.trans {t t' t'' : Transport} {r : SendResult} (h : Reports t .ok t') (h' : Reports t' r t'') :
    Reports t r t'' :=
  ⟨h'.kind, by rw [h'.gone, h.gone]; simp [goneBy]⟩

theorem writeFrame_reports (io : Io) (header payload : Bytes) (t : Transport) :
    Reports t (writeFrame io header payload t).1 (writeFrame io header payload t).2 := by
  have h1 := writeAll_reports io.writes header t
  unfold writeFrame
  split
  · rename_i t1 ws1 e1
    rw [e1] at h1
    have h2 : Reports t1 (if payload = [] then (.ok, t1, ws1) else writeAll ws1 payload t1).1
        (if payload = [] then (.ok, t1, ws1) else writeAll ws1 payload t1).2.1 := by
      split_ifs
      · exact ⟨fun e he => (by cases he), by simp [goneBy]⟩
      · exact writeAll_reports ws1 payload t1
    split
    · rename_i t2 ws2 e2
      rw [e2] at h2
      split
      · exact h1.trans h2
      · refine (h1.trans h2).trans ⟨fun e he => by cases he; rfl, ?_⟩
        simp [Transport.report, goneBy, connectionGone]
      · exact (h1.trans h2).trans ⟨fun e he => (by cases he), by simp [goneBy]⟩
    · rename_i r t2 ws2 hne e2
      rw [e2] at h2
      exact h1.trans h2
  · rename_i r t1 ws1 hne e1
    rw [e1] at h1
    exact h1

/-- The shared state and the sending side, seen together. -/
structure Agrees (sh : Shared) (o : Outbound) : Prop where
  desync : sh.desync = o.desync
  gone : sh.gone = o.transport.gone

/-- What is being written: a debt, or the call's own packet. -/
inductive Underway where
  | debt (d : Owed)
  | own (pkt : Packet)

namespace Underway

def pc : Underway → Bool → UsePc
  | .debt d => .paying d
  | .own pkt => .sending pkt

def isDebt : Underway → Bool
  | .debt _ => true
  | .own _ => false

/-- What comes after the flush. -/
def done (job : Job) : Underway → UseNext
  | .debt d => .more ⟨job, .paid d⟩
  | .own _ => .ended none

/-- What comes after a write that failed. -/
def failed (job : Job) (e : Error) : Underway → UseNext
  | .debt _ => if connectionGone e then .more ⟨job, .forgiving⟩ else .ended (some e)
  | .own _ => .ended (Use.result job (some e))

variable [Usize] (ng : Negotiated)

def packet : Underway → Packet
  | .debt d => d.packet ng.ackMode
  | .own pkt => pkt

/-- What a packet's write comes to, one level above the bytes: the transport accepts all of it or not, and then the
flush succeeds, something fails, or the call is dropped. -/
inductive Plays (i : ℕ) (job : Job) (w : Underway) (whole : Bool) (sh sh' : Shared) : SendResult → Prop
  | ok (hwhole : whole = true)
      (h : (Use.mk job (w.pc true)).step ng i .flush sh = some (w.done job, sh')) : Plays i job w whole sh sh' .ok
  | err (e : Error) (h : (Use.mk job (w.pc whole)).step ng i (.fail e) sh = some (w.failed job e, sh')) :
      Plays i job w whole sh sh' (.err e)
  | dropped (h : (Use.mk job (w.pc whole)).drop sh = some sh') : Plays i job w whole sh sh' .dropped

variable (w : Underway) (i : ℕ) (job : Job) (sh : Shared)

theorem accepts (hlive : sh.gone = false) : (Use.mk job (w.pc false)).step ng i .accept sh =
    some (.more ⟨job, w.pc true⟩, sh.note (.wrote i w.isDebt (w.packet ng))) := by
  cases w <;> simp [pc, isDebt, packet, Use.step, hlive]

theorem flushes : ∃ sh', (Use.mk job (w.pc true)).step ng i .flush sh = some (w.done job, sh') ∧
    sh'.desync = sh.desync ∧ sh'.gone = sh.gone := by
  cases w with
  | debt d => exact ⟨_, rfl, rfl, rfl⟩
  | own pkt => exact ⟨_, rfl, Shared.release_desync _, Shared.release_gone _⟩

theorem fails (whole : Bool) {e : Error} (he : isWriteError e = true) :
    ∃ sh', (Use.mk job (w.pc whole)).step ng i (.fail e) sh = some (w.failed job e, sh') ∧
      sh'.desync = (sh.writeFailed e).desync ∧ sh'.gone = (sh.writeFailed e).gone := by
  cases w with
  | debt d =>
    by_cases hgone : connectionGone e = true
    · exact ⟨sh.writeFailed e, by cases whole <;> simp [pc, failed, Use.step, he, hgone], rfl, rfl⟩
    · exact ⟨(sh.writeFailed e).release, by cases whole <;> simp [pc, failed, Use.step, he, hgone],
        Shared.release_desync _, Shared.release_gone _⟩
  | own pkt =>
    exact ⟨(sh.writeFailed e).release, by cases whole <;> simp [pc, failed, Use.step, he],
      Shared.release_desync _, Shared.release_gone _⟩

end Underway

section Bytes

variable {c : Send} {io : Io} {sh : Shared} {o : Outbound}

/-- How far a call that is not refused gets, with the device there or gone. -/
theorem Agrees.call_frame (h : Agrees sh o) (hok : sh.refuses c.packet = none) :
    Reports o.transport (c.call io o).1 (c.call io o).2.transport ∧
      (c.call io o).2.desync = !(c.call io o).1.disarms ∧
      (∃ k, (c.call io o).2.transport.accepted = o.transport.accepted ++ c.frame.take k) ∧
      ((c.call io o).1 = .ok → (c.call io o).2.transport.accepted = o.transport.accepted ++ c.frame) ∧
      (o.transport.gone = true → (c.call io o).2.transport.accepted ≠ o.transport.accepted ++ c.frame) := by
  unfold Shared.refuses at hok
  split_ifs at hok with hd hlen
  have hstep : o.desync = false := h.desync ▸ Bool.not_eq_true _ ▸ hd
  obtain ⟨header, hframe, hheader, hcall⟩ := @Send.call_frame c io o hstep (not_lt.mp hlen)
  rw [hcall]
  refine ⟨writeFrame_reports io header c.packet.data o.transport, by simp [sendFrame, hstep], ?_⟩
  cases hgone : o.transport.gone with
  | false =>
    obtain ⟨hpart, hwhole, -⟩ := @writeFrame_ends o.transport io header c.packet.data hgone
    rw [hframe] at hpart hwhole
    exact ⟨hpart, hwhole, nofun⟩
  | true =>
    obtain ⟨hsame, hne⟩ := @writeFrame_gone o.transport io header c.packet.data hgone hheader
    have hsame' : (sendFrame io header c.packet.data o).2.transport = o.transport := hsame
    rw [hsame']
    refine ⟨⟨0, by simp⟩, fun hr => absurd hr hne, fun _ heq => ?_⟩
    have hnil : c.frame = [] := by simpa using heq
    rw [← hframe] at hnil
    exact hheader (List.append_eq_nil_iff.mp hnil).1

/-- **Every way a call of the sending side can end is a way the use can go**, with the same flag and the same transport
after it, and `accept` in it exactly when the whole frame was accepted. -/
theorem send_matches_use [Usize] (ng : Negotiated) (i : ℕ) (job : Job) (w : Underway) (hw : w.packet ng = c.packet)
    (h : Agrees sh o) (hok : sh.refuses c.packet = none) :
    ∃ whole sh1 sh',
      (if whole then (Use.mk job (w.pc false)).step ng i .accept sh =
        some (.more ⟨job, w.pc true⟩, sh1) else sh1 = sh) ∧
      w.Plays ng i job whole sh1 sh' (c.call io o).1 ∧ Agrees sh' (c.call io o).2 ∧
      (whole = true ↔ (c.call io o).2.transport.accepted = o.transport.accepted ++ c.frame) ∧
      ∃ k, (c.call io o).2.transport.accepted = o.transport.accepted ++ c.frame.take k := by
  obtain ⟨⟨hkind, hgone⟩, hdesync, hpart, hwhole, hnot⟩ := @Agrees.call_frame c io sh o h hok
  have hstep : sh.desync = false := by
    unfold Shared.refuses at hok
    split_ifs at hok with hd
    exact Bool.not_eq_true _ ▸ hd
  -- all that `accept` does is to be noted
  obtain ⟨whole, hiff, sh1, haccept, hd1, hg1⟩ : ∃ whole : Bool,
      (whole = true ↔ (c.call io o).2.transport.accepted = o.transport.accepted ++ c.frame) ∧
      ∃ sh1, (if whole then (Use.mk job (w.pc false)).step ng i .accept sh =
        some (.more ⟨job, w.pc true⟩, sh1) else sh1 = sh) ∧ sh1.desync = false ∧ sh1.gone = sh.gone := by
    by_cases hacc : (c.call io o).2.transport.accepted = o.transport.accepted ++ c.frame
    · have hlive : sh.gone = false := by
        rw [h.gone]
        exact Bool.not_eq_true _ ▸ fun hg => hnot hg hacc
      exact ⟨true, by simp [hacc], sh.note (.wrote i w.isDebt c.packet), hw ▸ w.accepts ng i job sh hlive, hstep, rfl⟩
    · exact ⟨false, by simp [hacc], sh, rfl, hstep, rfl⟩
  rw [← h.gone] at hgone
  cases hr : (c.call io o).1 with
  | ok =>
    obtain ⟨sh', hflush, hd', hg'⟩ := w.flushes ng i job sh1
    refine ⟨whole, sh1, sh', haccept, .ok (hiff.mpr (hwhole hr)) hflush, ⟨?_, ?_⟩, hiff, hpart⟩
    · simp [hdesync, hr, SendResult.disarms, hd', hd1]
    · simp [hgone, hr, goneBy, hg', hg1]
  | err e =>
    obtain ⟨sh', hfail, hd', hg'⟩ := w.fails ng i job sh1 whole (hkind e hr)
    refine ⟨whole, sh1, sh', haccept, .err e hfail, ⟨?_, ?_⟩, hiff, hpart⟩
    · simp only [hd', Shared.writeFailed, hdesync, hr, SendResult.disarms]
      split_ifs with hg <;> simp [hg, hd1]
    · simp only [hg', Shared.writeFailed, hgone, hr, goneBy]
      split_ifs with hg <;> simp [hg, hg1]
  | dropped =>
    refine ⟨whole, sh1, { sh1 with desync := true }.release, haccept, .dropped ?_, ⟨?_, ?_⟩, hiff, hpart⟩
    · cases w <;> rfl
    · simp [hdesync, hr, SendResult.disarms]
    · simp [hgone, hr, goneBy, hg1]

end Bytes

/-- A connection whose write half is taken, with nothing on it. -/
def idleShared : Shared :=
  ⟨⟨[], 1, ⟨.delayed, 0, 0⟩⟩, [], false, [], [], [], false, false, false, 0, 0, 0, [], some 0, false, []⟩

/-- An owed CLSE whose write is dropped after ten bytes of its header: the flag is set on both levels. -/
theorem send_matches_use_dropped :
    let c : Send := .pkt (Packet.close ⟨⟨1⟩, ⟨9⟩⟩) .skip
    let sent := c.call ⟨[.dropped 10], .ok⟩ ⟨⟨[], false⟩, false⟩
    sent.1 = .dropped ∧ sent.2.desync = true ∧ idleShared.refuses c.packet = none ∧
      ∃ sh', Agrees sh' sent.2 ∧ ∃ k, sent.2.transport.accepted = c.frame.take k := by
  intro c sent
  obtain ⟨whole, sh1, sh', -, -, hagrees, -, hpart⟩ := @send_matches_use c ⟨[.dropped 10], .ok⟩ idleShared
    ⟨⟨[], false⟩, false⟩ usize64 (@Negotiated.mk usize64 8192 0x01000001 (@ConnectionConfig.embedded usize64) true) 0
    .debts (.debt (.close ⟨⟨1⟩, ⟨9⟩⟩)) rfl ⟨rfl, rfl⟩ (by decide +kernel)
  exact ⟨by decide +kernel, by decide +kernel, by decide +kernel, sh', hagrees, hpart⟩

end LibAdb.Split
