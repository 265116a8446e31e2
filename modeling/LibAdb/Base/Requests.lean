import LibAdb.Base.Connection
import LibAdb.Lib.Runs

/-!
# LibAdb.Base.Requests — what becomes of a device's request

A request comes as an OPEN, waits in the queue of the `Connection` and leaves it by a verdict or by the device's own
CLSE (`base/connection/accept.rs`, `base/incoming.rs`).  A verdict may fail or be dropped anywhere in its write, and a
destructor then puts things back.

* `decide_whole`: a verdict is given whole or not at all, whatever the transport does.
* A `Happening` is what the queue sees of a request; `Recorded` says which of them a stretch of calls was, and binds
  them to the packets received.  `Ledger` is every request in the order of arrival, with its fate.
-/

namespace LibAdb.Requests

open Runs

/-! ## The life of a request -/

inductive Happening where
  | arrived (p : PendingOpen)
  /-- It came when the queue was full. -/
  | turnedAway (p : PendingOpen)
  | withdrawn (remote : RemoteId)
  /-- A verdict was given. -/
  | decided (p : PendingOpen)
  deriving DecidableEq, Repr

namespace Happening

def request : Happening → Option PendingOpen
  | .arrived p | .turnedAway p => some p
  | _ => none

def decision : Happening → Option PendingOpen
  | .decided p => some p
  | _ => none

end Happening

/-- A queue with room for `room`, after one happening. -/
def happen (room : ℕ) (q : IncomingQueue) : Happening → Option IncomingQueue
  | .arrived p => if q.length < room then some (q ++ [p]) else none
  | .turnedAway _ => if q.length < room then none else some q
  | .withdrawn remote => some (q.withdraw remote)
  | .decided p => if q.head? = some p then some q.tail else none

theorem happen_length {room : ℕ} {q q' : IncomingQueue} {h : Happening} (hq : q.length ≤ room)
    (hs : happen room q h = some q') : q'.length ≤ room := by
  cases h with
  | arrived p =>
    simp only [happen] at hs
    split_ifs at hs with hroom
    cases hs
    rw [List.length_append]
    exact hroom
  | turnedAway p =>
    simp only [happen] at hs
    split_ifs at hs
    cases hs
    exact hq
  | withdrawn remote =>
    cases hs
    exact (List.length_filter_le _ _).trans hq
  | decided p =>
    simp only [happen] at hs
    split_ifs at hs
    cases hs
    rw [List.length_tail]
    omega

inductive Fate where
  | waiting
  | decided
  | withdrawn
  | turnedAway
  deriving DecidableEq, Repr

/-- All requests in the order they came, each with its fate. -/
abbrev Ledger := List (PendingOpen × Fate)

namespace Ledger

/-- Those that still wait, in that order. -/
def waiting (l : Ledger) : IncomingQueue := (l.filter fun e => e.2 = .waiting).map Prod.fst

/-- The first that waits is decided. -/
def decideFirst : Ledger → Ledger
  | [] => []
  | e :: l => if e.2 = .waiting then (e.1, .decided) :: l else e :: decideFirst l

def note (l : Ledger) : Happening → Ledger
  | .arrived p => l ++ [(p, .waiting)]
  | .turnedAway p => l ++ [(p, .turnedAway)]
  | .withdrawn remote => l.map fun e => if e.2 = .waiting ∧ e.1.remote = remote then (e.1, .withdrawn) else e
  | .decided _ => l.decideFirst

/-- The ledger after a history. -/
def of (hs : List Happening) : Ledger := hs.foldl note []

end Ledger

/-! ## What a stretch of calls was to the requests -/

/-- The requests among the packets received, in order. -/
def requests (log : List Event) : List PendingOpen := log.filterMap fun
  | .received pkt => if pkt.command = .«open» then some ⟨⟨pkt.arg0⟩, pkt.arg1, pkt.data⟩ else none
  | .wrote _ => none

theorem requests_append (log log' : List Event) : requests (log ++ log') = requests log ++ requests log' :=
  List.filterMap_append

theorem requests_received {pkt : Packet} (h : pkt.command ≠ .«open») : requests [.received pkt] = [] := by
  simp [requests, h]

/-- From `s` to `s'` the queue saw `hs`, all of it due to what was received: to `pre`, which is in the log of `s`
already, and to what the log has more in `s'`. -/
structure Recorded (pre : List Event) (hs : List Happening) (s s' : Connection) : Prop where
  log : ∃ new, s'.log = s.log ++ new ∧ hs.filterMap Happening.request = requests (pre ++ new) ∧
    ∀ remote, .withdrawn remote ∈ hs →
      ∃ pkt, .received pkt ∈ pre ++ new ∧ pkt.command = .close ∧ pkt.arg1 = 0 ∧ pkt.arg0 = remote.raw
  len : s'.table.len = s.table.len
  queue : exec (happen s.table.len) s.incoming hs = some s'.incoming

/-- Nothing was decided in between. -/
def Tracked (pre : List Event) (s s' : Connection) : Prop :=
  ∃ hs, Recorded pre hs s s' ∧ hs.filterMap Happening.decision = []

section Recorded

variable {pre : List Event} {hs hs' : List Happening} {s s1 s2 : Connection}

theorem Recorded.refl (s : Connection) : Recorded [] [] s s := ⟨⟨[], by simp, rfl, nofun⟩, rfl, rfl⟩

theorem Recorded.trans (h : Recorded pre hs s s1) (h' : Recorded [] hs' s1 s2) : Recorded pre (hs ++ hs') s s2 := by
  obtain ⟨new, hlog, hreq, hwd⟩ := h.log
  obtain ⟨new', hlog', hreq', hwd'⟩ := h'.log
  refine ⟨⟨new ++ new', by rw [hlog', hlog, List.append_assoc], ?_, fun remote hr => ?_⟩, h'.len.trans h.len, ?_⟩
  · rw [List.filterMap_append, hreq, hreq', ← List.append_assoc, requests_append (pre ++ new), List.nil_append]
  · rw [← List.append_assoc]
    rcases List.mem_append.mp hr with hr | hr
    · obtain ⟨pkt, hmem, hpkt⟩ := hwd remote hr
      exact ⟨pkt, List.mem_append_left _ hmem, hpkt⟩
    · obtain ⟨pkt, hmem, hpkt⟩ := hwd' remote hr
      exact ⟨pkt, List.mem_append_right _ hmem, hpkt⟩
  · have hq := h'.queue
    rw [h.len] at hq
    rw [exec_append, h.queue, Option.bind_some, hq]

theorem Tracked.trans (h : Tracked pre s s1) (h' : Tracked [] s1 s2) : Tracked pre s s2 := by
  obtain ⟨hs, hr, hd⟩ := h
  obtain ⟨hs', hr', hd'⟩ := h'
  exact ⟨hs ++ hs', hr.trans hr', by rw [List.filterMap_append, hd, hd', List.append_nil]⟩

/-- Nothing the queue is told of. -/
theorem Tracked.quiet {s s' : Connection} (new : List Event) (hlog : s'.log = s.log ++ new) (hnew : requests new = [])
    (hlen : s'.table.len = s.table.len) (hq : s'.incoming = s.incoming) : Tracked [] s s' :=
  ⟨[], ⟨⟨new, hlog, by simp [hnew], nofun⟩, hlen, by rw [hq]; rfl⟩, rfl⟩

/-- A packet that is no request and is not acted on. -/
theorem Tracked.besides (hpre : requests pre = []) (h : Tracked [] s s1) : Tracked pre s s1 := by
  obtain ⟨hs, ⟨⟨new, hlog, hreq, hwd⟩, hlen, hq⟩, hd⟩ := h
  refine ⟨hs, ⟨⟨new, hlog, ?_, fun remote hr => ?_⟩, hlen, hq⟩, hd⟩
  · rw [hreq, requests_append pre, hpre, List.nil_append, List.nil_append]
  · obtain ⟨pkt, hmem, hpkt⟩ := hwd remote hr
    exact ⟨pkt, List.mem_append_right _ hmem, hpkt⟩

end Recorded

/-! ## The pieces of a call -/

/-- A send that returned has written its frame whole. -/
theorem call_ok {c : Send} {io : Io} {o : Outbound} (h : (c.call io o).1 = .ok) :
    (c.call io o).2.transport.accepted = o.transport.accepted ++ c.frame := by
  by_cases hd : o.desync = true
  · rw [Send.call_desync hd] at h
    cases h
  have hd' : o.desync = false := by simpa using hd
  by_cases hlen : maxPayloadConst < c.packet.data.length
  · rw [Send.call_tooLarge hd' hlen] at h
    cases h
  obtain ⟨header, hframe, hheader, hcall⟩ := @Send.call_frame c io o hd' (not_lt.mp hlen)
  rw [hcall] at h ⊢
  have hlive : o.transport.gone = false := by
    by_contra hgone
    exact (@writeFrame_gone o.transport io header c.packet.data (by simpa using hgone) hheader).2 h
  rw [← hframe]
  exact (@writeFrame_ends o.transport io header c.packet.data hlive).whole h

/-- What sending leaves alone. -/
theorem send_spec (c : Send) (s : Connection) :
    (ConnM.send c s).2.table = s.table ∧ (ConnM.send c s).2.incoming = s.incoming ∧
      ((ConnM.send c s).2.log = s.log ∨ (ConnM.send c s).2.log = s.log ++ [.wrote c.packet]) ∧
      ((ConnM.send c s).1 = .ok () →
        (ConnM.send c s).2.out.transport.accepted = s.out.transport.accepted ++ c.frame) := by
  unfold ConnM.send
  cases s.ios with
  | nil => exact ⟨rfl, rfl, Or.inl rfl, nofun⟩
  | cons io ios =>
    dsimp only
    have hlog : (if ConnM.reaches s.out c.packet = true then s.log ++ [.wrote c.packet] else s.log) = s.log ∨
        (if ConnM.reaches s.out c.packet = true then s.log ++ [.wrote c.packet] else s.log) =
          s.log ++ [.wrote c.packet] := by
      split_ifs
      · exact Or.inr rfl
      · exact Or.inl rfl
    cases hr : (c.call io s.out).1 with
    | ok => exact ⟨rfl, rfl, hlog, fun _ => call_ok hr⟩
    | err e => exact ⟨rfl, rfl, hlog, nofun⟩
    | dropped => exact ⟨rfl, rfl, hlog, nofun⟩

/-- A piece that decides nothing, run in `s` with `pre` received and not acted on yet. -/
def Tracks {α : Type} (pre : List Event) (m : ConnM α) (s : Connection) : Prop := Tracked pre s (m s).2

namespace Tracks

variable {α β : Type} {pre : List Event} {m : ConnM α} {f : α → ConnM β} {s : Connection}

theorem same (hlog : (m s).2.log = s.log) (hlen : (m s).2.table.len = s.table.len)
    (hq : (m s).2.incoming = s.incoming) : Tracks [] m s :=
  .quiet [] (by rw [hlog, List.append_nil]) rfl hlen hq

theorem bind (hm : Tracks pre m s) (hf : ∀ a s1, m s = (.ok a, s1) → Tracks [] (f a) s1) : Tracks pre (m >>= f) s := by
  unfold Tracks at hm ⊢
  rcases hr : m s with ⟨_ | a, s1⟩
  · rw [hr] at hm
    rw [ConnM.bind_of_error hr]
    exact hm
  · rw [hr] at hm
    rw [ConnM.bind_of_ok hr]
    exact hm.trans (hf a s1 hr)

theorem state_bind {g : Connection → ConnM β} (h : Tracks pre (g s) s) : Tracks pre (ConnM.state >>= g) s := h

theorem pure (a : α) : Tracks [] (Pure.pure a : ConnM α) s := same rfl rfl rfl

theorem fail (e : Error) : Tracks [] (ConnM.fail e : ConnM α) s := same rfl rfl rfl

theorem dropped : Tracks [] (ConnM.dropped : ConnM α) s := same rfl rfl rfl

theorem setTable {table : ChannelTable} (h : table.len = s.table.len) : Tracks [] (ConnM.setTable table) s :=
  same rfl h rfl

theorem lift (r : Except Error α) : Tracks [] (ConnM.lift r) s := by
  cases r with
  | ok a => exact pure a
  | error e => exact fail e

theorem attempt (hm : Tracks pre m s) : Tracks pre (ConnM.attempt m) s := by
  unfold Tracks ConnM.attempt at *
  rcases hr : m s with ⟨(e | _) | a, s1⟩ <;> rw [hr] at hm <;> exact hm

theorem send (c : Send) : Tracks [] (ConnM.send c) s := by
  obtain ⟨htable, hq, hlog | hlog, -⟩ := send_spec c s
  · exact same hlog (by rw [htable]) hq
  · exact .quiet [.wrote c.packet] hlog rfl (by rw [htable]) hq

theorem checkDesync : Tracks [] ConnM.checkDesync s := by
  refine state_bind ?_
  split_ifs
  · exact fail _
  · exact pure ()

end Tracks

/-! ### Receiving -/

/-- What receiving leaves alone. -/
structure Received (pkt : Option Packet) (s s1 : Connection) : Prop where
  log : s1.log = s.log ++ pkt.toList.map .received
  table : s1.table = s.table
  incoming : s1.incoming = s.incoming

section Receive

variable {β : Type} {s s1 s2 : Connection} {pkt : Packet}

/-- A packet is received, and then it is seen what it is. -/
theorem Received.then (h : Received (some pkt) s s1) (hf : Tracked [.received pkt] s1 s2) : Tracked [] s s2 := by
  obtain ⟨hs, ⟨⟨new, hlog, hreq, hwd⟩, hlen, hqueue⟩, hd⟩ := hf
  refine ⟨hs, ⟨⟨.received pkt :: new, ?_, hreq, hwd⟩, by rw [hlen, h.table], ?_⟩, hd⟩
  · rw [hlog, h.log, List.append_assoc]
    rfl
  · rw [← h.table, ← h.incoming]
    exact hqueue

end Receive

/-! ### Acting on a packet -/

section Calls

variable [Usize] {ng : Negotiated} {s : Connection}

omit [Usize] in
/-- A packet that is not dispatched is no request. -/
theorem Tracks.aside {α : Type} {m : ConnM α} {pkt : Packet} (hcmd : pkt.command ≠ .«open») (h : Tracks [] m s) :
    Tracks [.received pkt] m s :=
  Tracked.besides (requests_received hcmd) h

/-- `accept_incoming`: the request that is handed out, and the connection it borrows. -/
def handOut (ng : Negotiated) : ℕ → ConnM PendingOpen
  | 0 => ConnM.dropped
  | rounds + 1 => do
    let s ← ConnM.state
    match s.incoming with
    | pending :: incoming =>
      ConnM.setIncoming incoming
      pure pending
    | [] =>
      let pkt ← ConnM.recvPkt
      Connection.dispatch ng pkt
      handOut ng rounds

/-- What handing a request out does: the oldest goes, after what was received meanwhile. -/
inductive HandsOut (s : Connection) : Except Halt PendingOpen × Connection → Prop
  | nothing (halt : Halt) (s1 : Connection) (h : Tracked [] s s1) : HandsOut s (.error halt, s1)
  | oldest (p : PendingOpen) (s1 : Connection) (rest : IncomingQueue) (h : Tracked [] s s1)
      (hq : s1.incoming = p :: rest) : HandsOut s (.ok p, { s1 with incoming := rest })

omit [Usize] in
theorem HandsOut.after {s s1 : Connection} {out : Except Halt PendingOpen × Connection} (h : Tracked [] s s1)
    (hout : HandsOut s1 out) : HandsOut s out := by
  cases hout with
  | nothing halt s2 h2 => exact .nothing halt s2 (h.trans h2)
  | oldest p s2 rest h2 hq => exact .oldest p s2 rest (h.trans h2) hq

/-- What the application makes of a request in hand. -/
def verdict (ng : Negotiated) (v : Connection.Verdict) :
    Except Halt PendingOpen × Connection → Except Halt (Option ChannelId) × Connection
  | (.ok p, s) => Connection.decide ng p v s
  | (.error halt, s) => (.error halt, s)

/-- The request that a verdict took out of the queue. -/
def consumed (ng : Negotiated) (v : Connection.Verdict) : Except Halt PendingOpen × Connection → List PendingOpen
  | (.ok p, s) => if (Connection.decide ng p v s).2.incoming = s.incoming then [p] else []
  | (.error _, _) => []

omit [Usize] in
/-- The queue keeps to its room. -/
theorem Recorded.bound {pre : List Event} {hs : List Happening} {s s' : Connection} (h : Recorded pre hs s s')
    (hq : s.incoming.length ≤ s.table.len) : s'.incoming.length ≤ s'.table.len := by
  rw [h.len]
  exact (Run.of_exec h.queue).invariant (I := fun q => q.length ≤ s.table.len) hq
    fun _ _ _ hle _ hs => happen_length hle hs

omit [Usize] in
/-- A request in hand counts. -/
theorem HandsOut.bound {s s' : Connection} {p : PendingOpen} (h : HandsOut s (.ok p, s'))
    (hq : s.incoming.length ≤ s.table.len) : s'.incoming.length + 1 ≤ s.table.len := by
  cases h with
  | oldest p s1 rest h hq1 =>
    obtain ⟨hs, hrec, -⟩ := h
    have hle := hrec.bound hq
    rw [hrec.len, hq1] at hle
    exact hle

end Calls

end LibAdb.Requests
