import LibAdb.Split.Writer
import LibAdb.Split.Accept

/-!
# LibAdb.Split.Reader — the calls of `Reader`

`split/reader.rs`: `open_channel`, `read_channel`, `accept_incoming`, `try_accept_incoming`, `dispatch_one` and `run`,
one at a time, as they borrow the `Reader` mutably or consume it.  They share `recv`, `drain_overflow`, `dispatch` and
`act_on`, so they share their program counters too; `ReaderCall` says what comes before the first packet and what is
done after each.

`received` is where a packet meets the table: the match in `await_open_ack`, or `act_on`.  A refusal (`reject` on a
request the `Reader` does not hand out) is a `HolderCall` inside the call.
-/

namespace LibAdb.Split

variable [Usize] (ng : Negotiated)

inductive ReaderCall where
  | «open» (destination : Bytes)
  | read (ch : ChannelId) (want : ℕ)
  | accept
  | tryAccept
  | dispatchOne
  | run
  deriving DecidableEq, Repr

inductive ReaderPc where
  | idle
  /-- `check_live` -/
  | start
  /-- `send_open` -/
  | allocate
  | opening
  /-- `pay` before the first packet. -/
  | prePay
  | prePaying
  /-- `take_buffered`, with what the last packet's dispatch returned. -/
  | take (pc : TakePc) (dispatched : Option (Option Error))
  | channelIds
  /-- `drain_overflow` -/
  | drain
  | draining (h : HolderCall)
  /-- `accept_incoming`: look at the queue; `run`: look at the listeners. -/
  | serve
  /-- `run` without a listener. -/
  | refuse
  | refusing (h : HolderCall)
  /-- `recv`: `check_live`, `pay`, the transport. -/
  | live
  | pay
  | paying
  | receiving
  | ended (e : Error)
  | received (pkt : Packet)
  /-- `act_on`, after the table; `after` is the error to return once the debt is dealt with. -/
  | fail (idx : ℕ) (ids : ChannelIds) (fault : ChannelFault) (after : Option Error)
  | owe (d : Owed) (after : Option Error)
  | actPay (after : Option Error)
  | actPaying (after : Option Error)
  | queue (pending : PendingOpen)
  | stage (pending : PendingOpen)
  | rejecting (h : HolderCall)
  | withdraw (remote : RemoteId)
  | acted (r : Option Error)
  /-- A request is returned. -/
  | handOver (h : Holder)
  /-- `Drop for SlotGuard`, armed. -/
  | unguard
  /-- `Drop for Reader` -/
  | stop
  | stopped
  deriving DecidableEq, Repr

/-- The points of a call that hold no packet, no request and no debt, and are not in a take. -/
def ReaderPc.light : ReaderPc → Bool
  | .take _ _ | .draining _ | .refusing _ | .received _ | .fail _ _ _ _ | .owe _ _ | .queue _ | .stage _
  | .rejecting _ | .withdraw _ | .handOver _ => false
  | _ => true

/-- The points of a call that is done with what earlier calls left in the queue, and may yet receive. -/
def ReaderPc.past : ReaderPc → Bool
  | .live | .pay | .paying | .receiving | .received _ | .fail _ _ _ _ | .owe _ _ | .actPay _ | .actPaying _ | .queue _
  | .stage _ | .rejecting _ | .withdraw _ => true
  | .acted r => r.all connectionGone
  | .take _ (some r) => r.isNone
  | _ => false

/-- The ways a verdict ends that leave nothing of the request. -/
def HolderEnd.settles : HolderEnd → Bool
  | .failed e => connectionGone e
  | .dropped => false
  | _ => true

structure ReaderTask where
  call : ReaderCall
  /-- The slot `open_channel` waits for, while its guard is armed. -/
  guard : Option ChannelId
  pc : ReaderPc
  deriving DecidableEq, Repr

namespace ReaderTask

/-- A `Reader` nobody has called. -/
def fresh : ReaderTask := ⟨.dispatchOne, none, .idle⟩

variable (c : ReaderTask)

def goto (pc : ReaderPc) : ReaderTask := { c with pc }

/-- Begin a call on an idle `Reader`. -/
def begin (call : ReaderCall) : Option ReaderTask :=
  if c.pc = .idle then
    some ⟨call, none, match call with
      | .read _ _ => .prePay
      | .tryAccept => .serve
      | _ => .start⟩
  else none

/-- Whether the call leaves a broken channel to `act_on` (`OnFault::CloseChannel`). -/
def closesFaulty : Bool :=
  match c.call with
  | .dispatchOne | .run => true
  | _ => false

/-- The call is over: `run` takes the `Reader` with it. -/
def finish : ReaderTask :=
  match c.call with
  | .run => c.goto .stop
  | _ => c.goto .idle

/-- The way out of a call that did not get what it wanted: through the guard, if it has one. -/
def unwind : ReaderTask := if c.guard.isSome then c.goto .unguard else c.finish

/-- The call fails. -/
def leave (e : Error) (sh : Shared) : ReaderTask × Option Use × Shared :=
  (c.unwind, none, match c.call with
    | .read ch _ => sh.note (.readFailed ch e)
    | _ => sh)

/-- `pay`: whether there is anything to pay. -/
def pays (sh : Shared) : Bool := !sh.hasEnded && !sh.owed.isEmpty

/-- `act_on`, from the table's answer on. -/
def actOn (outcome : DispatchOutcome) (sh : Shared) : ReaderTask × Shared :=
  match outcome with
  | .ackWrite idx ack => (c.goto (.owe (.okay ack) none), sh.wake idx)
  | .creditGranted idx | .slotClosed idx | .dataBuffered idx => (c.goto (.acted none), sh.wake idx)
  | .incomingOpen remote credit destination => (c.goto (.queue ⟨remote, credit, destination⟩), sh)
  | .cancelPendingOpen remote => (c.goto (.withdraw remote), sh)
  | .strayReady ids => (c.goto (.owe (.close ids) none), sh)
  | .channelFault idx ids opening fault =>
    let after := if c.closesFaulty then none else some fault.error
    if opening || c.closesFaulty then (c.goto (.fail idx ids fault after), sh) else (c.goto (.acted after), sh)
  | .unmatched => (c.goto (.acted none), sh)

/-- The packet goes to `dispatch`. -/
def dispatch (pkt : Packet) (sh : Shared) : ReaderTask × Option Use × Shared :=
  let (outcome, channels) := sh.channels.dispatch pkt
  let (c, sh) := c.actOn outcome ({ sh with channels }.note (.received pkt outcome))
  (c, none, sh)

/-- `await_open_ack`: READY for the slot this call waits for. -/
def openReady (ch : ChannelId) (pkt : Packet) (sh : Shared) : ReaderTask × Option Use × Shared :=
  match sh.channels.get ch with
  | none =>
    ({ c with guard := none }.finish, none, (sh.note (.received pkt .unmatched)).note (.opened ch))
  | some slot =>
    match slot.acceptOpenReady ⟨pkt.arg0⟩ pkt.data with
    | .ok slot =>
      ({ c with guard := none }.finish, none,
        ({ sh with channels := sh.channels.put ch.slot (some slot) }.note
          (.received pkt (.creditGranted ch.slot))).note (.opened ch))
    | .error e =>
      let ids : ChannelIds := ⟨ch.localId, ⟨pkt.arg0⟩⟩
      (c.goto (.fail ch.slot ids (.protocol e) (some (.protocol e))), none,
        sh.note (.received pkt (.channelFault ch.slot ids true (.protocol e))))

/-- What is done with a packet. -/
def receive (pkt : Packet) (sh : Shared) : ReaderTask × Option Use × Shared :=
  match c.guard with
  | some ch =>
    if pkt.command = .ready ∧ pkt.arg1 = ch.localId.raw then c.openReady ch pkt sh
    else if pkt.command = .close ∧ pkt.arg1 = ch.localId.raw then
      c.leave .channelClosed (sh.note (.received pkt .unmatched))
    else c.dispatch pkt sh
  | none => c.dispatch pkt sh

/-- What `dispatch` returned, once `connection_gone` errors are taken out, sends the call on. -/
def next (r : Option Error) (sh : Shared) : ReaderTask × Option Use × Shared :=
  match c.call, r.filter fun e => !connectionGone e with
  | .read _ _, r => (c.goto (.take .look (some r)), none, sh)
  | _, some e => c.leave e sh
  | .«open» _, none => (c.goto .live, none, sh)
  | .dispatchOne, none => (c.finish, none, sh)
  | _, none => (c.goto .serve, none, sh)

/-- What a read makes of `take_buffered` and of the dispatch before it. -/
def taken (dispatched : Option (Option Error)) (r : Except Error (Option Bytes)) (sh : Shared) :
    ReaderTask × Option Use × Shared :=
  match r, dispatched with
  | .ok (some _), _ => (c.finish, none, sh)
  | _, some (some e) => c.leave e sh
  | .error e, _ => c.leave e sh
  | .ok none, none => (c.goto .channelIds, none, sh)
  | .ok none, some none => (c.goto .live, none, sh)

/-- Where `pay` leads before the first packet. -/
def prePaid (sh : Shared) : ReaderTask × Option Use × Shared :=
  match c.call with
  | .read _ _ => (c.goto (.take .look none), none, sh)
  | _ => (c.goto .serve, none, sh)

/-- A refusal inside the call has ended; `again` is where the call goes on. -/
def refused (again : ReaderPc) (r : HolderEnd) (sh : Shared) : ReaderTask × Option Use × Shared :=
  match r with
  | .failed e => if connectionGone e then (c.goto again, none, sh) else c.leave e sh
  | .dropped => (c.unwind, none, sh)
  | _ => (c.goto again, none, sh)

/-- The refusal in `queue_or_refuse` has ended. -/
def rejected (r : HolderEnd) (sh : Shared) : ReaderTask × Option Use × Shared :=
  match r with
  | .failed e => (c.goto (.acted (some e)), none, sh)
  | .dropped => (c.unwind, none, sh)
  | _ => (c.goto (.acted none), none, sh)

/-- A step of a refusal inside the call. -/
def stepRefusal (wrap : HolderCall → ReaderPc) (ended : HolderEnd → Shared → ReaderTask × Option Use × Shared)
    (h : HolderCall) (a : Act) (sh : Shared) : Option (ReaderTask × Option Use × Shared) :=
  match h.pc, a with
  | .done r, .go => some (ended r sh)
  | _, _ => (h.step ng a sh).map fun (h, use, sh) => (c.goto (wrap h), use, sh)

def step (a : Act) (sh : Shared) : Option (ReaderTask × Option Use × Shared) :=
  match c.pc, a with
  | .start, .go =>
    match sh.checkLive with
    | some e => some (c.leave e sh)
    | none =>
      some (c.goto (match c.call with
        | .«open» _ => .allocate
        | .dispatchOne => .drain
        | .run => .serve
        | _ => .prePay), none, sh)
  | .allocate, .go =>
    match c.call with
    | .«open» destination =>
      match takeSlot ng destination sh with
      | .error e => some (c.leave e sh)
      | .ok (ch, use, sh) => some ({ c with guard := some ch, pc := .opening }, some use, sh)
    | _ => none
  | .prePay, .go =>
    if pays sh then some (c.goto .prePaying, some (.start .debts), sh) else some (c.prePaid sh)
  | .take pc dispatched, a =>
    match c.call with
    | .read ch want =>
      match pc.step ch want a sh with
      | none => none
      | some (.more pc, use, sh) => some (c.goto (.take pc dispatched), use, sh)
      | some (.ended r, _, sh) => some (c.taken dispatched r sh)
    | _ => none
  | .channelIds, .go =>
    match c.call with
    | .read ch _ =>
      match sh.channels.ids ch with
      | .error e => some (c.leave e sh)
      | .ok _ => some (c.goto .drain, none, sh)
    | _ => none
  | .drain, .go =>
    match sh.takeIncomingPast ng.config.maxChannels with
    | some (h, sh) => some (c.goto (.draining ⟨h, .reject⟩), none, sh)
    | none => some (c.goto .live, none, sh)
  | .draining h, a => c.stepRefusal ng .draining (c.refused .drain) h a sh
  | .serve, .go =>
    match c.call with
    | .run => some (c.goto (if sh.listeners = 0 then .refuse else .live), none, sh)
    | .tryAccept =>
      match sh.handOut with
      | some (h, sh) => some (c.goto (.handOver h), none, sh)
      | none => some (c.finish, none, sh)
    | _ =>
      match sh.handOut with
      | some (h, sh) => some (c.goto (.handOver h), none, sh)
      | none => some (c.goto .live, none, sh)
  | .refuse, .go =>
    match sh.takeIncoming with
    | some (h, sh) => some (c.goto (.refusing ⟨h, .reject⟩), none, sh)
    | none => some (c.goto .live, none, sh)
  | .refusing h, a => c.stepRefusal ng .refusing (c.refused .refuse) h a sh
  | .live, .go =>
    match sh.checkLive with
    | some e => some (c.leave e sh)
    | none => some (c.goto .pay, none, sh)
  | .pay, .go =>
    if pays sh then some (c.goto .paying, some (.start .debts), sh) else some (c.goto .receiving, none, sh)
  | .receiving, .packet pkt => some (c.goto (.received pkt), none, sh)
  | .receiving, .recvInterrupted =>
    if sh.desync || !sh.owed.isEmpty then some (c.goto .live, none, sh) else none
  | .receiving, .recvError e =>
    if endsConnection e then some (c.goto (.ended e), none, sh) else some (c.leave e sh)
  | .ended e, .go => some (c.leave e sh.endStream)
  | .received pkt, .go => some (c.receive pkt sh)
  | .fail idx ids fault after, .go =>
    some (c.goto (.owe (.close ids) after), none, sh.failChannel idx ids fault)
  | .owe d after, .go => some (c.goto (.actPay after), none, sh.owe d)
  | .actPay after, .go =>
    if pays sh then some (c.goto (.actPaying after), some (.start .debts), sh)
    else some (c.goto (.acted after), none, sh)
  | .queue pending, .go =>
    match sh.queueIncoming ng.config.maxChannels pending with
    | some sh => some (c.goto (.acted none), none, sh)
    | none => some (c.goto (.stage pending), none, sh)
  | .stage pending, .go =>
    let (h, sh) := sh.holdIncoming pending
    some (c.goto (.rejecting ⟨h, .reject⟩), none, sh)
  | .rejecting h, a => c.stepRefusal ng .rejecting c.rejected h a sh
  | .withdraw remote, .go => some (c.goto (.acted none), none, sh.withdrawOpen remote)
  | .acted r, .go => some (c.next r sh)
  | .unguard, .go =>
    match c.guard with
    | some ch => some ({ c with guard := none }.finish, none, sh.dropSlot ch)
    | none => none
  | .stop, .go => some (c.goto .stopped, none, sh.stop)
  | _, _ => none

def resume (r : Option Error) (sh : Shared) : ReaderTask × Shared :=
  let go := fun (m : ReaderTask × Option Use × Shared) => (m.1, m.2.2)
  match c.pc, r with
  | .opening, none => (c.goto .drain, sh)
  | .opening, some e => go (c.leave e sh)
  | .prePaying, none => go (c.prePaid sh)
  | .prePaying, some e =>
    match c.call with
    | .read _ _ => go (c.prePaid sh)
    | _ => go (c.leave e sh)
  | .take .acking dispatched, _ => (c.goto (.take .look dispatched), sh)
  | .draining h, r => (c.goto (.draining (h.resume r)), sh)
  | .refusing h, r => (c.goto (.refusing (h.resume r)), sh)
  | .rejecting h, r => (c.goto (.rejecting (h.resume r)), sh)
  | .paying, none => (c.goto .receiving, sh)
  | .paying, some e => go (c.leave e sh)
  | .actPaying after, none => (c.goto (.acted after), sh)
  | .actPaying _, some e => (c.goto (.acted (some e)), sh)
  | _, _ => (c, sh)

/-- `until` gives up on the OKAY of a read. -/
def cancel (sh : Shared) : Option ReaderTask :=
  match c.pc with
  | .take .acking dispatched => if sh.hasEnded then some (c.goto (.take .look dispatched)) else none
  | _ => none

def drop : Option ReaderTask :=
  match c.pc with
  | .opening | .prePaying | .take .acking _ | .paying | .receiving | .actPaying _ => some c.unwind
  | .draining h => h.drop.map fun h => c.goto (.draining h)
  | .refusing h => h.drop.map fun h => c.goto (.refusing h)
  | .rejecting h => h.drop.map fun h => c.goto (.rejecting h)
  | _ => none

/-! ### Every step there is -/

section

omit [Usize]

@[simp] theorem goto_pc (pc : ReaderPc) : (c.goto pc).pc = pc := rfl

/-- Where a call goes that holds nothing: its guard and its kind stay. -/
structure Light (c' : ReaderTask) : Prop where
  light : c'.pc.light = true
  guard : c'.guard = c.guard
  call : c'.call = c.call

theorem Light.finish : c.Light c.finish := by
  unfold ReaderTask.finish
  split <;> exact ⟨rfl, rfl, rfl⟩

theorem Light.unwind : c.Light c.unwind := by
  unfold ReaderTask.unwind
  split_ifs
  · exact ⟨rfl, rfl, rfl⟩
  · exact .finish c

/-- A call that fails: `leave`, or nothing to tell of it. -/
def Says (sh sh' : Shared) : Prop := sh' = sh ∨ ∃ ch want e, c.call = .read ch want ∧ sh' = sh.note (.readFailed ch e)

theorem Says.leave (e : Error) (sh : Shared) : c.Says sh (c.leave e sh).2.2 := by
  unfold ReaderTask.leave
  dsimp only
  split
  · rename_i ch want hcall
    exact Or.inr ⟨ch, want, e, hcall, rfl⟩
  · exact Or.inl rfl

theorem taken_said (d : Option (Option Error)) (r : Except Error (Option Bytes)) (sh : Shared) :
    c.Light (c.taken d r sh).1 ∧ (c.taken d r sh).2.1 = none ∧ c.Says sh (c.taken d r sh).2.2 := by
  unfold taken
  split
  · exact ⟨.finish c, rfl, Or.inl rfl⟩
  · exact ⟨.unwind c, rfl, .leave c _ sh⟩
  · exact ⟨.unwind c, rfl, .leave c _ sh⟩
  · exact ⟨⟨rfl, rfl, rfl⟩, rfl, Or.inl rfl⟩
  · exact ⟨⟨rfl, rfl, rfl⟩, rfl, Or.inl rfl⟩

end

/-- How a call gets past what is in the queue: it was past it, or it found nothing there to deal with. -/
def Passes (sh : Shared) (pc' : ReaderPc) : Prop :=
  pc'.past = true → c.pc.past = true ∨ (c.pc = .drain ∧ sh.takeIncomingPast ng.config.maxChannels = none) ∨
    (c.pc = .serve ∧ (c.call = .run ∨ sh.handOut = none)) ∨ (c.pc = .refuse ∧ sh.takeIncoming = none)

/-- The points at which a call has a refusal under way. -/
inductive Refusing (h : HolderCall) : ReaderPc → Prop
  | draining : Refusing h (.draining h)
  | refusing : Refusing h (.refusing h)
  | rejecting : Refusing h (.rejecting h)

/-- `step`, taken apart by what it holds and what it does to the shared state. -/
inductive Moves (sh : Shared) : ReaderTask → Option Use → Shared → Prop
  | plain (c' : ReaderTask) (use : Option Use) (sh' : Shared) (hl : c.pc.light = true) (hl' : c.Light c')
      (huse : ∀ u, use = some u → u = .start .debts) (hsaid : c.Says sh sh') (hpast : c.Passes ng sh c'.pc) :
      Moves sh c' use sh'
  | ends (e : Error) (sh' : Shared) (hpc : c.pc = .ended e) (hsaid : c.Says sh.endStream sh') :
      Moves sh c.unwind none sh'
  | allocates (destination : Bytes) (ch : ChannelId) (u : Use) (sh' : Shared) (hpc : c.pc = .allocate)
      (htake : takeSlot ng destination sh = .ok (ch, u, sh')) (hcall : c.call = .«open» destination) :
      Moves sh { c with guard := some ch, pc := .opening } (some u) sh'
  | takes (ch : ChannelId) (want : ℕ) (pc pc' : TakePc) (d : Option (Option Error)) (use : Option Use) (sh' : Shared)
      (hcall : c.call = .read ch want) (hpc : c.pc = .take pc d)
      (h : TakePc.Moves ch want sh pc (.more pc') use sh') : Moves sh (c.goto (.take pc' d)) use sh'
  | taken (ch : ChannelId) (want : ℕ) (pc : TakePc) (d : Option (Option Error)) (r : Except Error (Option Bytes))
      (sh' : Shared) (hcall : c.call = .read ch want) (hpc : c.pc = .take pc d)
      (h : TakePc.Moves ch want sh pc (.ended r) none sh') :
      Moves sh (c.taken d r sh').1 (c.taken d r sh').2.1 (c.taken d r sh').2.2
  | drains (h : Holder) (sh' : Shared) (hpc : c.pc = .drain)
      (htake : sh.takeIncomingPast ng.config.maxChannels = some (h, sh')) :
      Moves sh (c.goto (.draining ⟨h, .reject⟩)) none sh'
  | refuses (h : Holder) (sh' : Shared) (hpc : c.pc = .refuse) (htake : sh.takeIncoming = some (h, sh')) :
      Moves sh (c.goto (.refusing ⟨h, .reject⟩)) none sh'
  | handsOut (h : Holder) (sh' : Shared) (hpc : c.pc = .serve) (hcall : c.call ≠ .run)
      (htake : sh.handOut = some (h, sh')) : Moves sh (c.goto (.handOver h)) none sh'
  | inner (h h' : HolderCall) (pc' : ReaderPc) (use : Option Use) (sh' : Shared) (hpc : Refusing h c.pc)
      (hpc' : Refusing h' pc') (hm : h.Moves ng sh h' use sh') : Moves sh (c.goto pc') use sh'
  | refused (h : HolderCall) (r : HolderEnd) (c' : ReaderTask) (sh' : Shared) (hpc : Refusing h c.pc)
      (hdone : h.pc = .done r) (hl' : c.Light c') (hsaid : c.Says sh sh')
      (hpast : c'.pc.past = true → c.pc = .rejecting h ∧ r.settles = true) : Moves sh c' none sh'
  | receives (pkt : Packet) (hpc : c.pc = .receiving) : Moves sh (c.goto (.received pkt)) none sh
  | received (pkt : Packet) (hpc : c.pc = .received pkt) :
      Moves sh (c.receive pkt sh).1 (c.receive pkt sh).2.1 (c.receive pkt sh).2.2
  | fails (idx : ℕ) (ids : ChannelIds) (fault : ChannelFault) (after : Option Error)
      (hpc : c.pc = .fail idx ids fault after) :
      Moves sh (c.goto (.owe (.close ids) after)) none (sh.failChannel idx ids fault)
  | owes (d : Owed) (after : Option Error) (hpc : c.pc = .owe d after) : Moves sh (c.goto (.actPay after)) none (sh.owe d)
  | queues (pending : PendingOpen) (sh' : Shared) (hpc : c.pc = .queue pending)
      (hq : sh.queueIncoming ng.config.maxChannels pending = some sh') : Moves sh (c.goto (.acted none)) none sh'
  | overflows (pending : PendingOpen) (hpc : c.pc = .queue pending)
      (hq : sh.queueIncoming ng.config.maxChannels pending = none) : Moves sh (c.goto (.stage pending)) none sh
  | stages (pending : PendingOpen) (hpc : c.pc = .stage pending) :
      Moves sh (c.goto (.rejecting ⟨(sh.holdIncoming pending).1, .reject⟩)) none (sh.holdIncoming pending).2
  | withdraws (remote : RemoteId) (hpc : c.pc = .withdraw remote) :
      Moves sh (c.goto (.acted none)) none (sh.withdrawOpen remote)
  | looks (d : Option (Option Error)) (ch : ChannelId) (want : ℕ) (hpc : c.pc.light = true)
      (hcall : c.call = .read ch want) (hpast : c.Passes ng sh (.take .look d)) :
      Moves sh (c.goto (.take .look d)) none sh
  | unguards (ch : ChannelId) (hpc : c.pc = .unguard) (hguard : c.guard = some ch) :
      Moves sh { c with guard := none }.finish none (sh.dropSlot ch)
  | stops (hpc : c.pc = .stop) : Moves sh (c.goto .stopped) none sh.stop

variable {ng c}

omit [Usize] in
/-- `unwind` is never past the queue. -/
theorem unwind_past (c : ReaderTask) : c.unwind.pc.past = false := by
  unfold unwind finish
  split_ifs
  · rfl
  · split <;> rfl

omit [Usize] in
/-- Nor is `finish`. -/
theorem finish_past (c : ReaderTask) : c.finish.pc.past = false := by
  unfold finish
  split <;> rfl

omit [Usize] in
/-- A take goes on to receive only after a dispatch that went well. -/
theorem taken_past {d : Option (Option Error)} {r : Except Error (Option Bytes)} {sh : Shared} {pc : TakePc}
    (h : (c.taken d r sh).1.pc.past = true) : (ReaderPc.take pc d).past = true := by
  unfold taken at h
  split at h
  · exact nomatch (finish_past c).symm.trans h
  · exact nomatch (unwind_past c).symm.trans h
  · exact nomatch (unwind_past c).symm.trans h
  · cases h
  · rfl

/-- The call fails where it holds nothing. -/
theorem Moves.leave {sh : Shared} (e : Error) (hl : c.pc.light = true) :
    c.Moves ng sh (c.leave e sh).1 (c.leave e sh).2.1 (c.leave e sh).2.2 := by
  refine .plain _ none _ hl (.unwind c) nofun (.leave c e sh) fun h => ?_
  rw [show (c.leave e sh).1 = c.unwind from rfl, unwind_past] at h
  cases h

/-- The call goes on where it holds nothing. -/
theorem Moves.goes {sh : Shared} (pc' : ReaderPc) (hl : c.pc.light = true) (hl' : pc'.light = true)
    (hpast : c.Passes ng sh pc') : c.Moves ng sh (c.goto pc') none sh :=
  .plain _ none sh hl ⟨hl', rfl, rfl⟩ nofun (Or.inl rfl) hpast

/-- A refusal has ended. -/
theorem Moves.refusal {sh : Shared} {h : HolderCall} {r : HolderEnd} (again : ReaderPc) (hpc : Refusing h c.pc)
    (hdone : h.pc = .done r) (hl' : again.light = true) (hpast : again.past = false) :
    c.Moves ng sh (c.refused again r sh).1 (c.refused again r sh).2.1 (c.refused again r sh).2.2 := by
  have hagain : c.Moves ng sh (c.goto again) none sh :=
    .refused h r _ sh hpc hdone ⟨hl', rfl, rfl⟩ (Or.inl rfl) fun hp => nomatch hpast.symm.trans hp
  have hunwind : ∀ sh', c.Says sh sh' → c.Moves ng sh c.unwind none sh' := fun sh' hsaid =>
    .refused h r _ sh' hpc hdone (.unwind c) hsaid fun hp => nomatch (unwind_past c).symm.trans hp
  unfold ReaderTask.refused
  split
  · split_ifs
    · exact hagain
    · exact hunwind _ (.leave c _ sh)
  · exact hunwind sh (Or.inl rfl)
  · exact hagain

theorem Moves.rejection {sh : Shared} {h : HolderCall} {r : HolderEnd} (hpc : c.pc = .rejecting h)
    (hdone : h.pc = .done r) :
    c.Moves ng sh (c.rejected r sh).1 (c.rejected r sh).2.1 (c.rejected r sh).2.2 := by
  have hr : Refusing h c.pc := by rw [hpc]; exact .rejecting
  cases r with
  | dropped => exact .refused h _ _ sh hr hdone (.unwind c) (Or.inl rfl) fun hp => nomatch (unwind_past c).symm.trans hp
  | failed e => exact .refused h _ _ sh hr hdone ⟨rfl, rfl, rfl⟩ (Or.inl rfl) fun hp => ⟨hpc, hp⟩
  | accepted ch | rejected => exact .refused h _ _ sh hr hdone ⟨rfl, rfl, rfl⟩ (Or.inl rfl) fun _ => ⟨hpc, rfl⟩

/-- The call returns with nothing to say. -/
theorem Moves.finishes {sh : Shared} (hl : c.pc.light = true) : c.Moves ng sh c.finish none sh := by
  exact .plain _ none sh hl (.finish c) nofun (Or.inl rfl) fun h => nomatch (finish_past c).symm.trans h

theorem Moves.prePaid {sh : Shared} (hl : c.pc.light = true) :
    c.Moves ng sh (c.prePaid sh).1 (c.prePaid sh).2.1 (c.prePaid sh).2.2 := by
  unfold ReaderTask.prePaid
  split
  · rename_i ch want hcall
    exact .looks none ch want hl hcall nofun
  · exact .goes _ hl rfl nofun

theorem Moves.acted {sh : Shared} {r : Option Error} (hpc : c.pc = .acted r) :
    c.Moves ng sh (c.next r sh).1 (c.next r sh).2.1 (c.next r sh).2.2 := by
  have hl : c.pc.light = true := by rw [hpc]; rfl
  have hpast : (r.filter fun e => !connectionGone e) = none → c.pc.past = true := by
    intro hr
    rw [hpc]
    cases r with
    | none => rfl
    | some e => simpa [ReaderPc.past, Option.filter_some] using hr
  unfold ReaderTask.next
  split
  · rename_i ch want hcall
    exact .looks _ ch want hl hcall fun hp => Or.inl (hpast (Option.isNone_iff_eq_none.mp hp))
  · exact .leave _ hl
  · rename_i hr
    exact .goes _ hl rfl fun _ => Or.inl (hpast hr)
  · exact .finishes hl
  · exact .goes _ hl rfl nofun

theorem stepRefusal_moves {wrap : HolderCall → ReaderPc}
    {ended : HolderEnd → Shared → ReaderTask × Option Use × Shared} {h : HolderCall} {a : Act} {sh : Shared}
    {m : ReaderTask × Option Use × Shared} (hpc : Refusing h c.pc) (hwrap : ∀ h, Refusing h (wrap h))
    (hended : ∀ r, h.pc = .done r → c.Moves ng sh (ended r sh).1 (ended r sh).2.1 (ended r sh).2.2)
    (hm : c.stepRefusal ng wrap ended h a sh = some m) : c.Moves ng sh m.1 m.2.1 m.2.2 := by
  unfold stepRefusal at hm
  split at hm
  · rename_i r hdone
    cases hm
    exact hended r hdone
  · obtain ⟨⟨h1, use1, sh1⟩, hstep, rfl⟩ := Option.map_eq_some_iff.mp hm
    exact .inner h h1 _ _ _ hpc (hwrap h1) (HolderCall.step_moves hstep)

theorem step_moves {a : Act} {sh : Shared} {m : ReaderTask × Option Use × Shared}
    (h : c.step ng a sh = some m) : c.Moves ng sh m.1 m.2.1 m.2.2 := by
  unfold step at h
  split at h
  · rename_i hpc
    split at h
    · cases h
      exact .leave _ (by rw [hpc]; rfl)
    · cases h
      refine .goes _ (by rw [hpc]; rfl) (by split <;> rfl) fun hp => ?_
      split at hp <;> cases hp
  · rename_i hpc
    split at h
    · rename_i destination hcall
      split at h
      · cases h
        exact .leave _ (by rw [hpc]; rfl)
      · rename_i ch u sh1 hslot
        cases h
        exact .allocates _ ch u _ hpc hslot hcall
    · cases h
  · rename_i hpc
    have hl : c.pc.light = true := by rw [hpc]; rfl
    split_ifs at h
    · cases h
      exact .plain _ _ sh hl ⟨rfl, rfl, rfl⟩ (fun u hu => (Option.some.inj hu).symm) (Or.inl rfl) nofun
    · cases h
      exact .prePaid hl
  · -- take_buffered
    rename_i pc d hpc
    split at h
    · rename_i ch want hcall
      split at h
      · cases h
      · rename_i pc' use1 sh1 ht
        cases h
        exact .takes ch want pc pc' d _ _ hcall hpc (TakePc.step_moves ht)
      · rename_i r use1 sh1 ht
        cases h
        have hm := TakePc.step_moves ht
        have huse : use1 = none := by cases hm <;> rfl
        subst huse
        exact .taken ch want pc d r _ hcall hpc hm
    · cases h
  · rename_i hpc
    split at h
    · split at h
      · cases h
        exact .leave _ (by rw [hpc]; rfl)
      · cases h
        exact .goes _ (by rw [hpc]; rfl) rfl nofun
    · cases h
  · rename_i hpc
    split at h
    · rename_i hd sh1 ht
      cases h
      exact .drains hd _ hpc ht
    · rename_i ht
      cases h
      exact .goes _ (by rw [hpc]; rfl) rfl fun _ => Or.inr (Or.inl ⟨hpc, ht⟩)
  · rename_i hd hpc
    refine stepRefusal_moves (h := hd) (by rw [hpc]; exact .draining) (fun _ => .draining) (fun r hdone => ?_) h
    exact .refusal _ (by rw [hpc]; exact .draining) hdone rfl rfl
  · -- serve
    rename_i hpc
    have hl : c.pc.light = true := by rw [hpc]; rfl
    split at h
    · rename_i hcall
      cases h
      refine .goes _ hl (by split_ifs <;> rfl) fun _ => Or.inr (Or.inr (Or.inl ⟨hpc, Or.inl hcall⟩))
    · rename_i hcall
      split at h
      · rename_i hd sh1 ht
        cases h
        exact .handsOut hd _ hpc (by rw [hcall]; nofun) ht
      · cases h
        exact .finishes hl
    · rename_i hcall _
      split at h
      · rename_i hd sh1 ht
        cases h
        exact .handsOut hd _ hpc hcall ht
      · rename_i ht
        cases h
        exact .goes _ hl rfl fun _ => Or.inr (Or.inr (Or.inl ⟨hpc, Or.inr ht⟩))
  · rename_i hpc
    split at h
    · rename_i hd sh1 ht
      cases h
      exact .refuses hd _ hpc ht
    · rename_i ht
      cases h
      exact .goes _ (by rw [hpc]; rfl) rfl fun _ => Or.inr (Or.inr (Or.inr ⟨hpc, ht⟩))
  · rename_i hd hpc
    refine stepRefusal_moves (h := hd) (by rw [hpc]; exact .refusing) (fun _ => .refusing) (fun r hdone => ?_) h
    exact .refusal _ (by rw [hpc]; exact .refusing) hdone rfl rfl
  · -- recv
    rename_i hpc
    split at h
    · cases h
      exact .leave _ (by rw [hpc]; rfl)
    · cases h
      exact .goes _ (by rw [hpc]; rfl) rfl fun _ => Or.inl (by rw [hpc]; rfl)
  · rename_i hpc
    have hl : c.pc.light = true := by rw [hpc]; rfl
    have hpast : c.pc.past = true := by rw [hpc]; rfl
    split_ifs at h
    · cases h
      exact .plain _ _ sh hl ⟨rfl, rfl, rfl⟩ (fun u hu => (Option.some.inj hu).symm) (Or.inl rfl) fun _ => Or.inl hpast
    · cases h
      exact .goes _ hl rfl fun _ => Or.inl hpast
  · rename_i pkt hpc
    cases h
    exact .receives pkt hpc
  · rename_i hpc
    split_ifs at h
    cases h
    exact .goes _ (by rw [hpc]; rfl) rfl fun _ => Or.inl (by rw [hpc]; rfl)
  · rename_i e hpc
    split_ifs at h
    · cases h
      exact .goes _ (by rw [hpc]; rfl) rfl nofun
    · cases h
      exact .leave _ (by rw [hpc]; rfl)
  · rename_i e hpc
    cases h
    exact .ends e _ hpc (.leave c e _)
  · rename_i pkt hpc
    cases h
    exact .received pkt hpc
  · -- act_on
    rename_i idx ids fault after hpc
    cases h
    exact .fails idx ids fault after hpc
  · rename_i d after hpc
    cases h
    exact .owes d after hpc
  · rename_i after hpc
    have hl : c.pc.light = true := by rw [hpc]; rfl
    have hpast : c.pc.past = true := by rw [hpc]; rfl
    split_ifs at h
    · cases h
      exact .plain _ _ sh hl ⟨rfl, rfl, rfl⟩ (fun u hu => (Option.some.inj hu).symm) (Or.inl rfl) fun _ => Or.inl hpast
    · cases h
      exact .goes _ hl rfl fun _ => Or.inl hpast
  · rename_i pending hpc
    split at h
    · rename_i sh1 hq
      cases h
      exact .queues pending _ hpc hq
    · rename_i hq
      cases h
      exact .overflows pending hpc hq
  · rename_i pending hpc
    cases h
    exact .stages pending hpc
  · rename_i hd hpc
    refine stepRefusal_moves (h := hd) (by rw [hpc]; exact .rejecting) (fun _ => .rejecting) (fun r hdone => ?_) h
    exact .rejection hpc hdone
  · rename_i remote hpc
    cases h
    exact .withdraws remote hpc
  · rename_i r hpc
    cases h
    exact .acted hpc
  · rename_i hpc
    split at h
    · rename_i ch hguard
      cases h
      exact .unguards ch hpc hguard
    · cases h
  · rename_i hpc
    cases h
    exact .stops hpc
  · cases h

/-! ### The guard -/

omit [Usize] in
theorem actOn_guard (c : ReaderTask) (outcome : DispatchOutcome) (sh : Shared) :
    (c.actOn outcome sh).1.guard = c.guard := by
  unfold actOn
  cases outcome with
  | channelFault =>
    dsimp only
    split_ifs <;> rfl
  | _ => rfl

omit [Usize] in
@[simp] theorem finish_guard (c : ReaderTask) : c.finish.guard = c.guard := (Light.finish c).guard

theorem receive_guard (c : ReaderTask) (pkt : Packet) (sh : Shared) :
    (c.receive pkt sh).1.guard = c.guard ∨ (c.receive pkt sh).1.guard = none := by
  unfold receive
  split
  · rename_i g hg
    split_ifs
    · unfold openReady
      split
      · exact Or.inr (finish_guard _)
      · split
        · exact Or.inr (finish_guard _)
        · exact Or.inl rfl
    · exact Or.inl (Light.unwind c).guard
    · exact Or.inl (actOn_guard c _ _)
  · exact Or.inl (actOn_guard c _ _)

/-- A guard is armed over a slot just taken, and never moved. -/
theorem Moves.guard {sh sh' : Shared} {c' : ReaderTask} {use : Option Use} (h : c.Moves ng sh c' use sh') :
    c'.guard = c.guard ∨ c'.guard = none ∨
      ∃ destination ch u, c'.guard = some ch ∧ takeSlot ng destination sh = .ok (ch, u, sh') := by
  cases h with
  | plain c' use sh' hl hl' => exact Or.inl hl'.guard
  | ends => exact Or.inl (Light.unwind c).guard
  | allocates destination ch u sh' hpc htake => exact Or.inr (Or.inr ⟨destination, ch, u, rfl, htake⟩)
  | taken ch want pc d r sh1 => exact Or.inl (c.taken_said d r sh1).1.guard
  | refused h r c' sh' hpc hdone hl' => exact Or.inl hl'.guard
  | received pkt hpc => exact (c.receive_guard pkt sh).imp id Or.inl
  | unguards ch hpc hg => exact Or.inr (Or.inl (finish_guard _))
  | _ => exact Or.inl rfl

/-- Where a call goes on once its use of the write half has ended with `r`. -/
inductive Resumes (c : ReaderTask) (r : Option Error) : ReaderTask → Prop
  | light (c' : ReaderTask) (hl : c.pc.light = true) (hl' : c.Light c')
      (hpast : c'.pc.past = true → c.pc.past = true) : Resumes c r c'
  | prePaid (ch : ChannelId) (want : ℕ) (hpc : c.pc = .prePaying) (hcall : c.call = .read ch want) :
      Resumes c r (c.goto (.take .look none))
  | acked (d : Option (Option Error)) (hpc : c.pc = .take .acking d) : Resumes c r (c.goto (.take .look d))
  | inner (h : HolderCall) (pc' : ReaderPc) (hpc : Refusing h c.pc) (hpc' : Refusing (h.resume r) pc')
      (hpast : pc'.past = c.pc.past) : Resumes c r (c.goto pc')
  | same : Resumes c r c

omit [Usize]

theorem resume_resumes (c : ReaderTask) (r : Option Error) (sh : Shared) :
    c.Resumes r (c.resume r sh).1 ∧ c.Says sh (c.resume r sh).2 := by
  have hleave : ∀ e, c.pc.light = true →
      c.Resumes r (c.leave e sh).1 ∧ c.Says sh (c.leave e sh).2.2 := fun e hl =>
    ⟨.light _ hl (.unwind c) (fun hp => nomatch (unwind_past c).symm.trans hp), .leave c e sh⟩
  have hpre : c.pc = .prePaying → c.Resumes r (c.prePaid sh).1 ∧ c.Says sh (c.prePaid sh).2.2 := by
    intro hpc
    unfold ReaderTask.prePaid
    split
    · rename_i ch want hcall
      exact ⟨.prePaid ch want hpc hcall, Or.inl rfl⟩
    · exact ⟨.light _ (by rw [hpc]; rfl) ⟨rfl, rfl, rfl⟩ nofun, Or.inl rfl⟩
  unfold resume
  dsimp only
  split
  · rename_i hpc
    exact ⟨.light _ (by rw [hpc]; rfl) ⟨rfl, rfl, rfl⟩ nofun, Or.inl rfl⟩
  · rename_i e hpc
    exact hleave e (by rw [hpc]; rfl)
  · rename_i hpc
    exact hpre hpc
  · rename_i e hpc
    split
    · exact hpre hpc
    · exact hleave e (by rw [hpc]; rfl)
  · rename_i d hpc
    exact ⟨.acked d hpc, Or.inl rfl⟩
  · rename_i h hpc
    exact ⟨.inner h _ (by rw [hpc]; exact .draining) .draining (by rw [hpc]; rfl), Or.inl rfl⟩
  · rename_i h hpc
    exact ⟨.inner h _ (by rw [hpc]; exact .refusing) .refusing (by rw [hpc]; rfl), Or.inl rfl⟩
  · rename_i h hpc
    exact ⟨.inner h _ (by rw [hpc]; exact .rejecting) .rejecting (by rw [hpc]; rfl), Or.inl rfl⟩
  · rename_i hpc
    exact ⟨.light _ (by rw [hpc]; rfl) ⟨rfl, rfl, rfl⟩ fun _ => by rw [hpc]; rfl, Or.inl rfl⟩
  · rename_i e hpc
    exact hleave e (by rw [hpc]; rfl)
  · rename_i after hpc
    exact ⟨.light _ (by rw [hpc]; rfl) ⟨rfl, rfl, rfl⟩ fun _ => by rw [hpc]; rfl, Or.inl rfl⟩
  · rename_i after e hpc
    exact ⟨.light _ (by rw [hpc]; rfl) ⟨rfl, rfl, rfl⟩ fun _ => by rw [hpc]; rfl, Or.inl rfl⟩
  · exact ⟨.same, Or.inl rfl⟩

theorem Resumes.guard {c c' : ReaderTask} {r : Option Error} (h : c.Resumes r c') : c'.guard = c.guard := by
  cases h with
  | light c' hl hl' => exact hl'.guard
  | _ => rfl

theorem drop_guard {c c' : ReaderTask} (h : c.drop = some c') : c'.guard = c.guard := by
  unfold drop at h
  split at h
  case h_7 => obtain ⟨h1, -, rfl⟩ := Option.map_eq_some_iff.mp h; rfl
  case h_8 => obtain ⟨h1, -, rfl⟩ := Option.map_eq_some_iff.mp h; rfl
  case h_9 => obtain ⟨h1, -, rfl⟩ := Option.map_eq_some_iff.mp h; rfl
  case h_10 => cases h
  all_goals
    cases h
    exact (Light.unwind c).guard

theorem cancel_guard {c c' : ReaderTask} {sh : Shared} (h : c.cancel sh = some c') : c'.guard = c.guard := by
  unfold cancel at h
  split at h
  · split_ifs at h
    cases h
    rfl
  · cases h

theorem begin_guard {c c' : ReaderTask} {call : ReaderCall} (h : c.begin call = some c') : c'.guard = none := by
  unfold ReaderTask.begin at h
  split_ifs at h
  cases h
  rfl

end ReaderTask

end LibAdb.Split
