import LibAdb.Base.ChannelTable
import LibAdb.Base.Negotiated
import LibAdb.Base.Wire.Send

/-!
# LibAdb.Base.Connection — the calls of `Connection`

`base/connection.rs` and `base/connection/accept.rs`.  The calls borrow the connection mutably, so there is one at a
time and each is a function of the connection's state: its table, its queue of requests, the sending side, what the
transport will deliver (`inputs`) and how it will treat what is sent (`ios`).

A call returns, fails, or is dropped at an await: while it waits for a packet, when there is no more input, or inside a
send.  Its loops run for a given number of rounds, and a call that is not back by then is dropped; a result about every
number of rounds is one about every point a call can be dropped at.

`sent` lists the packets whose write was begun, oldest first, and `log` the packets received and those of which the
transport may have taken something, in the order it happened; the code reads neither.
-/

namespace LibAdb

/-- What `recv_pkt_or` can be given. -/
inductive Input where
  | packet (pkt : Packet)
  | failed (e : Error)
  | interrupted
  deriving DecidableEq, Repr

/-- How a call ends that does not return a value. -/
inductive Halt where
  | err (e : Error)
  | dropped
  deriving DecidableEq, Repr

inductive SelectResult where
  | data (bytes : Bytes)
  | interrupted
  deriving DecidableEq, Repr

inductive Event where
  | received (pkt : Packet)
  | wrote (pkt : Packet)
  deriving DecidableEq, Repr

structure Connection where
  table : ChannelTable
  incoming : IncomingQueue
  out : Outbound
  inputs : List Input
  ios : List Io
  sent : List Packet
  log : List Event

/-! ## Calls -/

/-- A piece of a call. -/
def ConnM (α : Type) : Type := Connection → Except Halt α × Connection

namespace ConnM

variable {α β : Type}

instance : Monad ConnM where
  pure a := fun s => (.ok a, s)
  bind m f := fun s =>
    match m s with
    | (.ok a, s) => f a s
    | (.error h, s) => (.error h, s)

/-- `return Err(e)` -/
def fail (e : Error) : ConnM α := fun s => (.error (.err e), s)

def dropped : ConnM α := fun s => (.error .dropped, s)

def state : ConnM Connection := fun s => (.ok s, s)

/-- Change the table. -/
def setTable (table : ChannelTable) : ConnM Unit := fun s => (.ok (), { s with table })

def setIncoming (incoming : IncomingQueue) : ConnM Unit := fun s => (.ok (), { s with incoming })

def lift : Except Error α → ConnM α
  | .ok a => pure a
  | .error e => fail e

/-- The result of a piece, with its error in hand. -/
def attempt (m : ConnM α) : ConnM (Except Error α) := fun s =>
  match m s with
  | (.ok a, s) => (.ok (.ok a), s)
  | (.error (.err e), s) => (.ok (.error e), s)
  | (.error .dropped, s) => (.error .dropped, s)

/-- Whether `send` gets as far as the transport. -/
def begins (o : Outbound) (pkt : Packet) : Bool := !o.desync && decide (pkt.data.length ≤ maxPayloadConst)

/-- Whether the transport may take something of it. -/
def reaches (o : Outbound) (pkt : Packet) : Bool := begins o pkt && !o.transport.gone

/-- One of the four sending functions. -/
def send (c : Send) : ConnM Unit := fun s =>
  match s.ios with
  | [] => (.error .dropped, s)
  | io :: ios =>
    let r := c.call io s.out
    let s := { s with
      out := r.2
      ios
      sent := if begins s.out c.packet then s.sent ++ [c.packet] else s.sent
      log := if reaches s.out c.packet then s.log ++ [.wrote c.packet] else s.log }
    match r.1 with
    | .ok => (.ok (), s)
    | .err e => (.error (.err e), s)
    | .dropped => (.error .dropped, s)

/-- `recv_pkt_or`: a packet, or `none` when the interrupt is first. -/
def recvPktOr : ConnM (Option Packet) := fun s =>
  match s.inputs with
  | [] => (.error .dropped, s)
  | .packet pkt :: inputs => (.ok (some pkt), { s with inputs, log := s.log ++ [.received pkt] })
  | .failed e :: inputs => (.error (.err e), { s with inputs })
  | .interrupted :: inputs => (.ok none, { s with inputs })

/-- `recv_pkt`: there is no interrupt to wait for. -/
def recvPkt : ConnM Packet := fun s =>
  match s.inputs.filter (· ≠ .interrupted) with
  | .packet pkt :: inputs => (.ok pkt, { s with inputs, log := s.log ++ [.received pkt] })
  | .failed e :: inputs => (.error (.err e), { s with inputs })
  | _ => (.error .dropped, s)

/-- `desync.check()` -/
def checkDesync : ConnM Unit := do
  let s ← state
  if s.out.desync then fail .desynchronized

/-! ### One piece after another -/

section Bind

variable {m : ConnM α} {f : α → ConnM β} {s s' : Connection} {a : α}

theorem bind_of_ok (h : m s = (.ok a, s')) : (m >>= f) s = f a s' := by
  simp only [Bind.bind, h]

theorem bind_of_error {halt : Halt} (h : m s = (.error halt, s')) : (m >>= f) s = (.error halt, s') := by
  simp only [Bind.bind, h]

/-- What a piece that returned did first. -/
theorem bind_eq_ok {b : β} (h : (m >>= f) s = (.ok b, s')) :
    ∃ a s1, m s = (.ok a, s1) ∧ f a s1 = (.ok b, s') := by
  rcases hm : m s with ⟨_ | a, s1⟩
  · rw [bind_of_error hm] at h
    cases h
  · rw [bind_of_ok hm] at h
    exact ⟨a, s1, rfl, h⟩

theorem attempt_of_ok (h : m s = (.ok a, s')) : attempt m s = (.ok (.ok a), s') := by
  rw [attempt, h]

theorem attempt_of_err {e : Error} (h : m s = (.error (.err e), s')) : attempt m s = (.ok (.error e), s') := by
  rw [attempt, h]

theorem map_of_ok (g : α → β) (h : m s = (.ok a, s')) : (g <$> m) s = (.ok (g a), s') := bind_of_ok h

theorem state_bind (g : Connection → ConnM β) : (state >>= g) s = g s s := rfl

theorem lift_ok (a : α) : lift (.ok a) s = (.ok a, s) := rfl

theorem lift_eq_ok {r : Except Error α} (h : lift r s = (.ok a, s')) : r = .ok a ∧ s' = s := by
  cases r with
  | error e => cases h
  | ok b =>
    cases h
    exact ⟨rfl, rfl⟩

end Bind

end ConnM

namespace Connection

open ConnM

variable [Usize] (ng : Negotiated)

/-- `slot_mut` -/
def slotMut (ch : ChannelId) : ConnM ChannelSlot := do
  let s ← state
  match s.table.get ch with
  | some slot => pure slot
  | none => fail .channelClosed

section SlotMut

variable {ch : ChannelId} {slot : ChannelSlot} {s s' : Connection}

omit [Usize] in
theorem slotMut_of_get (h : s.table.get ch = some slot) : slotMut ch s = (.ok slot, s) := by
  rw [slotMut, state_bind, h]
  rfl

omit [Usize] in
theorem slotMut_ok (h : slotMut ch s = (.ok slot, s')) : s.table.get ch = some slot ∧ s' = s := by
  rw [slotMut, state_bind] at h
  cases hget : s.table.get ch with
  | none => rw [hget] at h; cases h
  | some slot1 =>
    rw [hget] at h
    cases h
    exact ⟨rfl, rfl⟩

end SlotMut

/-- Write a slot back. -/
def putSlot (ch : ChannelId) (slot : ChannelSlot) : ConnM Unit := do
  let s ← state
  setTable (s.table.put ch.slot (some slot))

/-- `send_okay` -/
def sendOkay (ack : PendingAck) : ConnM Unit := send (.okayTo ack ng.ackMode ng.checksum)

/-- `act_on` -/
def actOn (pkt : Packet) : ConnM Unit := do
  let s ← state
  let (outcome, table) := s.table.dispatch pkt
  setTable table
  match outcome with
  | .ackWrite _ ack => sendOkay ng ack
  | .incomingOpen remote credit destination =>
    if table.len ≤ s.incoming.length then send (.pkt (Packet.refuse remote) ng.checksum)
    else setIncoming (s.incoming ++ [⟨remote, credit, destination⟩])
  | .cancelPendingOpen remote => setIncoming (s.incoming.withdraw remote)
  | .strayReady ids => send (.pkt (Packet.close ids) ng.checksum)
  | .channelFault _ _ _ fault => fail fault.error
  | _ => pure ()

/-- `dispatch` -/
def dispatch (pkt : Packet) : ConnM Unit := do
  match ← attempt (actOn ng pkt) with
  | .ok () => pure ()
  | .error e => if connectionGone e then pure () else fail e

/-! ## Opening -/

/-- `await_open_ack` -/
def awaitOpenAck (ch : ChannelId) : ℕ → ConnM ChannelId
  | 0 => dropped
  | rounds + 1 => do
    let pkt ← recvPkt
    if pkt.command = .ready ∧ pkt.arg1 = ch.localId.raw then
      let s ← state
      setTable (s.table.insertOpening ch)
      match (ChannelSlot.opening ch.localId s.table.policy).acceptOpenReady ⟨pkt.arg0⟩ pkt.data with
      | .ok slot =>
        putSlot ch slot
        pure ch
      | .error e =>
        let s ← state
        setTable (s.table.freed ch)
        send (.pkt (Packet.close ⟨ch.localId, ⟨pkt.arg0⟩⟩) ng.checksum)
        fail (.protocol e)
    else if pkt.command = .close ∧ pkt.arg1 = ch.localId.raw then fail .channelClosed
    else
      dispatch ng pkt
      awaitOpenAck ch rounds

/-- `open_channel` -/
def openChannel (destination : Bytes) (rounds : ℕ) : ConnM ChannelId := do
  checkDesync
  let s ← state
  match s.table.allocate with
  | none => fail .noFreeChannels
  | some (ch, table) =>
    setTable table
    send (.«open» ch.localId (ng.advertisedCredit.getD 0) destination ng.checksum)
    awaitOpenAck ng ch rounds

/-! ## Reading -/

/-- `take_buffered` -/
def takeBuffered (ch : ChannelId) (want : ℕ) : ConnM (Option Bytes) := do
  let s ← state
  if (s.table.get ch).any ChannelSlot.hasData then pure () else checkDesync
  let slot ← slotMut ch
  match slot.settleTake want with
  | some (ack, slot) =>
    putSlot ch slot
    let _ ← attempt (sendOkay ng ack)
  | none => pure ()
  let slot ← slotMut ch
  match ← lift (slot.takeBuffered want) with
  | some (out, slot) =>
    putSlot ch slot
    pure (some out)
  | none => pure none

/-- The slot of `ch`, if it is still there, acknowledges what was handed over. -/
def deliver (ch : ChannelId) (n : ℕ) : ConnM Unit := do
  let s ← state
  match s.table.get ch with
  | none => pure ()
  | some slot =>
    putSlot ch (slot.deliver n).2
    match (slot.deliver n).1 with
    | some ack =>
      let _ ← attempt (sendOkay ng ack)
    | none => pure ()

/-- The device has closed `ch`. -/
def closedByDevice {α : Type} (ch : ChannelId) : ConnM α := do
  let s ← state
  match s.table.get ch with
  | some slot => putSlot ch slot.applyClose
  | none => pure ()
  fail .channelClosed

omit [Usize] in
theorem closedByDevice_ne_ok {α : Type} (ch : ChannelId) {s s' : Connection} {a : α} :
    closedByDevice ch s ≠ (.ok a, s') := by
  intro h
  rw [closedByDevice, state_bind] at h
  cases hget : s.table.get ch with
  | none => rw [hget] at h; cases h
  | some slot =>
    rw [hget] at h
    obtain ⟨-, s1, -, h⟩ := bind_eq_ok h
    cases h

/-- The next packet, or `none` when the interrupt is first; `interruptible` is whether the call has one at all. -/
def recv (interruptible : Bool) : ConnM (Option Packet) := if interruptible then recvPktOr else some <$> recvPkt

/-- The loop of `recv_data`. -/
def recvLoop (ch : ChannelId) (ids : ChannelIds) (want : ℕ) (interruptible : Bool) : ℕ → ConnM SelectResult
  | 0 => dropped
  | rounds + 1 => do
    match ← recv interruptible with
    | none => pure .interrupted
    | some pkt =>
      if pkt.command = .write ∧ pkt.arg1 = ids.localId.raw ∧ pkt.data.length ≤ want then
        deliver ng ch pkt.data.length
        pure (.data pkt.data)
      else if ids.closedBy pkt then closedByDevice ch
      else
        let dispatched ← attempt (dispatch ng pkt)
        let taken ← attempt (takeBuffered ng ch want)
        match taken, dispatched with
        | .ok (some out), _ => pure (.data out)
        | _, .error e => fail e
        | .error e, _ => fail e
        | .ok none, .ok () => recvLoop ch ids want interruptible rounds

/-- `recv_data` -/
def recvData (ch : ChannelId) (want : ℕ) (interruptible : Bool) (rounds : ℕ) : ConnM SelectResult := do
  match ← takeBuffered ng ch want with
  | some out => pure (.data out)
  | none =>
    let s ← state
    let ids ← lift (s.table.ids ch)
    recvLoop ng ch ids want interruptible rounds

/-- `read_channel` -/
def readChannel (ch : ChannelId) (want : ℕ) (rounds : ℕ) : ConnM SelectResult := recvData ng ch want false rounds

/-- `select_channel` -/
def selectChannel (ch : ChannelId) (want : ℕ) (rounds : ℕ) : ConnM SelectResult := recvData ng ch want true rounds

/-! ## Writing -/

/-- `wait_ack` -/
def waitAck (ch : ChannelId) : ℕ → ConnM Unit
  | 0 => dropped
  | rounds + 1 => do
    let slot ← slotMut ch
    if slot.isClosed then fail .channelClosed
    else if slot.budget.isSome then pure ()
    else
      let s ← state
      let ids ← lift (s.table.ids ch)
      let pkt ← recvPkt
      if pkt.command = .ready ∧ pkt.arg1 = ids.localId.raw then
        let s ← state
        match s.table.get ch with
        | some slot =>
          match slot.applyReady pkt.data with
          | .ok slot =>
            putSlot ch slot
            waitAck ch rounds
          | .error e => fail (.protocol e)
        | none => waitAck ch rounds
      else if ids.closedBy pkt then closedByDevice ch
      else
        dispatch ng pkt
        waitAck ch rounds

/-- The loop of `write_channel`, from `offset` on. -/
def writeLoop (ch : ChannelId) (data : Bytes) (rounds : ℕ) : ℕ → ℕ → ConnM Unit
  | 0, _ => dropped
  | chunks + 1, offset => do
    if offset < data.length then
      waitAck ng ch rounds
      let slot ← slotMut ch
      let n := min (min (data.length - offset) (max ng.maxPayload.toNat 1)) (slot.budget.getD 0)
      let s ← state
      let ids ← lift (s.table.ids ch)
      send (.raw .write ids ((data.drop offset).take n) ng.checksum)
      let slot ← slotMut ch
      putSlot ch (slot.spend n)
      writeLoop ch data rounds chunks (offset + n)
    else pure ()

/-- `write_channel` -/
def writeChannel (ch : ChannelId) (data : Bytes) (rounds chunks : ℕ) : ConnM Unit := do
  checkDesync
  if data = [] then pure () else writeLoop ng ch data rounds chunks 0

/-- `close_channel` -/
def closeChannel (ch : ChannelId) : ConnM Unit := do
  checkDesync
  let s ← state
  let ids ← lift (s.table.ids ch)
  setTable (s.table.freed ch)
  send (.pkt (Packet.close ids) ng.checksum)

/-! ## Requests

An `Incoming` borrows the connection, so its verdict is the next thing that happens. -/

inductive Verdict where
  | accept
  | reject
  | drop
  deriving DecidableEq, Repr

/-- `Drop for Incoming`: the slot still reserved and the request still undecided. -/
def dropIncoming (reserved : Option ChannelId) (pending : Option PendingOpen) : Connection → Connection := fun s =>
  let table := match reserved with
    | some ch => s.table.freed ch
    | none => s.table
  { s with table, incoming := pending.toList ++ s.incoming }

/-- `answer`, and the destructor after it: a verdict that was written, or that found the device gone, consumes the
request; only one that was written keeps the slot. -/
def answer (pending : PendingOpen) (reserved : Option ChannelId) (verdict : Packet) : ConnM Unit := fun s =>
  match send (.pkt verdict ng.checksum) s with
  | (.ok (), s) => (.ok (), s)
  | (.error (.err e), s) =>
    (.error (.err e), dropIncoming reserved (if connectionGone e then none else some pending) s)
  | (.error .dropped, s) => (.error .dropped, dropIncoming reserved (some pending) s)

/-- `Incoming::accept` -/
def accept (pending : PendingOpen) : ConnM ChannelId := do
  let s ← state
  match s.table.allocate with
  | none =>
    answer ng pending none (Packet.refuse pending.remote)
    fail .noFreeChannels
  | some (ch, table) =>
    setTable (table.insertAccepted ch pending.remote pending.credit)
    let payload := match ng.advertisedCredit with
      | some credit => toLeBytes credit
      | none => []
    answer ng pending (some ch) ⟨.ready, ch.localId.raw, pending.remote.raw, payload⟩
    pure ch

/-- The application decides on a request. -/
def decide (pending : PendingOpen) : Verdict → ConnM (Option ChannelId)
  | .accept => some <$> accept ng pending
  | .reject => do
    answer ng pending none (Packet.refuse pending.remote)
    pure none
  | .drop => fun s => (.ok none, dropIncoming none (some pending) s)

/-- `accept_incoming` and what the application makes of it. -/
def acceptIncoming (verdict : Verdict) : ℕ → ConnM (Option ChannelId)
  | 0 => dropped
  | rounds + 1 => do
    let s ← state
    match s.incoming with
    | pending :: incoming =>
      setIncoming incoming
      decide ng pending verdict
    | [] =>
      let pkt ← recvPkt
      dispatch ng pkt
      acceptIncoming verdict rounds

/-- `try_accept_incoming` and what the application makes of it. -/
def tryAcceptIncoming (verdict : Verdict) : ConnM (Option ChannelId) := do
  let s ← state
  match s.incoming with
  | pending :: incoming =>
    setIncoming incoming
    decide ng pending verdict
  | [] => pure none

/-! ## Sequences of calls -/

/-- A call of the application's, with how far it is let run. -/
inductive Call where
  | «open» (destination : Bytes) (rounds : ℕ)
  | read (ch : ChannelId) (want rounds : ℕ)
  | select (ch : ChannelId) (want rounds : ℕ)
  | write (ch : ChannelId) (data : Bytes) (rounds chunks : ℕ)
  | close (ch : ChannelId)
  | accept (verdict : Verdict) (rounds : ℕ)
  | tryAccept (verdict : Verdict)
  deriving DecidableEq, Repr

/-- The connection after a call, however it ended. -/
def after (s : Connection) : Call → Connection
  | .«open» destination rounds => (openChannel ng destination rounds s).2
  | .read ch want rounds => (readChannel ng ch want rounds s).2
  | .select ch want rounds => (selectChannel ng ch want rounds s).2
  | .write ch data rounds chunks => (writeChannel ng ch data rounds chunks s).2
  | .close ch => (closeChannel ng ch s).2
  | .accept verdict rounds => (do checkDesync; acceptIncoming ng verdict rounds : ConnM _) s |>.2
  | .tryAccept verdict => (tryAcceptIncoming ng verdict s).2

/-- The connection after a sequence of calls. -/
def run (s : Connection) (calls : List Call) : Connection := calls.foldl (after ng) s

end Connection

/-! ## A logic for pieces of calls

`Goes` is the rule they are taken apart with: where a piece of a call leads when it returns, and where when it stops. -/

namespace ConnM

section Logic

variable {α β : Type} {E E' : Connection → Prop} {m : ConnM α} {f : α → ConnM β} {s : Connection}
  {Q Q' R : α → Connection → Prop} {P : β → Connection → Prop}

/-- From `s` the piece `m` returns in `Q`, or stops in `E`. -/
def Goes (E : Connection → Prop) (m : ConnM α) (s : Connection) (Q : α → Connection → Prop) : Prop :=
  match m s with
  | (.ok a, s') => Q a s'
  | (.error _, s') => E s'

theorem Goes.of_ok {a : α} {s' : Connection} (h : m s = (.ok a, s')) (hQ : Q a s') : Goes E m s Q := by
  unfold Goes
  rw [h]
  exact hQ

theorem Goes.of_error {halt : Halt} {s' : Connection} (h : m s = (.error halt, s')) (hE : E s') : Goes E m s Q := by
  unfold Goes
  rw [h]
  exact hE

theorem Goes.ok {a : α} {s' : Connection} (h : Goes E m s Q) (hm : m s = (.ok a, s')) : Q a s' := by
  unfold Goes at h
  rwa [hm] at h

theorem Goes.mono (h : Goes E m s Q) (hE : ∀ s', E s' → E' s') (hQ : ∀ a s', Q a s' → Q' a s') : Goes E' m s Q' := by
  rcases hm : m s with ⟨_ | a, s'⟩
  · refine .of_error hm (hE s' ?_)
    unfold Goes at h
    rwa [hm] at h
  · exact .of_ok hm (hQ a s' (h.ok hm))

theorem Goes.bind (h : Goes E m s R) (hf : ∀ a s', R a s' → Goes E (f a) s' P) : Goes E (m >>= f) s P := by
  rcases hm : m s with ⟨_ | a, s'⟩
  · refine .of_error (bind_of_error hm) ?_
    unfold Goes at h
    rwa [hm] at h
  · have hgo := hf a s' (h.ok hm)
    unfold Goes at hgo ⊢
    rw [bind_of_ok hm]
    exact hgo

/-- However it ends. -/
theorem Goes.after (h : Goes E m s Q) (hQ : ∀ a s', Q a s' → E s') : E (m s).2 := by
  rcases hm : m s with ⟨_ | a, s'⟩
  · unfold Goes at h
    rwa [hm] at h
  · exact hQ a s' (h.ok hm)

theorem goes_pure {a : α} (h : Q a s) : Goes E (pure a) s Q := h

theorem goes_fail {e : Error} (h : E s) : Goes E (fail e) s Q := h

theorem goes_state {g : Connection → ConnM β} (h : Goes E (g s) s P) : Goes E (state >>= g) s P := h

theorem goes_lift {r : Except Error α} (hE : E s) (h : ∀ a, r = .ok a → Goes E (f a) s P) :
    Goes E (lift r >>= f) s P := by
  cases r with
  | error e => exact hE
  | ok a => exact h a rfl

theorem goes_setTable {g : Unit → ConnM β} {table : ChannelTable} (h : Goes E (g ()) { s with table } P) :
    Goes E (setTable table >>= g) s P := h

theorem goes_setIncoming {g : Unit → ConnM β} {incoming : IncomingQueue} (h : Goes E (g ()) { s with incoming } P) :
    Goes E (setIncoming incoming >>= g) s P := h

/-- A piece whose error is looked at: the call goes on either way. -/
theorem Goes.attempt_bind {g : Except Error α → ConnM β} (h : Goes E' m s R) (hE : ∀ s', E' s' → E s')
    (hok : ∀ a s', R a s' → Goes E (g (.ok a)) s' P) (herr : ∀ e s', E' s' → Goes E (g (.error e)) s' P) :
    Goes E (attempt m >>= g) s P := by
  rcases hm : m s with ⟨(e | _) | a, s'⟩
  · have hs : E' s' := by
      unfold Goes at h
      rwa [hm] at h
    have hgo := herr e s' hs
    unfold Goes at hgo ⊢
    rwa [bind_of_ok (attempt_of_err hm)]
  · have hd : attempt m s = (.error .dropped, s') := by rw [attempt, hm]
    refine .of_error (bind_of_error hd) (hE s' ?_)
    unfold Goes at h
    rwa [hm] at h
  · have hgo := hok a s' (h.ok hm)
    unfold Goes at hgo ⊢
    rwa [bind_of_ok (attempt_of_ok hm)]

theorem goes_checkDesync {g : Unit → ConnM β} (hE : E s) (h : s.out.desync = false → Goes E (g ()) s P) :
    Goes E (checkDesync >>= g) s P := by
  cases hd : s.out.desync with
  | true =>
    have hrun : checkDesync s = (.error (.err .desynchronized), s) := by
      simp only [Bind.bind, checkDesync, state, hd, if_true]
      rfl
    exact .of_error (bind_of_error hrun) hE
  | false =>
    have hrun : checkDesync s = (.ok (), s) := by
      simp only [Bind.bind, checkDesync, state, hd]
      rfl
    have := h hd
    unfold Goes at this ⊢
    rwa [bind_of_ok hrun]

variable {c : ChannelId} {slot : ChannelSlot} {g : ChannelSlot → ConnM β}

theorem goes_slotMut_of_get (hget : s.table.get c = some slot) (h : Goes E (g slot) s P) :
    Goes E (Connection.slotMut c >>= g) s P := by
  unfold Goes at h ⊢
  rwa [bind_of_ok (Connection.slotMut_of_get hget)]

theorem goes_slotMut (hE : E s) (h : ∀ slot, s.table.get c = some slot → Goes E (g slot) s P) :
    Goes E (Connection.slotMut c >>= g) s P := by
  cases hget : s.table.get c with
  | none =>
    have hrun : Connection.slotMut c s = (.error (.err .channelClosed), s) := by
      rw [Connection.slotMut, state_bind, hget]
      rfl
    exact .of_error (bind_of_error hrun) hE
  | some slot => exact goes_slotMut_of_get hget (h slot hget)

theorem goes_putSlot {f : Unit → ConnM β}
    (h : Goes E (f ()) { s with table := s.table.put c.slot (some slot) } P) :
    Goes E (Connection.putSlot c slot >>= f) s P := h

end Logic

end ConnM

end LibAdb
