import LibAdb.Base.ChannelTable
import LibAdb.Base.Negotiated
import LibAdb.Base.Wire.Send

/-!
# LibAdb.Split.Shared — what the tasks of a split connection share

`split/shared.rs`: the state behind the `Arc`, and the operations that touch it without an await.  Each of them is one
critical section of the source, or a few loads and stores in a row, and is one step here.  The flags `desync`,
`stopped` and `streamOver` only ever rise, so reading several of them in one step is reading them at one instant.

* A `FlowSignal` is the number of times it was woken; a listener remembers the number it was made at and is due once
  the signal is past it.
* `staged` pairs a device id with the number of the holder's `cancelled` flag, which stands for the `Arc` the source
  compares by address; `cancelled` holds the flags.
* `gone` says that the transport has reported a `connection_gone` kind, `trace` is what has happened so far, oldest
  first.  Neither is read by the code.
-/

namespace LibAdb.Split

/-- `Owed` -/
inductive Owed where
  | okay (ack : PendingAck)
  | close (ids : ChannelIds)
  deriving DecidableEq, Repr

/-- The packet that pays a debt. -/
def Owed.packet (mode : AckMode) : Owed → Packet
  | .okay ack => okayPacket ack mode
  | .close ids => Packet.close ids

/-- A request that is being decided: the fields of `SplitIncoming`. -/
structure Holder where
  pending : Option PendingOpen
  reserved : Option ChannelId
  flag : ℕ
  deriving DecidableEq, Repr

/-- What can be seen of a run. -/
inductive Obs where
  /-- A debt joined the list. -/
  | owed (d : Owed)
  /-- A task took the write half. -/
  | locked (task : ℕ)
  /-- A packet's write was begun: a debt's, or the call's own. -/
  | begun (debt : Bool) (pkt : Packet)
  /-- The transport accepted the last byte of the packet begun last, from this task. -/
  | wrote (task : ℕ) (debt : Bool) (pkt : Packet)
  /-- Its flush succeeded. -/
  | flushed (debt : Bool) (pkt : Packet)
  /-- A debt left the list: `pop_front`. -/
  | paid (d : Owed)
  /-- The list was cleared: the device is gone. -/
  | forgiven
  /-- `settle_take` handed an OKAY to the write. -/
  | settled (ack : PendingAck)
  /-- A packet was taken off the connection, with what the table made of it. -/
  | received (pkt : Packet) (outcome : DispatchOutcome)
  /-- A read returned bytes. -/
  | read (ch : ChannelId) (out : Bytes)
  /-- A read failed. -/
  | readFailed (ch : ChannelId) (e : Error)
  /-- An open returned its channel. -/
  | opened (ch : ChannelId)
  /-- A request was handed to the application. -/
  | handedOut (h : Holder)
  deriving DecidableEq, Repr

structure Shared where
  channels : ChannelTable
  signals : List ℕ
  desync : Bool
  incoming : IncomingQueue
  staged : List (RemoteId × ℕ)
  cancelled : List Bool
  stopped : Bool
  streamOver : Bool
  endedInStep : Bool
  listeners : ℕ
  incomingSignal : ℕ
  receiveSignal : ℕ
  owed : List Owed
  /-- The task that holds the write half. -/
  writeHalf : Option ℕ
  gone : Bool
  trace : List Obs

namespace Shared

variable (sh : Shared)

/-! ## Signals -/

def note (o : Obs) : Shared := { sh with trace := sh.trace ++ [o] }

@[simp] theorem note_trace (o : Obs) : (sh.note o).trace = sh.trace ++ [o] := rfl

@[simp] theorem note_owed (o : Obs) : (sh.note o).owed = sh.owed := rfl

@[simp] theorem note_gone (o : Obs) : (sh.note o).gone = sh.gone := rfl

@[simp] theorem note_desync (o : Obs) : (sh.note o).desync = sh.desync := rfl

/-- `FlowSignal::wake` -/
def wake (idx : ℕ) : Shared := { sh with signals := sh.signals.modify idx (· + 1) }

/-- `wake_all` -/
def wakeAll : Shared :=
  { sh with
    signals := sh.signals.map (· + 1)
    incomingSignal := sh.incomingSignal + 1
    receiveSignal := sh.receiveSignal + 1 }

/-! ## Whether the connection still works -/

/-- `DesyncFlag::check` -/
def checkDesync : Option Error := if sh.desync then some .desynchronized else none

/-- `check_in_step` -/
def checkInStep : Option Error := if sh.desync && !sh.endedInStep then some .desynchronized else none

/-- `check_live` -/
def checkLive : Option Error := sh.checkInStep <|> if sh.stopped then some .disconnected else none

/-- `has_ended` -/
def hasEnded : Bool := sh.checkLive.isSome

/-- `clse_called_off` -/
def clseCalledOff : Bool := sh.streamOver || sh.desync

/-- `check_close` -/
def checkClose : Option Error := if sh.streamOver then sh.checkInStep else sh.checkDesync

/-- `stop` -/
def stop : Shared :=
  { sh with
    endedInStep := if sh.stopped then sh.endedInStep else !sh.desync
    stopped := true }.wakeAll

/-- `end_stream` -/
def endStream : Shared := { sh with streamOver := true }.stop

/-! ## Debts and the write half -/

/-- `owe` -/
def owe (d : Owed) : Shared :=
  { sh with owed := sh.owed ++ [d], receiveSignal := sh.receiveSignal + 1 }.note (.owed d)

/-- `Drop for WriteLock` -/
def release : Shared :=
  let sh := { sh with writeHalf := none }
  if sh.desync then sh.wakeAll else sh

@[simp] theorem release_trace : sh.release.trace = sh.trace := by
  unfold release
  dsimp only
  split_ifs <;> rfl

@[simp] theorem release_channels : sh.release.channels = sh.channels := by
  unfold release
  dsimp only
  split_ifs <;> rfl

@[simp] theorem release_owed : sh.release.owed = sh.owed := by
  unfold release
  dsimp only
  split_ifs <;> rfl

@[simp] theorem release_gone : sh.release.gone = sh.gone := by
  unfold release
  dsimp only
  split_ifs <;> rfl

@[simp] theorem release_desync : sh.release.desync = sh.desync := by
  unfold release
  dsimp only
  split_ifs <;> rfl

@[simp] theorem release_writeHalf : sh.release.writeHalf = none := by
  unfold release
  dsimp only
  split_ifs <;> rfl

/-- What `send_pkt`, `send_raw` and `send_open` check before they write. -/
def refuses (pkt : Packet) : Option Error :=
  if sh.desync then some .desynchronized
  else if maxPayloadConst < pkt.data.length then some (.protocol .payloadTooLarge)
  else none

/-! ## Requests -/

/-- `hold_incoming` -/
def holdIncoming (pending : PendingOpen) : Holder × Shared :=
  (⟨some pending, none, sh.cancelled.length⟩,
    { sh with
      cancelled := sh.cancelled ++ [false]
      staged := sh.staged ++ [(pending.remote, sh.cancelled.length)] })

/-- `take_incoming_past` -/
def takeIncomingPast (cap : ℕ) : Option (Holder × Shared) :=
  if sh.staged.length + sh.incoming.length ≤ cap then none
  else match sh.incoming with
    | [] => none
    | pending :: incoming => some ({ sh with incoming }.holdIncoming pending)

/-- `take_incoming` -/
def takeIncoming : Option (Holder × Shared) := sh.takeIncomingPast 0

/-- `take_incoming` for the application. -/
def handOut : Option (Holder × Shared) :=
  sh.takeIncoming.map fun (h, sh) => (h, sh.note (.handedOut h))

/-- The critical section of `queue_or_refuse`; `none` when the request is to be refused. -/
def queueIncoming (maxChannels : ℕ) (pending : PendingOpen) : Option Shared :=
  if maxChannels ≤ sh.staged.length + sh.incoming.length then none
  else some { sh with
    incoming := sh.incoming ++ [pending]
    incomingSignal := sh.incomingSignal + 1 }

/-- Set the flags of the holders of `remote`. -/
def cancelStaged (remote : RemoteId) : List Bool :=
  sh.staged.foldl (fun flags (id, flag) => if id = remote then flags.set flag true else flags) sh.cancelled

/-- `withdraw_open` -/
def withdrawOpen (remote : RemoteId) : Shared :=
  match sh.channels.closeRemote remote with
  | some (idx, channels) => { sh with channels }.wake idx
  | none =>
    { sh with
      incoming := sh.incoming.withdraw remote
      cancelled := sh.cancelStaged remote }

def isCancelled (flag : ℕ) : Bool := sh.cancelled.getD flag false

/-! ## Channels -/

/-- The critical section of `fail_channel`. -/
def failChannel (idx : ℕ) (ids : ChannelIds) (fault : ChannelFault) : Shared :=
  match sh.channels.get ⟨idx, ids.localId⟩ with
  | some slot => { sh with channels := sh.channels.put idx (some (slot.fail fault)) }.wake idx
  | none => sh

/-! ### Guards -/

/-- `Drop for SlotGuard`, armed. -/
def dropSlot (ch : ChannelId) : Shared :=
  match sh.channels.free ch with
  | none => sh
  | some (slot, channels) =>
    let sh := { sh with channels }
    match slot.ids.filter fun _ => !slot.isFailed with
    | some ids => sh.owe (.close ids)
    | none => sh

variable [Usize]

/-- `Drop for CreditGuard` -/
def dropCredit (ch : ChannelId) (n : ℕ) (committed : Bool) : Shared :=
  let sh := match sh.channels.get ch with
    | some slot =>
      let slot := { slot with sendQueue := slot.sendQueue.finish }
      { sh with channels := sh.channels.put ch.slot (some (if committed then slot else slot.refund n)) }
    | none => sh
  if committed then sh else sh.wake ch.slot

/-- `Drop for QueueGuard`, not served. -/
def leaveQueue (ch : ChannelId) (place : ℕ) : Shared :=
  match sh.channels.get ch with
  | some slot =>
    let (moved, sendQueue) := slot.sendQueue.leave place
    let sh := { sh with channels := sh.channels.put ch.slot (some { slot with sendQueue }) }
    if moved then sh.wake ch.slot else sh
  | none => sh

end Shared

end LibAdb.Split
