import LibAdb.Base.Slot

/-!
# LibAdb.Base.Negotiated — what the handshake settled, and the requests nobody has decided yet

`base/negotiated.rs` and `base/incoming.rs`.  Of `Negotiated` this development reads the payload limit, the version
(for the checksum), the configuration and the ack mode; the device's banner is left out.
-/

namespace LibAdb

structure Negotiated [Usize] where
  maxPayload : UInt32
  protocolVersion : UInt32
  config : ConnectionConfig
  delayedAck : Bool

namespace Negotiated

variable [Usize] (ng : Negotiated)

def ackMode : AckMode := if ng.delayedAck then .delayed else .classic

/-- `Negotiated::rx_policy` -/
def rxPolicy : RxPolicy := ng.config.rxPolicy ng.ackMode

def checksum : Checksum := .forVersion ng.protocolVersion

/-- `advertised_credit` -/
def advertisedCredit : Option UInt32 :=
  if ng.delayedAck then some (UInt32.ofNat ng.config.advertisedAckBytes) else none

end Negotiated

/-- An OPEN of the device's that nobody has answered. -/
structure PendingOpen where
  remote : RemoteId
  credit : UInt32
  destination : Bytes
  deriving DecidableEq, Repr

/-- `IncomingQueue`, oldest first. -/
abbrev IncomingQueue := List PendingOpen

/-- `IncomingQueue::withdraw` -/
def IncomingQueue.withdraw (q : IncomingQueue) (remote : RemoteId) : IncomingQueue :=
  q.filter fun p => p.remote ≠ remote

end LibAdb
