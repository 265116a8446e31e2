import LibAdb.Base.Config
import LibAdb.Base.SendQueue

/-!
# LibAdb.Base.Slot — one channel

`base/slot.rs` with `RxPolicy` and `AckMode` of `base/negotiated.rs`.  A slot holds what arrived for a channel and
was not read yet (`rxBuf`), how much of that is already settled for hand-over (`settled`, acknowledged but not
taken), how much the device has had no OKAY for (`unacked`), and the credit the device gave us (`sendBudget`,
`wrteAcked`).

`settled ≤ rxBuf.length` is a field, so `held` (the subtraction in the source) never underflows.  Every operation
returns the slot after it; one that fails in the source without changing the slot returns no slot.
-/

namespace LibAdb

inductive AckMode where
  | classic
  | delayed
  deriving DecidableEq, Repr

structure RxPolicy where
  ack : AckMode
  rxCap : ℕ
  watermark : ℕ
  deriving DecidableEq, Repr

/-- `Negotiated::rx_policy` -/
def ConnectionConfig.rxPolicy [Usize] (c : ConnectionConfig) (mode : AckMode) : RxPolicy :=
  ⟨mode, c.rxCap, c.rxWatermark⟩

/-- The OKAY a read or an arrival calls for: the credit it returns is `len`. -/
structure PendingAck where
  ids : ChannelIds
  len : ℕ
  deriving DecidableEq, Repr

inductive AckDecision where
  | now (ack : PendingAck)
  | hold
  deriving DecidableEq, Repr

inductive RxOverflow where
  | rxOverflow
  deriving DecidableEq, Repr

inductive ChannelFault where
  | rxOverflow
  | protocol (e : ProtocolError)
  deriving DecidableEq, Repr

def ChannelFault.error : ChannelFault → Error
  | .rxOverflow => .channelRxOverflow
  | .protocol e => .protocol e

inductive ChannelState where
  | opening
  | «open»
  | closed
  deriving DecidableEq, Repr

/-- `parse_ready_credit` -/
def parseReadyCredit : Bytes → Except ProtocolError UInt32
  | b0 :: b1 :: b2 :: b3 :: _ => .ok (ofLeBytes b0 b1 b2 b3)
  | _ => .error .shortReadyPayload

structure ChannelSlot where
  localId : LocalId
  remote : Option RemoteId
  state : ChannelState
  policy : RxPolicy
  rxBuf : Bytes
  wrteAcked : Bool
  /-- `i64` -/
  sendBudget : ℤ
  unacked : ℕ
  settled : ℕ
  sendQueue : SendQueue
  failed : Option ChannelFault
  settled_le : settled ≤ rxBuf.length
  deriving DecidableEq

namespace ChannelSlot

section Operations

variable [Usize]

/-! ### Making a slot -/

def opening (localId : LocalId) (policy : RxPolicy) : ChannelSlot where
  localId := localId
  remote := none
  state := .opening
  policy := policy
  rxBuf := []
  wrteAcked := true
  sendBudget := 0
  unacked := 0
  settled := 0
  sendQueue := .empty
  failed := none
  settled_le := le_rfl

def accepted (ids : ChannelIds) (credit : UInt32) (policy : RxPolicy) : ChannelSlot :=
  { opening ids.localId policy with
    remote := some ids.remote
    state := .«open»
    sendBudget := if policy.ack = .delayed then (credit.toNat : ℤ) else 0 }

/-! ### What a slot says about itself -/

variable (s : ChannelSlot)

def isFailed : Bool := s.failed.isSome

def ids : Option ChannelIds := s.remote.map fun remote => ⟨s.localId, remote⟩

def isClosed : Bool := s.state == .closed

def closedError : Error := (s.failed.map ChannelFault.error).getD .channelClosed

def hasData : Bool := s.remote.isSome && !s.rxBuf.isEmpty

/-- Unread bytes that are not settled. -/
def held : ℕ := s.rxBuf.length - s.settled

/-- What a read may take (`ready` in `take_buffered`): the settled bytes, or all of the buffer when nothing is
settled. -/
def ready : ℕ := if s.settled = 0 then s.rxBuf.length else s.settled

/-! ### Receiving -/

/-- `accept_open_ready` -/
def acceptOpenReady (remote : RemoteId) (payload : Bytes) : Except ProtocolError ChannelSlot := do
  let sendBudget ← if s.policy.ack = .delayed
    then (fun credit : UInt32 => (credit.toNat : ℤ)) <$> parseReadyCredit payload
    else pure s.sendBudget
  return { s with sendBudget, remote := some remote, state := .«open» }

/-- `apply_ready` -/
def applyReady (payload : Bytes) : Except ProtocolError ChannelSlot :=
  match s.policy.ack with
  | .delayed => do
    let credit ← parseReadyCredit payload
    return { s with sendBudget := wrapI64 (s.sendBudget + credit.toNat) }
  | .classic => return { s with wrteAcked := true }

/-- `push_rx` -/
def pushRx (payload : Bytes) : Except RxOverflow ChannelSlot :=
  if s.policy.rxCap < satAdd s.held payload.length then .error .rxOverflow
  else .ok { s with
    rxBuf := s.rxBuf ++ payload
    settled_le := le_trans s.settled_le (by simp) }

/-- The private `ack`: no OKAY before the device's end has a name. -/
def ack (len : ℕ) : Option PendingAck := s.ids.map fun ids => ⟨ids, len⟩

/-- `apply_write` -/
def applyWrite (payload : Bytes) : Except RxOverflow (AckDecision × ChannelSlot) := do
  let s ← s.pushRx payload
  let s := { s with unacked := satAdd s.unacked payload.length }
  if s.policy.ack = .classic ∧ s.held < s.policy.watermark then
    match s.ack payload.length with
    | some ack => return (.now ack, { s with unacked := 0 })
    | none => return (.hold, s)
  else return (.hold, s)

/-- `deliver`: a payload went straight to the reader's buffer. -/
def deliver (taken : ℕ) : Option PendingAck × ChannelSlot :=
  if s.policy.ack = .delayed then ((s.ack taken).filter fun ack => 0 < ack.len, s)
  else if s.policy.watermark ≤ s.rxBuf.length then (none, s)
  else match s.ack s.unacked with
    | some ack => (some ack, { s with unacked := 0 })
    | none => (none, s)

/-- `ack_len`: what a read of `n` bytes that leaves `remaining` gives back. -/
def ackLen (n remaining : ℕ) : Option ℕ :=
  if s.unacked = 0 then none
  else match s.policy.ack with
    | .delayed => if 0 < min n s.unacked then some (min n s.unacked) else none
    | .classic => if remaining < s.policy.watermark then some s.unacked else none

/-- `settle_take` -/
def settleTake (want : ℕ) : Option (PendingAck × ChannelSlot) :=
  match s.ids.filter fun _ => s.settled = 0 with
  | none => none
  | some ids =>
    match s.ackLen (min want s.rxBuf.length) (s.rxBuf.length - min want s.rxBuf.length) with
    | none => none
    | some len => some (⟨ids, len⟩,
        { s with
          unacked := s.unacked - len
          settled := min want s.rxBuf.length
          settled_le := Nat.min_le_right _ _ })

/-- `take_buffered`: the bytes copied into a buffer of `buf` bytes, and the slot without them. -/
def takeBuffered (buf : ℕ) : Except Error (Option (Bytes × ChannelSlot)) :=
  if s.hasData = false then
    if s.isClosed then .error s.closedError else .ok none
  else
    let n := min buf s.ready
    .ok (some (s.rxBuf.take n,
      { s with
        rxBuf := s.rxBuf.drop n
        settled := s.settled - min n s.settled
        settled_le := by
          have := s.settled_le
          simp only [List.length_drop]
          omega }))

/-- `take_acks` -/
def takeAcks (want : ℕ) : Bool :=
  if s.hasData = false ∨ 0 < s.settled then false
  else (s.ackLen (min want s.rxBuf.length) (s.rxBuf.length - min want s.rxBuf.length)).isSome

def applyClose : ChannelSlot := { s with state := .closed, unacked := 0 }

def fail (fault : ChannelFault) : ChannelSlot :=
  { s with failed := some fault, state := .closed, unacked := 0 }

/-! ### Sending -/

/-- `budget`; the cast `send_budget as usize` keeps the low bits. -/
def budget : Option ℕ :=
  match s.policy.ack with
  | .delayed => if 0 < s.sendBudget then some (s.sendBudget.toNat % 2 ^ Usize.bits) else none
  | .classic => if s.wrteAcked then some usizeMax else none

def spend (n : ℕ) : ChannelSlot :=
  match s.policy.ack with
  | .delayed => { s with sendBudget := wrapI64 (s.sendBudget - n) }
  | .classic => { s with wrteAcked := false }

def tryReserveSend (want : ℕ) : Option (ℕ × ChannelSlot) :=
  s.budget.map fun budget => (min budget want, s.spend (min budget want))

def refund (n : ℕ) : ChannelSlot :=
  match s.policy.ack with
  | .delayed => { s with sendBudget := wrapI64 (s.sendBudget + n) }
  | .classic => { s with wrteAcked := true }

end Operations

/-! ## What each receiving operation does -/

section Receive

variable {s : ChannelSlot} {payload : Bytes}

theorem held_push (s : ChannelSlot) (payload : Bytes) (u : ℕ)
    (hle : s.settled ≤ (s.rxBuf ++ payload).length) :
    ({ s with rxBuf := s.rxBuf ++ payload, unacked := u, settled_le := hle } : ChannelSlot).held =
      s.held + payload.length := by
  have := s.settled_le
  simp only [held, List.length_append]
  omega

/-- A read of settled bytes leaves `held` alone; one with nothing settled lowers it. -/
theorem held_take (s : ChannelSlot) (n : ℕ) (hn : n ≤ s.ready)
    (hle : s.settled - min n s.settled ≤ (s.rxBuf.drop n).length) :
    ({ s with
        rxBuf := s.rxBuf.drop n
        settled := s.settled - min n s.settled
        settled_le := hle } : ChannelSlot).held =
      if s.settled = 0 then s.held - n else s.held := by
  have := s.settled_le
  unfold ready at hn
  simp only [held, List.length_drop]
  split_ifs at hn ⊢ <;> omega

theorem ackLen_some {n remaining len : ℕ} (h : s.ackLen n remaining = some len) :
    s.unacked ≠ 0 ∧
      ((s.policy.ack = .delayed ∧ len = min n s.unacked ∧ 0 < len) ∨
        (s.policy.ack = .classic ∧ len = s.unacked ∧ remaining < s.policy.watermark)) := by
  unfold ackLen at h
  by_cases hu : s.unacked = 0
  · rw [if_pos hu] at h
    cases h
  · rw [if_neg hu] at h
    refine ⟨hu, ?_⟩
    cases hm : s.policy.ack with
    | delayed =>
      rw [hm] at h
      simp only at h
      split_ifs at h with hpos
      · cases h
        exact Or.inl ⟨rfl, rfl, hpos⟩
    | classic =>
      rw [hm] at h
      simp only at h
      split_ifs at h with hlt
      · cases h
        exact Or.inr ⟨rfl, rfl, hlt⟩

theorem settleTake_some {want : ℕ} {a : PendingAck} {s' : ChannelSlot}
    (h : s.settleTake want = some (a, s')) :
    s.settled = 0 ∧ s.ids = some a.ids ∧
      s.ackLen (min want s.rxBuf.length) (s.rxBuf.length - min want s.rxBuf.length) = some a.len ∧
      s' = { s with
        unacked := s.unacked - a.len
        settled := min want s.rxBuf.length
        settled_le := Nat.min_le_right _ _ } := by
  unfold settleTake at h
  split at h
  · cases h
  · rename_i ids hids
    obtain ⟨hids, hs⟩ := Option.filter_eq_some_iff.mp hids
    split at h
    · cases h
    · rename_i len hlen
      cases h
      exact ⟨by simpa using hs, hids, hlen, rfl⟩

theorem takeBuffered_some {buf : ℕ} {out : Bytes} {s' : ChannelSlot}
    (h : s.takeBuffered buf = .ok (some (out, s'))) :
    s.hasData = true ∧ out = s.rxBuf.take (min buf s.ready) ∧ ∃ hle,
      s' = { s with
        rxBuf := s.rxBuf.drop (min buf s.ready)
        settled := s.settled - min (min buf s.ready) s.settled
        settled_le := hle } := by
  unfold takeBuffered at h
  split_ifs at h with h1 h2
  · cases h
  · cases h
    exact ⟨by simpa using h1, rfl, _, rfl⟩

/-- READY names the device's end and opens the channel; with delayed ack it must carry the credit. -/
theorem acceptOpenReady_ok {remote : RemoteId} {s' : ChannelSlot}
    (h : s.acceptOpenReady remote payload = .ok s') :
    ∃ b, s' = { s with sendBudget := b, remote := some remote, state := .«open» } := by
  unfold acceptOpenReady at h
  split_ifs at h with hd
  · cases hp : parseReadyCredit payload with
    | error e => rw [hp] at h; cases h
    | ok credit =>
      rw [hp] at h
      cases h
      exact ⟨_, rfl⟩
  · cases h
    exact ⟨_, rfl⟩

variable [Usize]

theorem pushRx_of_fits (h : s.held + payload.length ≤ s.policy.rxCap) :
    ∃ s', s.pushRx payload = .ok s' := by
  have h1 := satAdd_le s.held payload.length
  unfold pushRx
  rw [if_neg (by omega)]
  exact ⟨_, rfl⟩

theorem pushRx_ok {s' : ChannelSlot} (h : s.pushRx payload = .ok s') :
    satAdd s.held payload.length ≤ s.policy.rxCap ∧
      ∃ hle, s' = { s with rxBuf := s.rxBuf ++ payload, settled_le := hle } := by
  unfold pushRx at h
  split_ifs at h with hc
  · cases h
    exact ⟨not_lt.mp hc, _, rfl⟩

/-- An arrival is pushed; it is answered at once without delayed ack, below the watermark and with the device's
end known, and is held back in every other case. -/
theorem applyWrite_ok {d : AckDecision} {s' : ChannelSlot} (h : s.applyWrite payload = .ok (d, s')) :
    satAdd s.held payload.length ≤ s.policy.rxCap ∧ ∃ hle,
      (d = .hold ∧
        s' = { s with
          rxBuf := s.rxBuf ++ payload
          unacked := satAdd s.unacked payload.length
          settled_le := hle } ∧
        (s.policy.ack = .classic → s'.held < s.policy.watermark → s.ids = none)) ∨
      (∃ ids, s.ids = some ids ∧ d = .now ⟨ids, payload.length⟩ ∧
        s' = { s with
          rxBuf := s.rxBuf ++ payload
          unacked := 0
          settled_le := hle } ∧
        s.policy.ack = .classic ∧ s'.held < s.policy.watermark) := by
  unfold applyWrite at h
  cases hp : s.pushRx payload with
  | error e => rw [hp] at h; cases h
  | ok s1 =>
    obtain ⟨hcap, hle, rfl⟩ := pushRx_ok hp
    rw [hp] at h
    refine ⟨hcap, hle, ?_⟩
    simp only [bind, Except.bind, pure, Except.pure] at h
    split_ifs at h with hc
    · cases hid : s.ids with
      | none =>
        have hack : ∀ n, s.ack n = none := fun n => by simp [ack, hid]
        cases (hack _ ▸ h : _)
        exact Or.inl ⟨rfl, rfl, fun _ _ => rfl⟩
      | some i =>
        have hack : ∀ n, s.ack n = some ⟨i, n⟩ := fun n => by simp [ack, hid]
        cases (hack _ ▸ h : _)
        exact Or.inr ⟨i, rfl, rfl, rfl, hc.1, hc.2⟩
    · cases h
      exact Or.inl ⟨rfl, rfl, fun h1 h2 => absurd ⟨h1, h2⟩ hc⟩

theorem applyWrite_of_fits (h : s.held + payload.length ≤ s.policy.rxCap) :
    ∃ r, s.applyWrite payload = .ok r := by
  obtain ⟨s1, h1⟩ := pushRx_of_fits h
  unfold applyWrite
  rw [h1]
  simp only [bind, Except.bind, pure, Except.pure]
  split_ifs
  · split <;> exact ⟨_, rfl⟩
  · exact ⟨_, rfl⟩

end Receive

/-! ## The sending side -/

/-- What an operation that is not about sending leaves alone. -/
structure SendSide (s s' : ChannelSlot) : Prop where
  localId : s'.localId = s.localId
  policy : s'.policy = s.policy
  sendBudget : s'.sendBudget = s.sendBudget
  wrteAcked : s'.wrteAcked = s.wrteAcked
  opening : s'.state = .opening → s.state = .opening

namespace SendSide

variable {s s' : ChannelSlot}

theorem refl (s : ChannelSlot) : SendSide s s := ⟨rfl, rfl, rfl, rfl, id⟩

theorem applyClose (s : ChannelSlot) : SendSide s s.applyClose := ⟨rfl, rfl, rfl, rfl, nofun⟩

theorem fail (s : ChannelSlot) (f : ChannelFault) : SendSide s (s.fail f) := ⟨rfl, rfl, rfl, rfl, nofun⟩

theorem sendQueue (s : ChannelSlot) (q : SendQueue) : SendSide s { s with sendQueue := q } := ⟨rfl, rfl, rfl, rfl, id⟩

theorem settleTake {want : ℕ} {a : PendingAck} (h : s.settleTake want = some (a, s')) : SendSide s s' := by
  obtain ⟨-, -, -, rfl⟩ := settleTake_some h
  exact ⟨rfl, rfl, rfl, rfl, id⟩

theorem takeBuffered {buf : ℕ} {out : Bytes} (h : s.takeBuffered buf = .ok (some (out, s'))) : SendSide s s' := by
  obtain ⟨-, -, hle, rfl⟩ := takeBuffered_some h
  exact ⟨rfl, rfl, rfl, rfl, id⟩

theorem applyWrite [Usize] {payload : Bytes} {d : AckDecision} (h : s.applyWrite payload = .ok (d, s')) :
    SendSide s s' := by
  obtain ⟨-, hle, ⟨-, rfl, -⟩ | ⟨ids, -, -, rfl, -⟩⟩ := applyWrite_ok h
  · exact ⟨rfl, rfl, rfl, rfl, id⟩
  · exact ⟨rfl, rfl, rfl, rfl, id⟩

end SendSide

/-- What there is to spend: bytes, or leave for one WRTE. -/
def purse (s : ChannelSlot) : ℤ :=
  match s.policy.ack with
  | .delayed => s.sendBudget
  | .classic => if s.wrteAcked then 1 else 0

theorem SendSide.purse {s s' : ChannelSlot} (h : SendSide s s') : s'.purse = s.purse := by
  unfold ChannelSlot.purse
  rw [h.policy, h.sendBudget, h.wrteAcked]

end ChannelSlot

/-- What a WRTE of `n` bytes costs. -/
def AckMode.worth (n : ℕ) : AckMode → ℕ
  | .delayed => n
  | .classic => 1

/-- What a READY adds. -/
def AckMode.grant (payload : Bytes) : AckMode → ℕ
  | .delayed => match parseReadyCredit payload with
    | .ok credit => credit.toNat
    | .error _ => 0
  | .classic => 1

namespace ChannelSlot

variable {s s' : ChannelSlot}

/-- Reserving takes from the purse no more than there is, and no more than is wanted. -/
theorem tryReserveSend_some [Usize] {want n : ℕ} (h : s.tryReserveSend want = some (n, s')) :
    s' = s.spend n ∧ n ≤ want ∧
      ((s.policy.ack = .delayed ∧ (n : ℤ) ≤ s.sendBudget) ∨ (s.policy.ack = .classic ∧ s.wrteAcked = true)) := by
  unfold tryReserveSend at h
  obtain ⟨b, hb, heq⟩ := Option.map_eq_some_iff.mp h
  cases heq
  refine ⟨rfl, Nat.min_le_right _ _, ?_⟩
  unfold budget at hb
  cases hm : s.policy.ack with
  | delayed =>
    rw [hm] at hb
    dsimp only at hb
    split_ifs at hb with hpos
    cases hb
    have hmod := Nat.mod_le s.sendBudget.toNat (2 ^ Usize.bits)
    exact Or.inl ⟨rfl, by omega⟩
  | classic =>
    rw [hm] at hb
    dsimp only at hb
    split_ifs at hb with hacked
    exact Or.inr ⟨rfl, hacked⟩

@[simp] theorem spend_localId (s : ChannelSlot) (n : ℕ) : (s.spend n).localId = s.localId := by
  unfold spend
  split <;> rfl

@[simp] theorem refund_localId (s : ChannelSlot) (n : ℕ) : (s.refund n).localId = s.localId := by
  unfold refund
  split <;> rfl

theorem SendSide.refund (s : ChannelSlot) (q : SendQueue) (n : ℕ) :
    SendSide (s.refund n) (({ s with sendQueue := q } : ChannelSlot).refund n) := by
  unfold ChannelSlot.refund
  cases s.policy.ack <;> exact ⟨rfl, rfl, rfl, rfl, id⟩

theorem applyReady_ok {payload : Bytes} (h : s.applyReady payload = .ok s') :
    (s.policy.ack = .delayed ∧
        s' = { s with sendBudget := wrapI64 (s.sendBudget + AckMode.delayed.grant payload) }) ∨
      (s.policy.ack = .classic ∧ s' = { s with wrteAcked := true }) := by
  unfold applyReady at h
  cases hm : s.policy.ack with
  | delayed =>
    rw [hm] at h
    dsimp only at h
    cases hp : parseReadyCredit payload with
    | error e => rw [hp] at h; cases h
    | ok credit =>
      rw [hp] at h
      cases h
      exact Or.inl ⟨rfl, by simp [AckMode.grant, hp]⟩
  | classic =>
    rw [hm] at h
    cases h
    exact Or.inr ⟨rfl, rfl⟩

end ChannelSlot

end LibAdb
