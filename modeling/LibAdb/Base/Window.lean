import LibAdb.Base.Slot
import LibAdb.Lib.Runs

/-!
# LibAdb.Base.Window — one channel and the device that writes to it

A `Window` is a slot, the WRTEs and OKAYs under way between it and the device, and the device's own count of what
it may send.  The device keeps the protocol:

* with delayed ack it starts with `advertisedAckBytes` of credit, sends a WRTE of at most `maxPayload` bytes only
  while its credit is above zero, loses the length (the credit may go negative) and gains what each OKAY carries;
* without delayed ack it sends a WRTE of at most `maxPayload` bytes only after every earlier one was answered.

The host's side is the slot's own operations in any order: an arrival is applied, or delivered when nothing is
buffered, and reads settle and take with buffers of any size.  `window_safe`: the cap is never crossed.

An OKAY carries `ack.len as u32` (`send_okay_to`), so what the device gets is the length's low 32 bits.
-/

namespace LibAdb

open Runs

variable [Usize]

/-- The credit an OKAY carries: `ack.len as u32`. -/
def okayCredit (ack : PendingAck) : ℕ := ack.len % 2 ^ 32

structure Window where
  slot : ChannelSlot
  /-- WRTE payloads on their way to the host, oldest first. -/
  toHost : List Bytes
  /-- Credit of the OKAYs on their way to the device, oldest first. -/
  toDevice : List ℕ
  /-- Delayed ack: what the device may still send. -/
  credit : ℤ
  /-- Classic: WRTEs the device sent and has had no OKAY for. -/
  unanswered : ℕ
  /-- WRTEs `apply_write` refused. -/
  overflows : ℕ

inductive WindowEvent where
  | send (payload : Bytes)
  | ready (remote : RemoteId) (payload : Bytes)
  | arrive
  | deliver
  | settle (want : ℕ)
  | take (buf : ℕ)
  | okay

namespace Window

/-- Put an OKAY on its way. -/
def answer (w : Window) (ack : PendingAck) : Window := { w with toDevice := w.toDevice ++ [okayCredit ack] }

/-- What the protocol lets the device send. -/
def maySend (cfg : ConnectionConfig) (w : Window) (payload : Bytes) : Bool :=
  payload.length ≤ cfg.maxPayload &&
    match w.slot.policy.ack with
    | .delayed => 0 < w.credit
    | .classic => w.unanswered = 0

def step (cfg : ConnectionConfig) (w : Window) : WindowEvent → Option Window
  | .send payload =>
    if maySend cfg w payload then some { w with
        toHost := w.toHost ++ [payload]
        credit := w.credit - payload.length
        unanswered := w.unanswered + 1 }
    else none
  | .ready remote payload =>
    -- the answer to our OPEN, for a channel this host opened
    if w.slot.state = .opening then
      match w.slot.acceptOpenReady remote payload with
      | .ok slot => some { w with slot }
      | .error _ => none
    else none
  | .arrive =>
    match w.toHost with
    | [] => none
    | payload :: toHost =>
      match w.slot.applyWrite payload with
      | .ok (.now ack, slot) => some ({ w with slot, toHost }.answer ack)
      | .ok (.hold, slot) => some { w with slot, toHost }
      | .error _ => some { w with toHost, overflows := w.overflows + 1 }
  | .deliver =>
    match w.toHost with
    | [] => none
    | payload :: toHost =>
      if w.slot.rxBuf = [] then
        match w.slot.deliver payload.length with
        | (some ack, slot) => some ({ w with slot, toHost }.answer ack)
        | (none, slot) => some { w with slot, toHost }
      else none
  | .settle want =>
    match w.slot.settleTake want with
    | some (ack, slot) => some ({ w with slot }.answer ack)
    | none => some w
  | .take buf =>
    match w.slot.takeBuffered buf with
    | .ok (some (_, slot)) => some { w with slot }
    | _ => some w
  | .okay =>
    match w.toDevice with
    | [] => none
    | n :: toDevice => some { w with toDevice, credit := w.credit + n, unanswered := w.unanswered - 1 }

/-- A channel that has just been made, with the device's credit where `OPEN` or `READY` put it. -/
def start (cfg : ConnectionConfig) (slot : ChannelSlot) : Window :=
  ⟨slot, [], [], cfg.advertisedAckBytes, 0, 0⟩

/-- The two ways to make a slot: an OPEN of this host's, still unanswered, and an accepted OPEN of the device's. -/
inductive Made (cfg : ConnectionConfig) (mode : AckMode) : ChannelSlot → Prop
  | opening (localId : LocalId) : Made cfg mode (ChannelSlot.opening localId (cfg.rxPolicy mode))
  | accepted (ids : ChannelIds) (credit : UInt32) :
      Made cfg mode (ChannelSlot.accepted ids credit (cfg.rxPolicy mode))

/-! ## The invariant -/

/-- Bytes of the WRTEs under way. -/
def underway (w : Window) : ℕ := (w.toHost.map List.length).sum

/-- Delayed ack: the credit at the device, under way, and still owed for what is unread never exceeds what was
advertised, and the device is never further in debt than one packet. -/
structure Covered (cfg : ConnectionConfig) (w : Window) : Prop where
  total : w.credit + w.underway + w.slot.unacked + w.toDevice.sum ≤ cfg.advertisedAckBytes
  held_le : w.slot.held ≤ w.slot.unacked
  debt : 1 ≤ w.credit + cfg.maxPayload

/-- Classic: the one WRTE without an answer is nowhere, under way, answered and the OKAY under way, or held back
by the host.  Only in the last case may the slot be at or past the watermark. -/
inductive Turn (cfg : ConnectionConfig) (w : Window) : Prop
  | device (hn : w.unanswered = 0) (hh : w.toHost = []) (hd : w.toDevice = []) (hu : w.slot.unacked = 0)
      (hw : w.slot.held < cfg.rxWatermark)
  | sent (payload : Bytes) (hlen : payload.length ≤ cfg.maxPayload) (hn : w.unanswered = 1)
      (hh : w.toHost = [payload]) (hd : w.toDevice = []) (hu : w.slot.unacked = 0)
      (hw : w.slot.held < cfg.rxWatermark)
  | okayed (n : ℕ) (hn : w.unanswered = 1) (hh : w.toHost = []) (hd : w.toDevice = [n])
      (hu : w.slot.unacked = 0) (hw : w.slot.held < cfg.rxWatermark)
  | withheld (hn : w.unanswered = 1) (hh : w.toHost = []) (hd : w.toDevice = [])
      (hw : w.slot.held ≤ cfg.rxCap)

structure Inv (cfg : ConnectionConfig) (mode : AckMode) (w : Window) : Prop where
  policy : w.slot.policy = cfg.rxPolicy mode
  overflows : w.overflows = 0
  delayed : mode = .delayed → Covered cfg w
  classic : mode = .classic → Turn cfg w

theorem inv_start {cfg : ConnectionConfig} {mode : AckMode} {slot : ChannelSlot} (h : Made cfg mode slot) :
    Inv cfg mode (start cfg slot) := by
  have hm := cfg.maxPayload_pos
  have hw := cfg.rxWatermark_pos
  cases h with
  | opening l =>
    refine ⟨rfl, rfl, fun _ => ⟨?_, le_rfl, ?_⟩, fun _ => .device rfl rfl rfl rfl hw⟩
    · simp [start, underway, ChannelSlot.opening]
    · simp only [start]; omega
  | accepted ids credit =>
    refine ⟨rfl, rfl, fun _ => ⟨?_, le_rfl, ?_⟩, fun _ => .device rfl rfl rfl rfl hw⟩
    · simp [start, underway, ChannelSlot.accepted, ChannelSlot.opening]
    · simp only [start]; omega

/-! ## Delayed ack -/

section Delayed

variable {cfg : ConnectionConfig} {w : Window}

/-- What is unacknowledged and under way fits the cap, even with the device one packet past its credit. -/
theorem Covered.fits (h : Covered cfg w) : w.slot.unacked + w.underway ≤ cfg.rxCap := by
  have h1 := h.total
  have h2 := h.debt
  have h3 := cfg.advertisedAckBytes_add_maxPayload_le
  omega

theorem Covered.send (h : Covered cfg w) {payload : Bytes} (hlen : payload.length ≤ cfg.maxPayload)
    (hc : 0 < w.credit) : Covered cfg { w with
      toHost := w.toHost ++ [payload]
      credit := w.credit - payload.length
      unanswered := w.unanswered + 1 } := by
  obtain ⟨h1, h2, h3⟩ := h
  refine ⟨?_, h2, ?_⟩
  · simp only [underway, List.map_append, List.map_cons, List.map_nil, List.sum_append, List.sum_cons,
      List.sum_nil] at h1 ⊢
    omega
  · dsimp only
    omega

/-- An arrival moves its bytes from the wire to the unacknowledged count. -/
theorem Covered.arrive (h : Covered cfg w) {payload : Bytes} {toHost : List Bytes} {slot : ChannelSlot}
    (hh : w.toHost = payload :: toHost) (hu : slot.unacked = satAdd w.slot.unacked payload.length)
    (hheld : slot.held = w.slot.held + payload.length) : Covered cfg { w with slot, toHost } := by
  have hfit := h.fits
  obtain ⟨h1, h2, h3⟩ := h
  have hcap := cfg.rxCap_le_usizeMax
  simp only [underway, hh, List.map_cons, List.sum_cons] at h1 hfit
  have hsat : satAdd w.slot.unacked payload.length = w.slot.unacked + payload.length :=
    Nat.min_eq_left (by omega)
  refine ⟨?_, ?_, h3⟩
  · simp only [underway, hu, hsat]
    omega
  · simp only [hu, hsat, hheld]
    omega

/-- A delivered payload leaves the wire and its credit goes back. -/
theorem Covered.deliver (h : Covered cfg w) {payload : Bytes} {toHost : List Bytes} (okays : List ℕ)
    (hh : w.toHost = payload :: toHost) (ho : okays.sum ≤ payload.length) :
    Covered cfg { w with toHost, toDevice := w.toDevice ++ okays } := by
  obtain ⟨h1, h2, h3⟩ := h
  refine ⟨?_, h2, h3⟩
  simp only [underway, hh, List.map_cons, List.sum_cons, List.sum_append] at h1 ⊢
  omega

/-- Settling moves credit from the unacknowledged count to an OKAY. -/
theorem Covered.settle (h : Covered cfg w) {slot : ChannelSlot} {ack : PendingAck}
    (hle : ack.len ≤ w.slot.unacked) (hu : slot.unacked = w.slot.unacked - ack.len)
    (hheld : slot.held + ack.len ≤ w.slot.unacked) : Covered cfg ({ w with slot }.answer ack) := by
  obtain ⟨h1, h2, h3⟩ := h
  have hmod : okayCredit ack ≤ ack.len := Nat.mod_le _ _
  refine ⟨?_, ?_, h3⟩
  · simp only [underway, answer, List.sum_append, List.sum_cons, List.sum_nil, hu] at h1 ⊢
    omega
  · simp only [answer, hu]
    omega

theorem Covered.take (h : Covered cfg w) {slot : ChannelSlot} (hu : slot.unacked = w.slot.unacked)
    (hheld : slot.held ≤ w.slot.held) : Covered cfg { w with slot } := by
  obtain ⟨h1, h2, h3⟩ := h
  refine ⟨?_, ?_, h3⟩
  · simpa only [underway, hu] using h1
  · simp only [hu]
    omega

theorem Covered.okay (h : Covered cfg w) {n : ℕ} {toDevice : List ℕ} (hd : w.toDevice = n :: toDevice) :
    Covered cfg { w with toDevice, credit := w.credit + n, unanswered := w.unanswered - 1 } := by
  obtain ⟨h1, h2, h3⟩ := h
  refine ⟨?_, h2, ?_⟩
  · simp only [underway, hd, List.sum_cons] at h1 ⊢
    omega
  · dsimp only
    omega

end Delayed

/-! ## Classic -/

section Classic

variable {cfg : ConnectionConfig} {w : Window}

theorem Turn.held_le (h : Turn cfg w) : w.slot.held ≤ cfg.rxCap := by
  have h1 := cfg.rxWatermark_add_maxPayload_le
  have h2 := cfg.maxPayload_pos
  cases h with
  | device _ _ _ _ hw => omega
  | sent _ _ _ _ _ _ hw => omega
  | okayed _ _ _ _ _ hw => omega
  | withheld _ _ _ hw => exact hw

theorem Turn.send (h : Turn cfg w) {payload : Bytes} (hlen : payload.length ≤ cfg.maxPayload)
    (hn : w.unanswered = 0) : Turn cfg { w with
      toHost := w.toHost ++ [payload]
      credit := w.credit - payload.length
      unanswered := w.unanswered + 1 } := by
  cases h with
  | device _ hh hd hu hw => exact .sent payload hlen (by simp [hn]) (by simp [hh]) hd hu hw
  | sent _ _ hn' => omega
  | okayed _ hn' => omega
  | withheld hn' => omega

/-- The only WRTE that can arrive is the one under way, and it fits. -/
theorem Turn.arriving (h : Turn cfg w) {payload : Bytes} {toHost : List Bytes}
    (hh : w.toHost = payload :: toHost) :
    toHost = [] ∧ w.toDevice = [] ∧ w.unanswered = 1 ∧ w.slot.unacked = 0 ∧
      w.slot.held + payload.length ≤ cfg.rxCap := by
  have h1 := cfg.rxWatermark_add_maxPayload_le
  cases h with
  | device _ hh' => simp [hh'] at hh
  | sent p hlen hn hh' hd hu hw =>
    rw [hh'] at hh
    obtain ⟨rfl, rfl⟩ := List.cons_eq_cons.mp hh
    exact ⟨rfl, hd, hn, hu, by omega⟩
  | okayed _ _ hh' => simp [hh'] at hh
  | withheld _ hh' => simp [hh'] at hh

/-- A read that settles anything settles for a WRTE held back. -/
theorem Turn.settling (h : Turn cfg w) (hu : w.slot.unacked ≠ 0) :
    w.unanswered = 1 ∧ w.toHost = [] ∧ w.toDevice = [] := by
  cases h with
  | device _ _ _ hu' => exact absurd hu' hu
  | sent _ _ _ _ _ hu' => exact absurd hu' hu
  | okayed _ _ _ _ hu' => exact absurd hu' hu
  | withheld hn hh hd => exact ⟨hn, hh, hd⟩

theorem Turn.take (h : Turn cfg w) {slot : ChannelSlot} (hu : slot.unacked = w.slot.unacked)
    (hheld : slot.held ≤ w.slot.held) : Turn cfg { w with slot } := by
  cases h with
  | device hn hh hd hu' hw => exact .device hn hh hd (hu.trans hu') (lt_of_le_of_lt hheld hw)
  | sent p hl hn hh hd hu' hw => exact .sent p hl hn hh hd (hu.trans hu') (lt_of_le_of_lt hheld hw)
  | okayed n hn hh hd hu' hw => exact .okayed n hn hh hd (hu.trans hu') (lt_of_le_of_lt hheld hw)
  | withheld hn hh hd hw => exact .withheld hn hh hd (hheld.trans hw)

theorem Turn.okay (h : Turn cfg w) {n : ℕ} {toDevice : List ℕ} (hd : w.toDevice = n :: toDevice) :
    Turn cfg { w with toDevice, credit := w.credit + n, unanswered := w.unanswered - 1 } := by
  cases h with
  | device _ _ hd' => simp [hd'] at hd
  | sent _ _ _ _ hd' => simp [hd'] at hd
  | okayed m hn hh hd' hu hw =>
    rw [hd'] at hd
    obtain ⟨rfl, rfl⟩ := List.cons_eq_cons.mp hd
    exact .device (by simp [hn]) hh rfl hu hw
  | withheld _ _ hd' => simp [hd'] at hd

end Classic

/-! ## Every step keeps the invariant -/

section Steps

variable {cfg : ConnectionConfig} {mode : AckMode} {w w' : Window}

theorem Inv.ack_eq (h : Inv cfg mode w) : w.slot.policy.ack = mode := by rw [h.policy]; rfl

theorem Inv.watermark_eq (h : Inv cfg mode w) : w.slot.policy.watermark = cfg.rxWatermark := by
  rw [h.policy]; rfl

theorem Inv.held_le (h : Inv cfg mode w) : w.slot.held ≤ cfg.rxCap := by
  cases mode with
  | delayed =>
    have h1 := (h.delayed rfl).fits
    have h2 := (h.delayed rfl).held_le
    omega
  | classic => exact (h.classic rfl).held_le

theorem inv_send (h : Inv cfg mode w) {payload : Bytes} (hs : step cfg w (.send payload) = some w') :
    Inv cfg mode w' := by
  simp only [step] at hs
  split_ifs at hs with hm
  · cases hs
    simp only [maySend, h.ack_eq, Bool.and_eq_true, decide_eq_true_eq] at hm
    obtain ⟨hlen, hm⟩ := hm
    refine ⟨h.policy, h.overflows, fun hd => ?_, fun hc => ?_⟩
    · subst hd
      exact (h.delayed rfl).send hlen (by simpa using hm)
    · subst hc
      exact (h.classic rfl).send hlen (by simpa using hm)

theorem inv_ready (h : Inv cfg mode w) {remote : RemoteId} {payload : Bytes}
    (hs : step cfg w (.ready remote payload) = some w') : Inv cfg mode w' := by
  simp only [step] at hs
  split_ifs at hs with hst
  · cases hr : w.slot.acceptOpenReady remote payload with
    | error e => rw [hr] at hs; cases hs
    | ok slot =>
      rw [hr] at hs
      cases hs
      obtain ⟨b, rfl⟩ := ChannelSlot.acceptOpenReady_ok hr
      exact ⟨h.policy, h.overflows, fun hd => (h.delayed hd).take rfl le_rfl,
        fun hc => (h.classic hc).take rfl le_rfl⟩

/-- What arrives fits: in either mode the invariant leaves room for the oldest WRTE under way. -/
theorem Inv.arriving_fits (h : Inv cfg mode w) {payload : Bytes} {toHost : List Bytes}
    (hh : w.toHost = payload :: toHost) : w.slot.held + payload.length ≤ w.slot.policy.rxCap := by
  have hcap : w.slot.policy.rxCap = cfg.rxCap := by rw [h.policy]; rfl
  rw [hcap]
  cases mode with
  | delayed =>
    have h1 := (h.delayed rfl).fits
    have h2 := (h.delayed rfl).held_le
    simp only [underway, hh, List.map_cons, List.sum_cons] at h1
    omega
  | classic => exact ((h.classic rfl).arriving hh).2.2.2.2

theorem inv_arrive (h : Inv cfg mode w) (hs : step cfg w .arrive = some w') : Inv cfg mode w' := by
  simp only [step] at hs
  cases hh : w.toHost with
  | nil => rw [hh] at hs; cases hs
  | cons payload toHost =>
    rw [hh] at hs
    have hfits := h.arriving_fits hh
    obtain ⟨⟨d, slot⟩, hw⟩ := ChannelSlot.applyWrite_of_fits hfits
    obtain ⟨-, hle, hcase⟩ := ChannelSlot.applyWrite_ok hw
    rcases hcase with ⟨rfl, rfl, -⟩ | ⟨ids, -, rfl, rfl, hc, hlt⟩
    · -- held back: the only case with delayed ack
      simp only [hw] at hs
      cases hs
      refine ⟨h.policy, h.overflows, fun hd => ?_, fun hc => ?_⟩
      · exact (h.delayed hd).arrive hh rfl (w.slot.held_push payload _ hle)
      · obtain ⟨rfl, hd, hn, -, hcap⟩ := (h.classic hc).arriving hh
        exact .withheld hn rfl hd (by rw [w.slot.held_push payload _ hle]; exact hcap)
    · -- answered on arrival
      simp only [hw] at hs
      cases hs
      have hmode : mode = .classic := h.ack_eq.symm.trans hc
      subst hmode
      obtain ⟨rfl, hd, hn, -, -⟩ := (h.classic rfl).arriving hh
      refine ⟨h.policy, h.overflows, fun hd => (by cases hd), fun _ => ?_⟩
      exact .okayed (okayCredit ⟨ids, payload.length⟩) hn rfl (by simp [answer, hd]) rfl (h.watermark_eq ▸ hlt)

theorem inv_deliver (h : Inv cfg mode w) (hs : step cfg w .deliver = some w') : Inv cfg mode w' := by
  simp only [step] at hs
  cases hh : w.toHost with
  | nil => rw [hh] at hs; cases hs
  | cons payload toHost =>
    rw [hh] at hs
    simp only at hs
    split_ifs at hs with hempty
    cases mode with
    | delayed =>
      rw [show w.slot.deliver payload.length =
        ((w.slot.ack payload.length).filter fun ack => 0 < ack.len, w.slot) by
          simp [ChannelSlot.deliver, h.ack_eq]] at hs
      cases hack : (w.slot.ack payload.length).filter fun ack => 0 < ack.len with
      | none =>
        rw [hack] at hs
        cases hs
        have := (h.delayed rfl).deliver [] hh (by simp)
        exact ⟨h.policy, h.overflows, fun _ => by simpa using this, fun hc => (by cases hc)⟩
      | some ack =>
        rw [hack] at hs
        cases hs
        obtain ⟨hack, -⟩ := Option.filter_eq_some_iff.mp hack
        obtain ⟨ids, -, rfl⟩ := Option.map_eq_some_iff.mp hack
        have hle : okayCredit ⟨ids, payload.length⟩ ≤ payload.length := Nat.mod_le _ _
        exact ⟨h.policy, h.overflows,
          fun _ => (h.delayed rfl).deliver [_] hh (by simpa using hle), fun hc => (by cases hc)⟩
    | classic =>
      obtain ⟨rfl, hd, hn, hu, -⟩ := (h.classic rfl).arriving hh
      have hheld : w.slot.held = 0 := by simp [ChannelSlot.held, hempty]
      have hwm := cfg.rxWatermark_pos
      have hbelow : ¬ w.slot.policy.watermark ≤ w.slot.rxBuf.length := by
        rw [h.watermark_eq, hempty, List.length_nil]
        omega
      simp only [ChannelSlot.deliver, h.ack_eq, reduceCtorEq, if_false, if_neg hbelow] at hs
      cases hack : w.slot.ack w.slot.unacked with
      | none =>
        rw [hack] at hs
        cases hs
        exact ⟨h.policy, h.overflows, fun hd => (by cases hd),
          fun _ => .withheld hn rfl hd (by rw [hheld]; exact Nat.zero_le _)⟩
      | some ack =>
        rw [hack] at hs
        cases hs
        exact ⟨h.policy, h.overflows, fun hd => (by cases hd),
          fun _ => .okayed (okayCredit ack) hn rfl (by simp [answer, hd]) rfl (lt_of_eq_of_lt hheld hwm)⟩

theorem inv_settle (h : Inv cfg mode w) {want : ℕ} (hs : step cfg w (.settle want) = some w') :
    Inv cfg mode w' := by
  simp only [step] at hs
  cases hst : w.slot.settleTake want with
  | none => rw [hst] at hs; cases hs; exact h
  | some r =>
    obtain ⟨ack, slot⟩ := r
    rw [hst] at hs
    cases hs
    obtain ⟨hz, -, hlen, rfl⟩ := ChannelSlot.settleTake_some hst
    have hn := Nat.min_le_right want w.slot.rxBuf.length
    have hheld : w.slot.held = w.slot.rxBuf.length := by simp [ChannelSlot.held, hz]
    obtain ⟨hu, ⟨hd, hl, -⟩ | ⟨hc, hl, hlt⟩⟩ := ChannelSlot.ackLen_some hlen
    · -- all of the buffer is unacknowledged, so the OKAY is for exactly the bytes settled
      have hmode : mode = .delayed := h.ack_eq.symm.trans hd
      subst hmode
      have hle := (h.delayed rfl).held_le
      refine ⟨h.policy, h.overflows, fun _ => (h.delayed rfl).settle (by omega) rfl ?_, fun hc => (by cases hc)⟩
      simp only [ChannelSlot.held]
      omega
    · have hmode : mode = .classic := h.ack_eq.symm.trans hc
      subst hmode
      obtain ⟨hn1, hh, hd⟩ := (h.classic rfl).settling hu
      refine ⟨h.policy, h.overflows, fun hd => (by cases hd), fun _ => ?_⟩
      exact .okayed (okayCredit ack) hn1 hh (by simp [answer, hd]) (by simp [answer, hl]) (h.watermark_eq ▸ hlt)

theorem inv_take (h : Inv cfg mode w) {buf : ℕ} (hs : step cfg w (.take buf) = some w') :
    Inv cfg mode w' := by
  simp only [step] at hs
  split at hs
  · rename_i out slot ht
    cases hs
    obtain ⟨-, -, hle, rfl⟩ := ChannelSlot.takeBuffered_some ht
    have hheld := w.slot.held_take _ (Nat.min_le_right buf w.slot.ready) hle
    have hdown : ∀ n, (if w.slot.settled = 0 then w.slot.held - n else w.slot.held) ≤ w.slot.held := by
      intro n
      split_ifs <;> omega
    exact ⟨h.policy, h.overflows, fun hd => (h.delayed hd).take rfl (hheld ▸ hdown _),
      fun hc => (h.classic hc).take rfl (hheld ▸ hdown _)⟩
  · cases hs
    exact h

theorem inv_okay (h : Inv cfg mode w) (hs : step cfg w .okay = some w') : Inv cfg mode w' := by
  simp only [step] at hs
  cases hd : w.toDevice with
  | nil => rw [hd] at hs; cases hs
  | cons n toDevice =>
    rw [hd] at hs
    cases hs
    exact ⟨h.policy, h.overflows, fun hm => (h.delayed hm).okay hd, fun hm => (h.classic hm).okay hd⟩

theorem inv_step (h : Inv cfg mode w) {e : WindowEvent} (hs : step cfg w e = some w') : Inv cfg mode w' := by
  cases e with
  | send payload => exact inv_send h hs
  | ready remote payload => exact inv_ready h hs
  | arrive => exact inv_arrive h hs
  | deliver => exact inv_deliver h hs
  | settle want => exact inv_settle h hs
  | take buf => exact inv_take h hs
  | okay => exact inv_okay h hs

end Steps

end Window

/-- **Receive-window safety**: whatever the configuration and the mode, in every run with a device that keeps the
protocol `apply_write` never refuses a WRTE, and the unread bytes not yet settled stay within the cap. -/
theorem window_safe (cfg : ConnectionConfig) (mode : AckMode) (slot : ChannelSlot)
    (hmade : Window.Made cfg mode slot) (es : List WindowEvent) (w : Window)
    (hrun : Run (Window.step cfg) Any (Window.start cfg slot) es w) :
    w.overflows = 0 ∧ w.slot.held ≤ cfg.rxCap := by
  have hinv : Window.Inv cfg mode w :=
    hrun.invariant (Window.inv_start hmade) fun _ _ _ h _ hs => Window.inv_step h hs
  exact ⟨hinv.overflows, hinv.held_le⟩

/-- The smallest packets, a cap one byte above them, and so two bytes of credit. -/
def tightConfig : @ConnectionConfig usize64 :=
  @ConnectionConfig.withMaxRxPerChannel usize64
    (@ConnectionConfig.withMaxPayload usize64 (@ConnectionConfig.embedded usize64) 0) 1025 (by decide)

/-- A channel of `tightConfig` with delayed ack. -/
def tightStart : Window :=
  @Window.start usize64 tightConfig
    (ChannelSlot.opening ⟨1⟩ (@ConnectionConfig.rxPolicy usize64 tightConfig .delayed))

/-- A device that spends its last byte of credit on a full packet. -/
def lastByte : List WindowEvent := [.send [7], .send (List.replicate 1024 0), .arrive, .arrive]

omit [Usize] in
set_option maxRecDepth 20000 in
/-- Two bytes of credit, one sent; the other lets a full packet through, and the cap is reached and not crossed. -/
theorem window_safe_last_byte :
    ∃ w, exec (@Window.step usize64 tightConfig) tightStart lastByte = some w ∧
      w.credit = -1023 ∧ w.slot.held = 1025 ∧ w.overflows = 0 ∧
      w.slot.held ≤ @ConnectionConfig.rxCap usize64 tightConfig := by
  have safe : ∀ w, exec (@Window.step usize64 tightConfig) tightStart lastByte = some w →
      w.overflows = 0 ∧ w.slot.held ≤ @ConnectionConfig.rxCap usize64 tightConfig := fun w h =>
    @window_safe usize64 tightConfig .delayed _ (@Window.Made.opening usize64 _ _ ⟨1⟩) _ w (Run.of_exec h)
  exact ⟨_, rfl, rfl, rfl, safe _ rfl⟩

end LibAdb
