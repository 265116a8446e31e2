import LibAdb.Base.Wire.Recv

/-!
# LibAdb.Base.Wire.Range — the receive arithmetic stays in range

The functions of `LibAdb.Base.Wire.Recv` once more, with every `usize` sum and difference checked: `none` is a panic
in a debug build and a wrapped value in a release build.  The loop also carries the longest the receive buffer has
been.

`recv_in_range`: on a 64-bit host, and on a 32-bit one as long as no header announces almost `2^32` bytes, the checked
loop is the unchecked one, and the buffer stays within one packet or one read.
-/

namespace LibAdb

variable [Usize]

/-! ## Checked sums -/

def checkedAdd (a b : ℕ) : Option ℕ := if a + b ≤ usizeMax then some (a + b) else none

def checkedSub (a b : ℕ) : Option ℕ := if b ≤ a then some (a - b) else none

theorem checkedAdd_of_le {a b : ℕ} (h : a + b ≤ usizeMax) : checkedAdd a b = some (a + b) := if_pos h

omit [Usize] in
theorem checkedSub_of_le {a b : ℕ} (h : b ≤ a) : checkedSub a b = some (a - b) := if_pos h

/-! ## The functions, checked -/

namespace Packet

/-- `Packet::missing`; the difference is a `saturating_sub`. -/
def missingChecked (buf : Bytes) : Option ℕ :=
  if buf.length < messageSize then checkedSub messageSize buf.length
  else (checkedAdd messageSize (Message.read buf).dataLength.toNat).map fun total => total - buf.length

/-- `Packet::decode` -/
def decodeChecked (maxPayload : UInt32) (buf : Bytes) : Option (Except ProtocolError (Option Packet) × Bytes) :=
  if buf.length < messageSize then some (.ok none, buf)
  else
    let m := Message.read buf
    match Command.tryFrom m.command with
    | none => some (.error (.invalidCommand m.command), buf)
    | some command =>
      if m.magic ≠ command.magic then some (.error .invalidMagic, buf)
      else if min maxPayload.toNat maxPayloadConst < m.dataLength.toNat then some (.error .payloadTooLarge, buf)
      else
        (checkedAdd messageSize m.dataLength.toNat).map fun totalLen =>
          if buf.length < totalLen then (.ok none, buf)
          else
            let data := (buf.take totalLen).drop messageSize
            if m.dataCheck ≠ 0 ∧ payloadChecksum data ≠ m.dataCheck then
              (.error .invalidChecksum, buf.drop totalLen)
            else (.ok (some ⟨command, m.arg0, m.arg1, data⟩), buf.drop totalLen)

end Packet

def readLimitChecked (buf : Bytes) : Option ℕ :=
  if buf.length < messageSize then some minRead else Packet.missingChecked buf

namespace Staged

def newChecked (buf : Bytes) : Option Staged := do
  let want ← readLimitChecked buf
  let _ ← checkedAdd buf.length want
  return ⟨buf ++ List.replicate want 0, buf.length, by simp⟩

variable (st : Staged)

def roomChecked : Option ℕ := do
  let limit ← readLimitChecked st.committed
  let spare ← checkedSub st.buf.length st.keep
  return min limit spare

def commitChecked (data : Bytes) : Option Staged := do
  let _ ← checkedAdd st.keep data.length
  return st.commit data

def wantsMoreChecked : Option Bool := do
  let missing ← Packet.missingChecked st.committed
  let spare ← checkedSub st.buf.length st.keep
  return missing ≠ 0 && missing ≤ spare

end Staged

/-- The outcome of a call, with the longest the buffer has been. -/
abbrev Measured := ℕ × Outcome × Inbound

def decodeOrChecked (maxPayload : UInt32) (peak : ℕ) (buf rest : Bytes) (more : Bytes → Option Measured) :
    Option Measured := do
  match ← Packet.decodeChecked maxPayload buf with
  | (.ok (some pkt), buf) => return (peak, .packet pkt, ⟨buf, rest⟩)
  | (.error e, buf) => return (peak, .failed (.protocol e), ⟨buf, rest⟩)
  | (.ok none, buf) => more buf

/-- The room of a round's read.  Without a race the interrupt is looked at before any is asked for. -/
def Staged.roomOf (st : Staged) (race : Bool) (r : Round) : Option ℕ :=
  if race = false ∧ r.raced race = .interrupted then some 0 else st.roomChecked

/-- The two loops. -/
def recvLoopChecked (maxPayload : UInt32) (race : Bool) : List Round → ℕ → Staged → Bytes → Option Measured
  | [], peak, st, rest => do
    let _ ← st.roomChecked
    return (peak, .dropped, ⟨st.drop, rest⟩)
  | r :: rounds, peak, st, rest => do
    let room ← st.roomOf race r
    match r.raced race with
    | .interrupted => return (peak, .interrupted, ⟨st.drop, rest⟩)
    | .dropped => return (peak, .dropped, ⟨st.drop, rest⟩)
    | .got (.err kind) => return (peak, .failed (.io kind), ⟨st.drop, rest⟩)
    | .got (.ok n) =>
      let data := rest.take (min n room)
      if data = [] then return (peak, .failed .unexpectedEof, ⟨st.drop, rest⟩)
      else do
        let st ← st.commitChecked data
        let rest := rest.drop data.length
        if ← st.wantsMoreChecked then recvLoopChecked maxPayload race rounds peak st rest
        else decodeOrChecked maxPayload peak st.drop rest fun buf => do
          let st ← Staged.newChecked buf
          recvLoopChecked maxPayload race rounds (max peak st.buf.length) st rest

/-- `recv_pkt_or` -/
def recvPktOrChecked (maxPayload : UInt32) (race : Bool) (rounds : List Round) (c : Inbound) : Option Measured :=
  decodeOrChecked maxPayload c.buf.length c.buf c.rest fun buf => do
    let st ← Staged.newChecked buf
    recvLoopChecked maxPayload race rounds (max c.buf.length st.buf.length) st c.rest

/-! ## Where they are defined -/

/-- The header at the front of a buffer, if all of it is there, announces a length `missing` can count. -/
def Countable (buf : Bytes) : Prop := messageSize ≤ buf.length → Packet.announced buf ≤ usizeMax

theorem Countable.prefix {buf rest : Bytes} (h : Countable (buf ++ rest)) : Countable buf := by
  intro hlong
  rw [← Packet.announced_append rest hlong]
  exact h (by rw [List.length_append]; omega)

/-- The most the receive buffer holds: a read on top of a piece of a header, or one whole packet. -/
def rxBound (maxPayload : UInt32) : ℕ :=
  max (messageSize - 1 + minRead) (messageSize + min maxPayload.toNat maxPayloadConst)

theorem rxBound_le (maxPayload : UInt32) : rxBound maxPayload ≤ usizeMax := by
  refine le_trans ?_ u32Max_le_usizeMax
  unfold rxBound messageSize minRead maxPayloadConst
  omega

namespace Packet

theorem missingChecked_eq {buf : Bytes} (h : Countable buf) : missingChecked buf = some (missing buf) := by
  unfold missingChecked missing
  by_cases hs : buf.length < messageSize
  · rw [if_pos hs, if_pos hs, checkedSub_of_le hs.le]
  · have hle : announced buf ≤ usizeMax := h (not_lt.mp hs)
    have hlt : announced buf < 2 ^ Usize.bits := by
      have := Nat.two_pow_pos Usize.bits
      unfold usizeMax at hle
      omega
    rw [if_neg hs, if_neg hs, checkedAdd_of_le hle, Option.map_some, Nat.mod_eq_of_lt hlt]
    rfl

/-- `decode` adds a length it has already compared with the limit. -/
theorem decodeChecked_eq (maxPayload : UInt32) (buf : Bytes) :
    decodeChecked maxPayload buf = some (decode maxPayload buf) := by
  unfold decodeChecked decode
  by_cases hs : buf.length < messageSize
  · rw [if_pos hs, if_pos hs]
  rw [if_neg hs, if_neg hs]
  dsimp only
  cases Command.tryFrom (Message.read buf).command with
  | none => rfl
  | some command =>
    dsimp only
    by_cases hm : (Message.read buf).magic ≠ command.magic
    · rw [if_pos hm, if_pos hm]
    rw [if_neg hm, if_neg hm]
    by_cases hl : min maxPayload.toNat maxPayloadConst < (Message.read buf).dataLength.toNat
    · rw [if_pos hl, if_pos hl]
    · have hle : messageSize + (Message.read buf).dataLength.toNat ≤ usizeMax := by
        refine le_trans ?_ u32Max_le_usizeMax
        unfold messageSize
        unfold maxPayloadConst at hl
        omega
      rw [if_neg hl, if_neg hl, checkedAdd_of_le hle, Option.map_some]

omit [Usize] in
/-- What `decode` has seen when it asks for more. -/
theorem decode_none {maxPayload : UInt32} {buf left : Bytes} (h : decode maxPayload buf = (.ok none, left)) :
    left = buf ∧ (buf.length < messageSize ∨
      messageSize ≤ buf.length ∧ buf.length < announced buf ∧
        announced buf ≤ messageSize + min maxPayload.toNat maxPayloadConst) := by
  unfold decode at h
  by_cases hs : buf.length < messageSize
  · rw [if_pos hs] at h
    cases h
    exact ⟨rfl, .inl hs⟩
  rw [if_neg hs] at h
  dsimp only at h
  split at h
  · cases h
  · split_ifs at h with hm hl ht hc <;> cases h
    exact ⟨rfl, .inr ⟨not_lt.mp hs, ht, by unfold announced; omega⟩⟩

end Packet

theorem readLimitChecked_eq {buf : Bytes} (h : Countable buf) : readLimitChecked buf = some (readLimit buf) := by
  unfold readLimitChecked readLimit
  by_cases hs : buf.length < messageSize
  · rw [if_pos hs, if_pos hs]
  · rw [if_neg hs, if_neg hs, Packet.missingChecked_eq h]

namespace Staged

variable {st : Staged}

/-- The padding a refused `decode` asks for ends with the packet, or with one read. -/
theorem length_new_le {maxPayload : UInt32} {buf left : Bytes}
    (h : Packet.decode maxPayload buf = (.ok none, left)) : (new left).buf.length ≤ rxBound maxPayload := by
  obtain ⟨rfl, hs⟩ := Packet.decode_none h
  have hlen : (new left).buf.length = left.length + readLimit left := by simp [new]
  rw [hlen, readLimit, rxBound]
  rcases hs with hs | ⟨hlong, hlt, hle⟩
  · rw [if_pos hs]
    omega
  · rw [if_neg (not_lt.mpr hlong), Packet.missing, if_neg (not_lt.mpr hlong)]
    have hmod : Packet.announced left % 2 ^ Usize.bits ≤ Packet.announced left := Nat.mod_le _ _
    omega

theorem newChecked_eq {maxPayload : UInt32} {buf left : Bytes} (hc : Countable buf)
    (h : Packet.decode maxPayload buf = (.ok none, left)) : newChecked left = some (new left) := by
  have hlen := length_new_le h
  obtain ⟨rfl, -⟩ := Packet.decode_none h
  have hsum : left.length + readLimit left ≤ usizeMax := by
    refine le_trans ?_ (rxBound_le maxPayload)
    simpa [new] using hlen
  simp [newChecked, readLimitChecked_eq hc, checkedAdd_of_le hsum, new]

omit [Usize] in
theorem spare_checked (st : Staged) : checkedSub st.buf.length st.keep = some st.spare.length := by
  rw [checkedSub_of_le st.keep_le, spare, List.length_drop]

theorem roomChecked_eq (hc : Countable st.committed) : st.roomChecked = some st.room := by
  simp [roomChecked, readLimitChecked_eq hc, spare_checked, room]

theorem roomOf_eq (race : Bool) (r : Round) (hc : Countable st.committed) :
    ∃ room, st.roomOf race r = some room ∧ (r.raced race ≠ .interrupted → room = st.room) := by
  rw [roomOf, roomChecked_eq hc]
  split_ifs with h
  · exact ⟨0, rfl, fun hne => absurd h.2 hne⟩
  · exact ⟨_, rfl, fun _ => rfl⟩

theorem wantsMoreChecked_eq (hc : Countable st.committed) : st.wantsMoreChecked = some st.wantsMore := by
  simp [wantsMoreChecked, Packet.missingChecked_eq hc, spare_checked, wantsMore]

theorem commitChecked_eq {data : Bytes} (hlen : st.buf.length ≤ usizeMax) (hdata : data.length ≤ st.spare.length) :
    st.commitChecked data = some (st.commit data) := by
  have hkeep := st.keep_le
  rw [spare, List.length_drop] at hdata
  rw [commitChecked, checkedAdd_of_le (by omega)]
  rfl

end Staged

/-! ## A call -/

section Calls

variable {maxPayload : UInt32} {race : Bool}

/-- A call is in range: its checked version gives its outcome, and the buffer stays within `bound`. -/
structure InRange (bound : ℕ) (checked : Option Measured) (r : Outcome × Inbound) : Prop where
  checked_eq : ∃ peak, checked = some (peak, r) ∧ peak ≤ bound
  buffer_le : r.2.buf.length ≤ bound

omit [Usize] in
theorem InRange.leave {bound peak : ℕ} {r : Outcome × Inbound} (hpeak : peak ≤ bound)
    (hlen : r.2.buf.length ≤ bound) : InRange bound (some (peak, r)) r :=
  ⟨⟨peak, rfl, hpeak⟩, hlen⟩

/-- The head of the outer loop. -/
theorem decodeOr_inRange {bound peak : ℕ} {buf rest : Bytes} {moreChecked : Bytes → Option Measured}
    {more : Bytes → Outcome × Inbound} (hpeak : peak ≤ bound) (hlen : buf.length ≤ bound)
    (hmore : ∀ left, Packet.decode maxPayload buf = (.ok none, left) →
      InRange bound (moreChecked left) (more left)) :
    InRange bound (decodeOrChecked maxPayload peak buf rest moreChecked) (decodeOr maxPayload buf rest more) := by
  have hshort : (Packet.decode maxPayload buf).2.length ≤ bound := by
    obtain ⟨front, hfront⟩ := Packet.decode_suffix maxPayload buf
    have := congrArg List.length hfront
    rw [List.length_append] at this
    omega
  unfold decodeOrChecked decodeOr
  rw [Packet.decodeChecked_eq, Option.bind_eq_bind, Option.bind_some]
  rcases hd : Packet.decode maxPayload buf with ⟨found, left⟩
  rw [hd] at hshort
  rcases found with e | (_ | pkt)
  · exact .leave hpeak hshort
  · exact hmore left hd
  · exact .leave hpeak hshort

theorem recvLoop_inRange (rounds : List Round) (peak : ℕ) (st : Staged) (rest : Bytes)
    (hpeak : peak ≤ rxBound maxPayload) (hlen : st.buf.length ≤ rxBound maxPayload)
    (hc : Countable (st.committed ++ rest)) :
    InRange (rxBound maxPayload) (recvLoopChecked maxPayload race rounds peak st rest)
      (recvLoop maxPayload race rounds st rest) := by
  induction rounds generalizing peak st rest with
  | nil =>
    have hdrop : st.drop.length ≤ rxBound maxPayload := le_trans (List.length_take_le' _ _) hlen
    simp only [recvLoopChecked, recvLoop, Staged.roomChecked_eq hc.prefix, Option.bind_eq_bind, Option.bind_some]
    exact .leave hpeak hdrop
  | cons r rounds ih =>
    have hdrop : st.drop.length ≤ rxBound maxPayload := le_trans (List.length_take_le' _ _) hlen
    obtain ⟨room, hroom, hread⟩ := Staged.roomOf_eq race r hc.prefix
    simp only [recvLoopChecked, recvLoop, hroom, Option.bind_eq_bind, Option.bind_some]
    cases hr : r.raced race with
    | interrupted => exact .leave hpeak hdrop
    | dropped => exact .leave hpeak hdrop
    | got g =>
      cases g with
      | err kind => exact .leave hpeak hdrop
      | ok n =>
        dsimp only
        rw [hread (by rw [hr]; simp)]
        set data := rest.take (min n st.room) with hdata
        have hfits : data.length ≤ st.spare.length := by
          have h1 : data.length ≤ min n st.room := List.length_take_le _ _
          have h2 : st.room ≤ st.spare.length := min_le_right _ _
          omega
        have hlen' : (st.commit data).buf.length ≤ rxBound maxPayload := by
          rw [Staged.length_commit hfits]
          exact hlen
        have hwhole : (st.commit data).committed ++ rest.drop data.length = st.committed ++ rest := by
          rw [Staged.committed_commit, List.append_assoc,
            List.prefix_iff_eq_append.mp (List.take_prefix _ _)]
        rw [← hwhole] at hc
        by_cases hempty : data = []
        · rw [if_pos hempty, if_pos hempty]
          exact .leave hpeak hdrop
        rw [if_neg hempty, if_neg hempty, Staged.commitChecked_eq (le_trans hlen (rxBound_le _)) hfits,
          Option.bind_some, Staged.wantsMoreChecked_eq hc.prefix, Option.bind_some]
        by_cases hmore : (st.commit data).wantsMore = true
        · rw [if_pos hmore, if_pos hmore]
          exact ih peak _ _ hpeak hlen' hc
        · rw [if_neg hmore, if_neg hmore]
          refine decodeOr_inRange hpeak (le_trans (List.length_take_le' _ _) hlen') ?_
          -- the outer loop pads the buffer anew
          intro left hd
          rw [Staged.newChecked_eq hc.prefix hd, Option.bind_some]
          have hnew := Staged.length_new_le hd
          obtain ⟨rfl, -⟩ := Packet.decode_none hd
          refine ih _ _ _ (max_le hpeak hnew) hnew ?_
          rw [Staged.committed_new]
          exact hc

theorem recvPktOr_inRange (rounds : List Round) {c : Inbound} (hlen : c.buf.length ≤ rxBound maxPayload)
    (hc : Countable (c.buf ++ c.rest)) :
    InRange (rxBound maxPayload) (recvPktOrChecked maxPayload race rounds c) (recvPktOr maxPayload race rounds c) := by
  refine decodeOr_inRange hlen hlen ?_
  intro left hd
  rw [Staged.newChecked_eq hc.prefix hd, Option.bind_eq_bind, Option.bind_some]
  have hnew := Staged.length_new_le hd
  obtain ⟨rfl, -⟩ := Packet.decode_none hd
  refine recvLoop_inRange _ _ _ _ (max_le hlen hnew) hnew ?_
  rw [Staged.committed_new]
  exact hc

end Calls

/-! ## A session of calls -/

/-- On a 32-bit host the next header of the stream does not announce almost `2^32` bytes. -/
def Session.HeaderFits (s : Session) : Prop :=
  Usize.bits = 32 → messageSize ≤ s.undecoded.length →
    (Message.read s.undecoded).dataLength.toNat < 2 ^ 32 - messageSize

theorem Session.HeaderFits.countable {s : Session} (h : s.HeaderFits) : Countable s.undecoded := by
  intro hlong
  have hword := (Message.read s.undecoded).dataLength.toNat_lt
  unfold Packet.announced usizeMax
  rcases (Usize.supported) with hbits | hbits
  · have hfit := h hbits hlong
    unfold messageSize at hfit ⊢
    rw [hbits]
    omega
  · unfold messageSize
    rw [hbits]
    omega

theorem Session.run_concat (maxPayload : UInt32) (stream : Bytes) (calls : List Call) (call : Call) :
    Session.run maxPayload stream (calls ++ [call]) =
      ((Session.run maxPayload stream calls).recv maxPayload call).2 := by
  rw [Session.run, List.foldl_append]
  rfl

/-- The buffer between calls. -/
theorem Session.buffer_le (maxPayload : UInt32) (stream : Bytes) (calls : List Call)
    (hhead : ∀ before, before <+: calls → (Session.run maxPayload stream before).HeaderFits) :
    (Session.run maxPayload stream calls).inbound.buf.length ≤ rxBound maxPayload := by
  induction calls using List.reverseRecOn with
  | nil => exact Nat.zero_le _
  | append_singleton calls call ih =>
    have hbefore := ih fun before h => hhead before (h.trans (List.prefix_append _ _))
    rw [Session.run_concat]
    exact (@recvPktOr_inRange _ _ call.race call.rounds _ hbefore
      (hhead calls (List.prefix_append _ _)).countable).buffer_le

/-- **No sum of the receive path leaves its range** in a session whose headers all fit, and the receive buffer never
grows beyond a read on top of a piece of a header, or one packet of the size agreed on. -/
theorem recv_in_range (maxPayload : UInt32) (stream : Bytes) (calls : List Call) (call : Call)
    (hhead : ∀ before, before <+: calls → (Session.run maxPayload stream before).HeaderFits) :
    let c := (Session.run maxPayload stream calls).inbound
    c.buf.length ≤ max (23 + 4096) (24 + maxPayload.toNat) ∧
      ∃ peak, recvPktOrChecked maxPayload call.race call.rounds c =
          some (peak, recvPktOr maxPayload call.race call.rounds c) ∧
        peak ≤ max (23 + 4096) (24 + maxPayload.toNat) := by
  have hbuf := Session.buffer_le maxPayload stream calls hhead
  have hbound : rxBound maxPayload ≤ max (23 + 4096) (24 + maxPayload.toNat) := by
    unfold rxBound messageSize minRead
    omega
  obtain ⟨peak, heq, hpeak⟩ := (@recvPktOr_inRange _ _ call.race call.rounds _ hbuf
    (hhead calls (List.prefix_refl _)).countable).checked_eq
  exact ⟨hbuf.trans hbound, peak, heq, hpeak.trans hbound⟩

omit [Usize] in
set_option maxRecDepth 20000 in
/-- On a 32-bit host, with an empty packet on the way. -/
theorem recv_in_range_empty_packet :
    ∃ peak, @recvPktOrChecked usize32 4096 allBytes.race allBytes.rounds
      (@Session.run usize32 4096 (Packet.frame ⟨.ready, 1, 2, []⟩ .skip) []).inbound =
        some (peak, .packet ⟨.ready, 1, 2, []⟩, ⟨[], []⟩) ∧ peak ≤ max (23 + 4096) (24 + 4096) := by
  have h := @recv_in_range usize32 4096 (Packet.frame ⟨.ready, 1, 2, []⟩ .skip) [] allBytes (by
    intro before hbefore
    rw [List.prefix_nil.mp hbefore]
    intro _ _
    decide +kernel)
  obtain ⟨-, peak, heq, hpeak⟩ := h
  exact ⟨peak, heq, hpeak⟩

omit [Usize] in
set_option maxRecDepth 20000 in
/-- Twenty-four bytes of `0xFF` on a 32-bit host: `MESSAGE_SIZE + data_length` does not fit a `usize`. -/
theorem announced_length_overflows :
    @recvPktOrChecked usize32 4096 true [⟨none, some (0, .ok 24)⟩] ⟨[], List.replicate 24 0xFF⟩ = none ∧
      @Packet.missingChecked usize32 (List.replicate 24 0xFF) = none := by
  exact ⟨by decide +kernel, by decide +kernel⟩

end LibAdb
