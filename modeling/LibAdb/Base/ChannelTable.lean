import LibAdb.Base.Slot

/-!
# LibAdb.Base.ChannelTable — the slots of a connection and the routing of packets to them

`base/channel_table.rs`.  A table has a fixed number of slots; a `ChannelId` names a slot by index and by the
local id it was filled with, so a handle outlives its channel without naming the next one in the slot.

`dispatch` is the only place a received packet meets the table.  The source walks the slots and acts on the first
one whose local id is the packet's `arg1`; `slotOf` is that walk.
-/

namespace LibAdb

inductive DispatchOutcome where
  | ackWrite (idx : ℕ) (ack : PendingAck)
  | creditGranted (idx : ℕ)
  | slotClosed (idx : ℕ)
  | dataBuffered (idx : ℕ)
  | incomingOpen (remote : RemoteId) (credit : UInt32) (destination : Bytes)
  | cancelPendingOpen (remote : RemoteId)
  | strayReady (ids : ChannelIds)
  | channelFault (idx : ℕ) (ids : ChannelIds) (opening : Bool) (fault : ChannelFault)
  | unmatched
  deriving DecidableEq, Repr

/-- The slot an outcome names. -/
def DispatchOutcome.idx? : DispatchOutcome → Option ℕ
  | .ackWrite idx _ => some idx
  | .creditGranted idx => some idx
  | .slotClosed idx => some idx
  | .dataBuffered idx => some idx
  | .channelFault idx _ _ _ => some idx
  | .incomingOpen _ _ _ => none
  | .cancelPendingOpen _ => none
  | .strayReady _ => none
  | .unmatched => none

def DispatchOutcome.isFault : DispatchOutcome → Bool
  | .channelFault _ _ _ _ => true
  | _ => false

structure ChannelTable where
  slots : List (Option ChannelSlot)
  nextLocalId : UInt32
  policy : RxPolicy
  deriving DecidableEq

namespace ChannelTable

/-! ## Slots and handles -/

def new (len : ℕ) (policy : RxPolicy) : ChannelTable := ⟨List.replicate len none, 1, policy⟩

def len (t : ChannelTable) : ℕ := t.slots.length

/-- What slot `idx` holds. -/
def at? (t : ChannelTable) (idx : ℕ) : Option ChannelSlot := t.slots[idx]?.join

/-- Write a slot back. -/
def put (t : ChannelTable) (idx : ℕ) (slot : Option ChannelSlot) : ChannelTable :=
  { t with slots := t.slots.set idx slot }

/-- `allocate`: the first free slot and the next id; `none` is `NoFreeChannels`. -/
def allocate (t : ChannelTable) : Option (ChannelId × ChannelTable) :=
  match t.slots.findIdx? Option.isNone with
  | none => none
  | some slot => some (⟨slot, ⟨t.nextLocalId⟩⟩, { t with nextLocalId := max (t.nextLocalId + 1) 1 })

/-- `insert_opening` -/
def insertOpening (t : ChannelTable) (ch : ChannelId) : ChannelTable :=
  t.put ch.slot (some (ChannelSlot.opening ch.localId t.policy))

/-- `insert_accepted` -/
def insertAccepted (t : ChannelTable) (ch : ChannelId) (remote : RemoteId) (credit : UInt32) : ChannelTable :=
  t.put ch.slot (some (ChannelSlot.accepted ⟨ch.localId, remote⟩ credit t.policy))

/-- `get`, and `get_mut` with the slot written back by `put`. -/
def get (t : ChannelTable) (ch : ChannelId) : Option ChannelSlot :=
  (t.at? ch.slot).filter fun s => s.localId = ch.localId

def ids (t : ChannelTable) (ch : ChannelId) : Except Error ChannelIds :=
  match (t.get ch).bind ChannelSlot.ids with
  | some ids => .ok ids
  | none => .error .channelClosed

/-- `free` -/
def free (t : ChannelTable) (ch : ChannelId) : Option (ChannelSlot × ChannelTable) :=
  (t.get ch).map fun s => (s, t.put ch.slot none)

/-- The table after `free`, whether or not it freed anything. -/
def freed (t : ChannelTable) (ch : ChannelId) : ChannelTable :=
  match t.free ch with
  | some (_, t') => t'
  | none => t

/-! ## Routing -/

/-- The first slot whose channel has device id `remote`. -/
def slotOfRemote (t : ChannelTable) (remote : RemoteId) : Option ℕ :=
  t.slots.findIdx? fun slot => (slot.bind ChannelSlot.ids).any fun ids => ids.remote = remote

/-- The first slot whose channel has local id `raw`. -/
def slotOf (t : ChannelTable) (raw : UInt32) : Option ℕ :=
  t.slots.findIdx? fun slot => slot.any fun s => raw = s.localId.raw

/-- `close_remote` -/
def closeRemote (t : ChannelTable) (remote : RemoteId) : Option (ℕ × ChannelTable) :=
  if remote.raw = 0 then none
  else match t.slotOfRemote remote with
    | none => none
    | some idx => (t.at? idx).map fun s => (idx, t.put idx (some s.applyClose))

/-- The free function `fault`: the pair it names has the id the packet came with. -/
def fault (idx : ℕ) (slot : ChannelSlot) (remote : RemoteId) (fault : ChannelFault) : DispatchOutcome :=
  .channelFault idx ⟨slot.localId, remote⟩ (slot.state == .opening) fault

variable [Usize]

/-- The body of the loop in `dispatch`, at the slot the packet is for. -/
def dispatchTo (t : ChannelTable) (pkt : Packet) (idx : ℕ) (slot : ChannelSlot) :
    DispatchOutcome × ChannelTable :=
  match pkt.command with
  | .write =>
    if slot.isFailed then (.unmatched, t)
    else match slot.applyWrite pkt.data with
      | .ok (.now ack, slot') => (.ackWrite idx ack, t.put idx (some slot'))
      | .ok (.hold, slot') => (.dataBuffered idx, t.put idx (some slot'))
      | .error .rxOverflow => (fault idx slot ⟨pkt.arg0⟩ .rxOverflow, t)
  | .ready =>
    if slot.isFailed then (.unmatched, t)
    else
      let granted := if slot.state = .opening then slot.acceptOpenReady ⟨pkt.arg0⟩ pkt.data
        else slot.applyReady pkt.data
      match granted with
      | .ok slot' => (.creditGranted idx, t.put idx (some slot'))
      | .error e => (fault idx slot ⟨pkt.arg0⟩ (.protocol e), t)
  | .close => (.slotClosed idx, t.put idx (some slot.applyClose))
  | _ => (.unmatched, t)

/-- What becomes of a packet no slot claims. -/
def dispatchStray (pkt : Packet) : DispatchOutcome :=
  if pkt.command = .ready ∧ pkt.arg0 ≠ 0 ∧ pkt.arg1 ≠ 0 then .strayReady ⟨⟨pkt.arg1⟩, ⟨pkt.arg0⟩⟩
  else .unmatched

/-- `dispatch` -/
def dispatch (t : ChannelTable) (pkt : Packet) : DispatchOutcome × ChannelTable :=
  if pkt.command = .connect ∨ pkt.command = .auth ∨ pkt.command = .startTls then (.unmatched, t)
  else if pkt.command = .«open» then (.incomingOpen ⟨pkt.arg0⟩ pkt.arg1 pkt.data, t)
  else if pkt.command = .close ∧ pkt.arg1 = 0 then
    match t.closeRemote ⟨pkt.arg0⟩ with
    | some (idx, t') => (.slotClosed idx, t')
    | none => (.cancelPendingOpen ⟨pkt.arg0⟩, t)
  else match t.slotOf pkt.arg1 with
    | none => (dispatchStray pkt, t)
    | some idx =>
      match t.at? idx with
      | none => (dispatchStray pkt, t)
      | some slot => t.dispatchTo pkt idx slot

/-! ## Looking things up -/

section Lookup

variable {t t' : ChannelTable} {idx : ℕ} {slot slot' : ChannelSlot} {ch : ChannelId}

omit [Usize]

theorem at?_lt (h : t.at? idx = some slot) : idx < t.slots.length := by
  unfold at? at h
  cases hs : t.slots[idx]? with
  | none => rw [hs] at h; cases h
  | some o => exact (List.getElem?_eq_some_iff.mp hs).1

theorem at?_put_self (v : Option ChannelSlot) (h : idx < t.slots.length) : (t.put idx v).at? idx = v := by
  simp [at?, put, List.getElem?_set_self h]

theorem at?_put_ne {j : ℕ} (v : Option ChannelSlot) (h : j ≠ idx) : (t.put idx v).at? j = t.at? j := by
  simp [at?, put, List.getElem?_set_ne (Ne.symm h)]

theorem get_eq_some : t.get ch = some slot ↔ t.at? ch.slot = some slot ∧ slot.localId = ch.localId := by
  simp [get, Option.filter_eq_some_iff]

/-- A slot written back under the same local id. -/
theorem get_put_self (hat : t.at? ch.slot = some slot) (hid : slot'.localId = ch.localId) :
    (t.put ch.slot (some slot')).get ch = some slot' :=
  get_eq_some.mpr ⟨at?_put_self _ (at?_lt hat), hid⟩

theorem get_put_ne (v : Option ChannelSlot) (h : ch.slot ≠ idx) : (t.put idx v).get ch = t.get ch := by
  simp only [get, at?_put_ne v h]

/-- A slot written back anywhere under its own local id: what a handle names changes with it, or not at all. -/
theorem get_put (hat : t.at? idx = some slot) (hid : slot'.localId = slot.localId) :
    (t.put idx (some slot')).get ch = if ch.slot = idx then (t.get ch).map fun _ => slot' else t.get ch := by
  split_ifs with hs
  · subst hs
    cases hg : t.get ch with
    | none =>
      have hne : slot.localId ≠ ch.localId := fun heq => by
        rw [get_eq_some.mpr ⟨hat, heq⟩] at hg
        cases hg
      simp [get, at?_put_self _ (at?_lt hat), hid, hne]
    | some s1 =>
      obtain ⟨hat1, hid1⟩ := get_eq_some.mp hg
      rw [hat] at hat1
      cases hat1
      exact get_put_self hat (hid.trans hid1)
  · exact get_put_ne _ hs

/-- A free slot, and nothing else of the table changes but the next id. -/
theorem allocate_spec (h : t.allocate = some (ch, t')) :
    t.at? ch.slot = none ∧ ch.slot < t.slots.length ∧ t'.slots = t.slots ∧ t'.policy = t.policy ∧
      ch.localId.raw = t.nextLocalId := by
  unfold allocate at h
  split at h
  · cases h
  · rename_i idx hidx
    obtain ⟨hlt, hnone, -⟩ := List.findIdx?_eq_some_iff_getElem.mp hidx
    cases h
    refine ⟨?_, hlt, rfl, rfl, rfl⟩
    have hn : t.slots[idx] = none := by simpa using hnone
    simp [at?, List.getElem?_eq_getElem hlt, hn]

/-- The table after a slot was taken and filled. -/
theorem get_filled (h : t.allocate = some (ch, t')) {ch' : ChannelId} (hocc : t.get ch' = some slot)
    (v : Option ChannelSlot) : (t'.put ch.slot v).get ch' = some slot := by
  obtain ⟨hfree, -, hslots, -, -⟩ := allocate_spec h
  have hne : ch'.slot ≠ ch.slot := by
    intro heq
    rw [← heq, (get_eq_some.mp hocc).1] at hfree
    cases hfree
  rw [get_put_ne v hne]
  simpa only [get, at?, hslots] using hocc

theorem get_freed : (t.freed ch).get ch' = if ch'.slot = ch.slot ∧ (t.get ch).isSome then none else t.get ch' := by
  unfold freed free
  cases hg : t.get ch with
  | none => simp
  | some s =>
    simp only [Option.map_some, Option.isSome_some, and_true]
    split_ifs with hs
    · simp only [get, hs, at?_put_self _ (at?_lt (get_eq_some.mp hg).1), Option.filter_none]
    · exact get_put_ne _ hs

theorem slotOf_spec {raw : UInt32} (h : t.slotOf raw = some idx) :
    ∃ slot, t.at? idx = some slot ∧ slot.localId.raw = raw := by
  obtain ⟨hlt, hp, -⟩ := List.findIdx?_eq_some_iff_getElem.mp h
  cases hs : t.slots[idx] with
  | none => simp [hs] at hp
  | some slot => exact ⟨slot, by simp [at?, List.getElem?_eq_getElem hlt, hs], by simpa [hs, eq_comm] using hp⟩

/-- A slot written back under its own local id changes no route. -/
theorem slotOf_put (hat : t.at? idx = some slot) (hid : slot'.localId = slot.localId) (raw : UInt32) :
    (t.put idx (some slot')).slotOf raw = t.slotOf raw := by
  have hlt := at?_lt hat
  have hslot : t.slots[idx] = some slot := by
    rw [at?, List.getElem?_eq_getElem hlt] at hat
    exact hat
  -- the walk only sees which slots have the id
  let has (o : Option ChannelSlot) : Bool := o.any fun s => decide (raw = s.localId.raw)
  have hwalk : ∀ u : ChannelTable, u.slotOf raw = (u.slots.map has).findIdx? id := fun u => by
    rw [List.findIdx?_map]
    rfl
  have hlt' : idx < (t.slots.map has).length := by rwa [List.length_map]
  have hsame : has (some slot') = (t.slots.map has)[idx] := by
    rw [List.getElem_map, hslot]
    simp only [has, Option.any_some, hid]
  rw [hwalk, hwalk, put, List.map_set, hsame, List.set_getElem_self]

theorem slotOfRemote_spec {remote : RemoteId} (h : t.slotOfRemote remote = some idx) :
    ∃ slot, t.at? idx = some slot ∧ slot.remote = some remote := by
  obtain ⟨hlt, hp, -⟩ := List.findIdx?_eq_some_iff_getElem.mp h
  cases hs : t.slots[idx] with
  | none => simp [hs] at hp
  | some slot =>
    refine ⟨slot, by simp [at?, List.getElem?_eq_getElem hlt, hs], ?_⟩
    cases hr : slot.remote with
    | none => simp [hs, ChannelSlot.ids, hr] at hp
    | some r =>
      have : r = remote := by simpa [hs, ChannelSlot.ids, hr] using hp
      rw [this]

theorem closeRemote_spec {remote : RemoteId} (h : t.closeRemote remote = some (idx, t')) :
    ∃ slot, t.at? idx = some slot ∧ slot.remote = some remote ∧ t' = t.put idx (some slot.applyClose) := by
  unfold closeRemote at h
  split_ifs at h
  split at h
  · cases h
  · rename_i idx1 hidx
    obtain ⟨slot, hat, hr⟩ := slotOfRemote_spec hidx
    rw [hat, Option.map_some] at h
    cases h
    exact ⟨slot, hat, hr, rfl⟩

theorem at?_put_cases {v : Option ChannelSlot} {j : ℕ} {other : ChannelSlot} (h : (t.put idx v).at? j = some other) :
    (j = idx ∧ v = some other) ∨ (j ≠ idx ∧ t.at? j = some other) := by
  by_cases hj : j = idx
  · subst hj
    have hlt := at?_lt h
    rw [at?_put_self v (by simpa [put] using hlt)] at h
    exact .inl ⟨rfl, h⟩
  · rw [at?_put_ne v hj] at h
    exact .inr ⟨hj, h⟩

theorem mem_slots_of_at? (h : t.at? idx = some slot) : some slot ∈ t.slots := by
  unfold at? at h
  cases hs : t.slots[idx]? with
  | none => rw [hs] at h; cases h
  | some o =>
    rw [hs] at h
    cases h
    exact List.mem_of_getElem? hs

theorem slotOf_isSome (h : t.at? idx = some slot) : ∃ i, t.slotOf slot.localId.raw = some i := by
  cases hs : t.slotOf slot.localId.raw with
  | some i => exact ⟨i, rfl⟩
  | none =>
    have := List.findIdx?_eq_none_iff.mp hs _ (mem_slots_of_at? h)
    simp at this

theorem slotOfRemote_isSome {remote : RemoteId} (h : t.at? idx = some slot) (hr : slot.remote = some remote) :
    ∃ i, t.slotOfRemote remote = some i := by
  cases hs : t.slotOfRemote remote with
  | some i => exact ⟨i, rfl⟩
  | none =>
    have := List.findIdx?_eq_none_iff.mp hs _ (mem_slots_of_at? h)
    simp [ChannelSlot.ids, hr] at this

theorem put_put (t : ChannelTable) (i : ℕ) (v v' : Option ChannelSlot) : (t.put i v).put i v' = t.put i v' := by
  simp [put]

/-- The slot of an open that came to nothing. -/
theorem freed_insertOpening (t : ChannelTable) (c : ChannelId) : (t.insertOpening c).freed c = t.put c.slot none := by
  unfold insertOpening freed free
  by_cases hlt : c.slot < t.slots.length
  · have hget : (t.put c.slot (some (ChannelSlot.opening c.localId t.policy))).get c =
        some (ChannelSlot.opening c.localId t.policy) :=
      get_eq_some.mpr ⟨at?_put_self _ hlt, rfl⟩
    rw [hget]
    exact put_put t c.slot _ _
  · have hput : ∀ v, t.put c.slot v = t := by
      intro v
      unfold put
      rw [List.set_eq_of_length_le (not_lt.mp hlt)]
    have hget : t.get c = none := by
      cases hg : t.get c with
      | none => rfl
      | some s => exact absurd (at?_lt (get_eq_some.mp hg).1) hlt
    rw [hput, hput, hget]
    rfl

end Lookup

/-! ## What `dispatch` can do -/

/-- `dispatch`, taken apart: at most one slot changes, and the outcome names it. -/
inductive Dispatches (t : ChannelTable) (pkt : Packet) : DispatchOutcome → ChannelTable → Prop
  | ignored : Dispatches t pkt .unmatched t
  | opens (hcmd : pkt.command = .«open») : Dispatches t pkt (.incomingOpen ⟨pkt.arg0⟩ pkt.arg1 pkt.data) t
  | withdraws (hcmd : pkt.command = .close) (hzero : pkt.arg1 = 0) (hnone : t.closeRemote ⟨pkt.arg0⟩ = none) :
      Dispatches t pkt (.cancelPendingOpen ⟨pkt.arg0⟩) t
  | closesRemote (idx : ℕ) (slot : ChannelSlot) (hcmd : pkt.command = .close) (hzero : pkt.arg1 = 0)
      (hat : t.at? idx = some slot) (hremote : slot.remote = some ⟨pkt.arg0⟩) :
      Dispatches t pkt (.slotClosed idx) (t.put idx (some slot.applyClose))
  | stray (hcmd : pkt.command = .ready) (h0 : pkt.arg0 ≠ 0) (h1 : pkt.arg1 ≠ 0) (hnone : t.slotOf pkt.arg1 = none) :
      Dispatches t pkt (.strayReady ⟨⟨pkt.arg1⟩, ⟨pkt.arg0⟩⟩) t
  | closes (idx : ℕ) (slot : ChannelSlot) (hcmd : pkt.command = .close) (hidx : t.slotOf pkt.arg1 = some idx)
      (hat : t.at? idx = some slot) : Dispatches t pkt (.slotClosed idx) (t.put idx (some slot.applyClose))
  | acks (idx : ℕ) (slot slot' : ChannelSlot) (ack : PendingAck) (hcmd : pkt.command = .write)
      (hidx : t.slotOf pkt.arg1 = some idx) (hat : t.at? idx = some slot) (hfailed : slot.isFailed = false)
      (happly : slot.applyWrite pkt.data = .ok (.now ack, slot')) :
      Dispatches t pkt (.ackWrite idx ack) (t.put idx (some slot'))
  | buffers (idx : ℕ) (slot slot' : ChannelSlot) (hcmd : pkt.command = .write) (hidx : t.slotOf pkt.arg1 = some idx)
      (hat : t.at? idx = some slot) (hfailed : slot.isFailed = false)
      (happly : slot.applyWrite pkt.data = .ok (.hold, slot')) :
      Dispatches t pkt (.dataBuffered idx) (t.put idx (some slot'))
  | accepts (idx : ℕ) (slot slot' : ChannelSlot) (hcmd : pkt.command = .ready) (hidx : t.slotOf pkt.arg1 = some idx)
      (hat : t.at? idx = some slot) (hfailed : slot.isFailed = false) (hstate : slot.state = .opening)
      (happly : slot.acceptOpenReady ⟨pkt.arg0⟩ pkt.data = .ok slot') :
      Dispatches t pkt (.creditGranted idx) (t.put idx (some slot'))
  | grants (idx : ℕ) (slot slot' : ChannelSlot) (hcmd : pkt.command = .ready) (hidx : t.slotOf pkt.arg1 = some idx)
      (hat : t.at? idx = some slot) (hfailed : slot.isFailed = false) (hstate : slot.state ≠ .opening)
      (happly : slot.applyReady pkt.data = .ok slot') :
      Dispatches t pkt (.creditGranted idx) (t.put idx (some slot'))
  | faults (idx : ℕ) (slot : ChannelSlot) (f : ChannelFault) (hcmd : pkt.command = .write ∨ pkt.command = .ready)
      (hidx : t.slotOf pkt.arg1 = some idx) (hat : t.at? idx = some slot) (hfailed : slot.isFailed = false) :
      Dispatches t pkt (fault idx slot ⟨pkt.arg0⟩ f) t

theorem dispatchTo_spec {t : ChannelTable} {pkt : Packet} {idx : ℕ} {slot : ChannelSlot}
    (hidx : t.slotOf pkt.arg1 = some idx) (hat : t.at? idx = some slot) :
    Dispatches t pkt (t.dispatchTo pkt idx slot).1 (t.dispatchTo pkt idx slot).2 := by
  unfold dispatchTo
  split
  · rename_i hcmd
    split_ifs with hf
    · exact .ignored
    · have hfailed : slot.isFailed = false := by simpa using hf
      split
      · rename_i ack slot' happly
        exact .acks idx slot slot' ack hcmd hidx hat hfailed happly
      · rename_i slot' happly
        exact .buffers idx slot slot' hcmd hidx hat hfailed happly
      · exact .faults idx slot _ (Or.inl hcmd) hidx hat hfailed
  · rename_i hcmd
    split_ifs with hf hstate
    · exact .ignored
    · have hfailed : slot.isFailed = false := by simpa using hf
      dsimp only
      split
      · rename_i slot' happly
        exact .accepts idx slot slot' hcmd hidx hat hfailed hstate happly
      · exact .faults idx slot _ (Or.inr hcmd) hidx hat hfailed
    · have hfailed : slot.isFailed = false := by simpa using hf
      dsimp only
      split
      · rename_i slot' happly
        exact .grants idx slot slot' hcmd hidx hat hfailed hstate happly
      · exact .faults idx slot _ (Or.inr hcmd) hidx hat hfailed
  · rename_i hcmd
    exact .closes idx slot hcmd hidx hat
  · exact .ignored

theorem dispatch_spec (t : ChannelTable) (pkt : Packet) : Dispatches t pkt (t.dispatch pkt).1 (t.dispatch pkt).2 := by
  unfold dispatch
  split_ifs with h1 hopen hclose
  · exact .ignored
  · exact .opens hopen
  · split
    · rename_i idx t' hc
      obtain ⟨slot, hat, hr, rfl⟩ := closeRemote_spec hc
      exact .closesRemote idx slot hclose.1 hclose.2 hat hr
    · rename_i hnone
      exact .withdraws hclose.1 hclose.2 hnone
  · split
    · rename_i hnone
      unfold dispatchStray
      split_ifs with hs
      · exact .stray hs.1 hs.2.1 hs.2.2 hnone
      · exact .ignored
    · rename_i idx hidx
      obtain ⟨slot, hat, -⟩ := slotOf_spec hidx
      rw [hat]
      exact dispatchTo_spec hidx hat

/-! ## What `dispatch` leaves alone -/

/-- The slot a packet is for: by local id, or for a withdrawal (`CLSE(remote, 0)`) the first one with the device's
id. -/
def Addressed (t : ChannelTable) (pkt : Packet) (idx : ℕ) : Prop :=
  ∃ slot, t.at? idx = some slot ∧
    ((pkt.command = .write ∨ pkt.command = .ready ∨ pkt.command = .close ∧ pkt.arg1 ≠ 0) ∧
        slot.localId.raw = pkt.arg1 ∨
      pkt.command = .close ∧ pkt.arg1 = 0 ∧ pkt.arg0 ≠ 0 ∧ slot.remote = some ⟨pkt.arg0⟩ ∧
        ∀ j < idx, ∀ other, t.at? j = some other → other.remote ≠ some ⟨pkt.arg0⟩)

/-- No two occupied slots share a local id. -/
def DistinctLocalIds (t : ChannelTable) : Prop :=
  ∀ i j si sj, t.at? i = some si → t.at? j = some sj → si.localId = sj.localId → i = j

section Frame

variable {t t' : ChannelTable} {pkt : Packet} {idx : ℕ}

omit [Usize] in
theorem Addressed.unique {i j : ℕ} (hdist : t.DistinctLocalIds) (hi : t.Addressed pkt i) (hj : t.Addressed pkt j) :
    i = j := by
  obtain ⟨si, hsi, ⟨hcmdi, hidi⟩ | ⟨hci, hzi, -, hri, hfirsti⟩⟩ := hi
  · obtain ⟨sj, hsj, ⟨-, hidj⟩ | ⟨hcj, hzj, -⟩⟩ := hj
    · exact hdist i j si sj hsi hsj (congrArg LocalId.mk (hidi.trans hidj.symm))
    · -- a withdrawal names no local id
      rw [hcj, hzj] at hcmdi
      simp at hcmdi
  · obtain ⟨sj, hsj, ⟨hcmdj, -⟩ | ⟨-, -, -, hrj, hfirstj⟩⟩ := hj
    · rw [hci, hzi] at hcmdj
      simp at hcmdj
    · rcases lt_trichotomy i j with hlt | heq | hgt
      · exact absurd hri (hfirstj i hlt si hsi)
      · exact heq
      · exact absurd hrj (hfirsti j hgt sj hsj)

omit [Usize] in
theorem slotOfRemote_first {remote : RemoteId} (h : t.slotOfRemote remote = some idx) {j : ℕ} (hj : j < idx)
    {other : ChannelSlot} (hat : t.at? j = some other) : other.remote ≠ some remote := by
  obtain ⟨hlt, -, hfirst⟩ := List.findIdx?_eq_some_iff_getElem.mp h
  intro hr
  have hslot : t.slots[j] = some other := by
    have hget := hat
    rw [at?, List.getElem?_eq_getElem (hj.trans hlt)] at hget
    exact hget
  have hno := hfirst j hj
  simp [hslot, ChannelSlot.ids, hr] at hno

omit [Usize] in
theorem closeRemote_addressed (hcmd : pkt.command = .close) (hzero : pkt.arg1 = 0)
    (h : t.closeRemote ⟨pkt.arg0⟩ = some (idx, t')) : t.Addressed pkt idx := by
  obtain ⟨slot, hat, hr, -⟩ := closeRemote_spec h
  unfold closeRemote at h
  split_ifs at h with hraw
  split at h
  · cases h
  · rename_i first hfirst
    have hidx : first = idx := by
      obtain ⟨s, hs, -⟩ := slotOfRemote_spec hfirst
      rw [hs] at h
      cases h
      rfl
    subst hidx
    exact ⟨slot, hat, .inr ⟨hcmd, hzero, hraw, hr, fun j hj other ho => slotOfRemote_first hfirst hj ho⟩⟩

/-- The slot an outcome names is the one the packet was for. -/
theorem dispatch_addressed (h : (t.dispatch pkt).1.idx? = some idx) : t.Addressed pkt idx := by
  by_cases hw : pkt.command = .close ∧ pkt.arg1 = 0
  · obtain ⟨hcmd, hzero⟩ := hw
    unfold dispatch at h
    rw [if_neg (by rw [hcmd]; decide), if_neg (by rw [hcmd]; decide), if_pos ⟨hcmd, hzero⟩] at h
    split at h
    · rename_i first t1 hclose
      cases h
      exact closeRemote_addressed hcmd hzero hclose
    · cases h
  · have byLocal : ∀ {i : ℕ}, pkt.command = .write ∨ pkt.command = .ready ∨ pkt.command = .close →
        t.slotOf pkt.arg1 = some i → t.Addressed pkt i := by
      intro i hcmd hidx
      obtain ⟨slot, hat, hid⟩ := slotOf_spec hidx
      refine ⟨slot, hat, .inl ⟨?_, hid⟩⟩
      rcases hcmd with hcmd | hcmd | hcmd
      · exact .inl hcmd
      · exact .inr (.inl hcmd)
      · exact .inr (.inr ⟨hcmd, fun hzero => hw ⟨hcmd, hzero⟩⟩)
    have hd := dispatch_spec t pkt
    revert h hd
    generalize (t.dispatch pkt).1 = o
    generalize (t.dispatch pkt).2 = t1
    intro h hd
    cases hd with
    | ignored => cases h
    | opens hcmd => cases h
    | withdraws hcmd hzero hnone => cases h
    | closesRemote i slot hcmd hzero hat hremote => exact absurd ⟨hcmd, hzero⟩ hw
    | stray hcmd h0 h1 hnone => cases h
    | closes i slot hcmd hidx hat => cases h; exact byLocal (.inr (.inr hcmd)) hidx
    | acks i slot slot' ack hcmd hidx hat hfailed happly => cases h; exact byLocal (.inl hcmd) hidx
    | buffers i slot slot' hcmd hidx hat hfailed happly => cases h; exact byLocal (.inl hcmd) hidx
    | accepts i slot slot' hcmd hidx hat hfailed hstate happly => cases h; exact byLocal (.inr (.inl hcmd)) hidx
    | grants i slot slot' hcmd hidx hat hfailed hstate happly => cases h; exact byLocal (.inr (.inl hcmd)) hidx
    | faults i slot f hcmd hidx hat hfailed =>
      cases h
      exact byLocal (hcmd.elim .inl (fun h => .inr (.inl h))) hidx

/-- How one slot may change under a packet. -/
structure SlotStep (pkt : Packet) (slot slot' : ChannelSlot) : Prop where
  closed : slot.isClosed → slot'.isClosed
  failed : slot.isFailed → pkt.command = .write ∨ pkt.command = .ready → slot' = slot

omit [Usize] in
/-- A slot that a WRTE or READY changed had not failed. -/
theorem SlotStep.of_live {slot slot' : ChannelSlot} (hfailed : slot.isFailed = false)
    (hclosed : slot.isClosed → slot'.isClosed) : SlotStep pkt slot slot' :=
  ⟨hclosed, fun h => absurd h (by rw [hfailed]; decide)⟩

/-- **`dispatch` writes one slot at most**, the one its outcome names, and a fault writes none. -/
theorem dispatch_step (t : ChannelTable) (pkt : Packet) :
    (t.dispatch pkt).2 = t ∨
      ∃ idx slot slot', (t.dispatch pkt).1.idx? = some idx ∧ t.at? idx = some slot ∧
        (t.dispatch pkt).2 = t.put idx (some slot') ∧ SlotStep pkt slot slot' ∧ (t.dispatch pkt).1.isFault = false := by
  have hd := dispatch_spec t pkt
  revert hd
  generalize (t.dispatch pkt).1 = o
  generalize (t.dispatch pkt).2 = t1
  intro hd
  have closing : ∀ slot : ChannelSlot, pkt.command = .close → SlotStep pkt slot slot.applyClose := by
    intro slot hcmd
    refine ⟨fun _ => rfl, fun _ h => ?_⟩
    rw [hcmd] at h
    simp at h
  cases hd with
  | ignored => exact .inl rfl
  | opens hcmd => exact .inl rfl
  | withdraws hcmd hzero hnone => exact .inl rfl
  | stray hcmd h0 h1 hnone => exact .inl rfl
  | faults i slot f hcmd hidx hat hfailed => exact .inl rfl
  | closesRemote i slot hcmd hzero hat hremote => exact .inr ⟨i, slot, _, rfl, hat, rfl, closing slot hcmd, rfl⟩
  | closes i slot hcmd hidx hat => exact .inr ⟨i, slot, _, rfl, hat, rfl, closing slot hcmd, rfl⟩
  | acks i slot slot' ack hcmd hidx hat hfailed happly =>
    refine .inr ⟨i, slot, slot', rfl, hat, rfl, .of_live hfailed ?_, rfl⟩
    obtain ⟨-, hle, ⟨-, rfl, -⟩ | ⟨ids, -, -, rfl, -⟩⟩ := ChannelSlot.applyWrite_ok happly <;> exact id
  | buffers i slot slot' hcmd hidx hat hfailed happly =>
    refine .inr ⟨i, slot, slot', rfl, hat, rfl, .of_live hfailed ?_, rfl⟩
    obtain ⟨-, hle, ⟨-, rfl, -⟩ | ⟨ids, -, -, rfl, -⟩⟩ := ChannelSlot.applyWrite_ok happly <;> exact id
  | accepts i slot slot' hcmd hidx hat hfailed hstate happly =>
    refine .inr ⟨i, slot, slot', rfl, hat, rfl, .of_live hfailed ?_, rfl⟩
    intro hclosed
    rw [ChannelSlot.isClosed, hstate] at hclosed
    cases hclosed
  | grants i slot slot' hcmd hidx hat hfailed hstate happly =>
    refine .inr ⟨i, slot, slot', rfl, hat, rfl, .of_live hfailed ?_, rfl⟩
    obtain ⟨-, rfl⟩ | ⟨-, rfl⟩ := ChannelSlot.applyReady_ok happly <;> exact id

end Frame

/-- **`dispatch` touches only the addressed channel.** -/
theorem dispatch_frame (t : ChannelTable) (pkt : Packet) (hdist : t.DistinctLocalIds) :
    (∀ i j, t.Addressed pkt i → t.Addressed pkt j → i = j) ∧
    (∀ i, ¬ t.Addressed pkt i → (t.dispatch pkt).2.at? i = t.at? i) ∧
    (∀ i, ((t.dispatch pkt).2.at? i).isSome = (t.at? i).isSome) ∧
    (t.dispatch pkt).2.len = t.len ∧ (t.dispatch pkt).2.nextLocalId = t.nextLocalId ∧
    (∀ i, (t.dispatch pkt).1.idx? = some i → t.Addressed pkt i) ∧
    (∀ i slot slot', t.at? i = some slot → (t.dispatch pkt).2.at? i = some slot' →
      (slot.isClosed → slot'.isClosed) ∧
      (slot.isFailed → pkt.command = .write ∨ pkt.command = .ready → slot' = slot) ∧
      ((t.dispatch pkt).1.isFault → pkt.command = .write ∨ pkt.command = .ready → slot' = slot)) := by
  refine ⟨fun i j => Addressed.unique hdist, ?_⟩
  rcases dispatch_step t pkt with hsame | ⟨idx, slot, slot', hidx, hat, hput, hstep, hfault⟩
  · rw [hsame]
    refine ⟨fun _ _ => rfl, fun _ => rfl, rfl, rfl, fun i h => dispatch_addressed h, ?_⟩
    intro i slot slot' h h'
    rw [h, Option.some.injEq] at h'
    subst h'
    exact ⟨id, fun _ _ => rfl, fun _ _ => rfl⟩
  · have hlt := at?_lt hat
    rw [hput]
    refine ⟨?_, ?_, by simp [len, put], rfl, fun i h => dispatch_addressed h, ?_⟩
    · intro i hi
      exact at?_put_ne _ (fun heq => hi (heq ▸ dispatch_addressed hidx))
    · intro i
      by_cases hi : i = idx
      · rw [hi, at?_put_self _ hlt, hat]
        rfl
      · rw [at?_put_ne _ hi]
    · intro i s s' h h'
      by_cases hi : i = idx
      · subst hi
        rw [at?_put_self _ hlt, Option.some.injEq] at h'
        rw [hat, Option.some.injEq] at h
        subst h h'
        exact ⟨hstep.closed, hstep.failed, fun hf => absurd hf (by rw [hfault]; decide)⟩
      · rw [at?_put_ne _ hi, h, Option.some.injEq] at h'
        subst h'
        exact ⟨id, fun _ _ => rfl, fun _ _ => rfl⟩

end ChannelTable

/-- A CLSE for the second of two channels. -/
theorem dispatch_frame_two_channels :
    letI := usize64
    let policy : RxPolicy := ConnectionConfig.embedded.rxPolicy .classic
    let t : ChannelTable := ⟨[some (.accepted ⟨⟨1⟩, ⟨7⟩⟩ 0 policy), some (.accepted ⟨⟨2⟩, ⟨8⟩⟩ 0 policy)], 3, policy⟩
    t.DistinctLocalIds ∧ ((t.dispatch ⟨.close, 8, 2, []⟩).2.at? 0).isSome = (t.at? 0).isSome := by
  let u := usize64
  have hdist : ChannelTable.DistinctLocalIds
      ⟨[some (.accepted ⟨⟨1⟩, ⟨7⟩⟩ 0 (ConnectionConfig.embedded.rxPolicy .classic)),
        some (.accepted ⟨⟨2⟩, ⟨8⟩⟩ 0 (ConnectionConfig.embedded.rxPolicy .classic))], 3,
        ConnectionConfig.embedded.rxPolicy .classic⟩ := by
    intro i j si sj hi hj hid
    have hi2 := ChannelTable.at?_lt hi
    have hj2 := ChannelTable.at?_lt hj
    simp only [List.length_cons, List.length_nil] at hi2 hj2
    interval_cases i <;> interval_cases j <;> first | rfl | (cases hi; cases hj; cases hid)
  exact ⟨hdist, (ChannelTable.dispatch_frame _ ⟨.close, 8, 2, []⟩ hdist).2.2.1 0⟩

end LibAdb
