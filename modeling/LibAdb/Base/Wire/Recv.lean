import LibAdb.Base.Codec
import LibAdb.Lib.Incremental

/-!
# LibAdb.Base.Wire.Recv — taking packets off the transport

`read_limit`, `Staged` and `recv_pkt_or` of `base/wire.rs`.  A call looks for a packet in the receive buffer, and as
long as there is none it pads the buffer with zeros, reads into the padding, and cuts the padding off again whenever
it leaves the inner loop, however it leaves it.

The transport holds the bytes it has not handed out yet (`rest`).  A read hands out a piece of any size, fails, or
is dropped with its call; a dropped read has taken nothing.  Each pass of the inner loop is a `Round`: at which poll
the interrupt is ready, at which poll the read is, and what the read gives.

`recv_refines_decoder`: the calls together give what `Packet::decode` finds in the whole stream.
-/

namespace LibAdb

open Incremental

/-! ## Staging -/

def minRead : ℕ := 4096

variable [Usize]

/-- `read_limit` -/
def readLimit (buf : Bytes) : ℕ := if buf.length < messageSize then minRead else Packet.missing buf

/-- The receive buffer while a read is under way: `keep` bytes of stream, then padding. -/
structure Staged where
  buf : Bytes
  keep : ℕ
  keep_le : keep ≤ buf.length

namespace Staged

/-- `Staged::new` -/
def new (buf : Bytes) : Staged where
  buf := buf ++ List.replicate (readLimit buf) 0
  keep := buf.length
  keep_le := by simp

variable (st : Staged)

def spare : Bytes := st.buf.drop st.keep

def committed : Bytes := st.buf.take st.keep

/-- The length of the slice a read gets. -/
def room : ℕ := min (readLimit st.committed) st.spare.length

/-- A read puts `data` at the front of the padding, and `commit` counts it. -/
def commit (data : Bytes) : Staged where
  buf := st.committed ++ data ++ st.spare.drop data.length
  keep := st.keep + data.length
  keep_le := by
    have := st.keep_le
    simp only [committed, List.length_append, List.length_take]
    omega

def wantsMore : Bool :=
  Packet.missing st.committed ≠ 0 && Packet.missing st.committed ≤ st.spare.length

/-- `Drop for Staged`: the padding goes. -/
def drop : Bytes := st.buf.take st.keep

end Staged

/-! ## One call -/

/-- What a read of the transport gives. -/
inductive Got where
  | ok (n : ℕ)
  | err (kind : ErrorKind)
  deriving DecidableEq, Repr

/-- One pass of the inner loop: the poll at which the interrupt is ready, and the poll at which the read is and what
it gives.  A round with neither is where the call is dropped. -/
structure Round where
  interrupt : Option ℕ
  read : Option (ℕ × Got)
  deriving DecidableEq, Repr

inductive Raced where
  | interrupted
  | got (g : Got)
  | dropped
  deriving DecidableEq, Repr

/-- Who comes first.  In a race the interrupt is polled before the read, every time; without one it is polled once,
before the read is begun. -/
def Round.raced (race : Bool) (r : Round) : Raced :=
  match race, r.interrupt, r.read with
  | true, some i, some (j, g) => if i ≤ j then .interrupted else .got g
  | true, some _, none => .interrupted
  | false, some 0, _ => .interrupted
  | _, _, some (_, g) => .got g
  | _, _, none => .dropped

/-- How a call of `recv_pkt_or` ends. -/
inductive Outcome where
  | packet (pkt : Packet)
  | interrupted
  | failed (e : Error)
  | dropped
  deriving DecidableEq, Repr

/-- The receive buffer and what the transport has not handed out. -/
structure Inbound where
  buf : Bytes
  rest : Bytes
  deriving DecidableEq, Repr

/-- The head of the outer loop: return what `decode` finds, or go on with `more`. -/
def decodeOr (maxPayload : UInt32) (buf rest : Bytes) (more : Bytes → Outcome × Inbound) : Outcome × Inbound :=
  match Packet.decode maxPayload buf with
  | (.ok (some pkt), buf) => (.packet pkt, ⟨buf, rest⟩)
  | (.error e, buf) => (.failed (.protocol e), ⟨buf, rest⟩)
  | (.ok none, buf) => more buf

/-- The inner loop, and the outer one when the inner one breaks. -/
def recvLoop (maxPayload : UInt32) (race : Bool) : List Round → Staged → Bytes → Outcome × Inbound
  | [], st, rest => (.dropped, ⟨st.drop, rest⟩)
  | r :: rounds, st, rest =>
    match r.raced race with
    | .interrupted => (.interrupted, ⟨st.drop, rest⟩)
    | .dropped => (.dropped, ⟨st.drop, rest⟩)
    | .got (.err kind) => (.failed (.io kind), ⟨st.drop, rest⟩)
    | .got (.ok n) =>
      let data := rest.take (min n st.room)
      if data = [] then (.failed .unexpectedEof, ⟨st.drop, rest⟩)
      else
        let st := st.commit data
        let rest := rest.drop data.length
        if st.wantsMore then recvLoop maxPayload race rounds st rest
        else decodeOr maxPayload st.drop rest fun buf => recvLoop maxPayload race rounds (.new buf) rest

/-- `recv_pkt_or` -/
def recvPktOr (maxPayload : UInt32) (race : Bool) (rounds : List Round) (c : Inbound) : Outcome × Inbound :=
  decodeOr maxPayload c.buf c.rest fun buf => recvLoop maxPayload race rounds (.new buf) c.rest

/-! ## What a call takes and returns -/

/-- What a decoder reports: a packet or a protocol error. -/
abbrev Item := Except ProtocolError Packet

/-- `decode` as the reference's step. -/
def nextItem (maxPayload : UInt32) (buf : Bytes) : Option (Item × Bytes) :=
  match Packet.decode maxPayload buf with
  | (.ok (some pkt), left) => some (.ok pkt, left)
  | (.error e, left) => some (.error e, left)
  | (.ok none, _) => none

def Outcome.item : Outcome → Option Item
  | .packet pkt => some (.ok pkt)
  | .failed (.protocol e) => some (.error e)
  | _ => none

omit [Usize] in
theorem nextItem_stable (maxPayload : UInt32) : Stable (nextItem maxPayload) := by
  intro buf rest i left h
  unfold nextItem at h ⊢
  split at h
  · rename_i pkt left' hd
    cases h
    rw [Packet.decode_append hd nofun rest]
  · rename_i e left' hd
    cases h
    rw [Packet.decode_append hd nofun rest]
  · cases h

omit [Usize] in
/-- Of the protocol errors only the checksum's consumes anything, and it consumes its packet. -/
theorem nextItem_error {maxPayload : UInt32} {buf left : Bytes} {e : ProtocolError}
    (h : nextItem maxPayload buf = some (.error e, left)) :
    (e ≠ .invalidChecksum ∧ left = buf) ∨
      (e = .invalidChecksum ∧ Packet.announced buf ≤ buf.length ∧ left = buf.drop (Packet.announced buf)) := by
  have hc := Packet.decode_cases maxPayload buf
  unfold nextItem at h
  split at h <;> cases h
  rename_i hd
  rw [hd] at hc
  cases hc with
  | bad _ he _ => exact Or.inl ⟨he, rfl⟩
  | checksum hle => exact Or.inr ⟨rfl, hle, rfl⟩

omit [Usize] in
theorem Outcome.eq_of_item_error {o : Outcome} {e : ProtocolError} (h : o.item = some (.error e)) :
    o = .failed (.protocol e) := by
  unfold Outcome.item at h
  split at h <;> cases h
  rfl

/-- A call takes `got` off the transport; what it returns is what `decode` finds in the buffer with `got` behind it,
and when it returns neither packet nor protocol error the buffer has all of it. -/
structure Takes (maxPayload : UInt32) (buf rest : Bytes) (r : Outcome × Inbound) (got : Bytes) : Prop where
  rest_eq : rest = got ++ r.2.rest
  found : ∀ i, r.1.item = some i → nextItem maxPayload (buf ++ got) = some (i, r.2.buf)
  kept : r.1.item = none → r.2.buf = buf ++ got

namespace Staged

@[simp] theorem committed_new (buf : Bytes) : (new buf).committed = buf := by
  simp [new, committed]

omit [Usize] in
@[simp] theorem committed_commit (st : Staged) (data : Bytes) :
    (st.commit data).committed = st.committed ++ data := by
  have hlen : (st.committed ++ data).length = st.keep + data.length := by
    have := st.keep_le
    simp only [committed, List.length_append, List.length_take]
    omega
  show (st.committed ++ data ++ _).take (st.keep + data.length) = _
  rw [← hlen, List.take_left']
  rfl

omit [Usize] in
@[simp] theorem drop_eq (st : Staged) : st.drop = st.committed := rfl

/-- A read that is begun after `decode` asked for more has room. -/
theorem room_new {maxPayload : UInt32} {buf left : Bytes}
    (h : Packet.decode maxPayload buf = (.ok none, left)) : 0 < (new left).room := by
  obtain ⟨rfl, hpos⟩ := Packet.missing_pos h
  have hspare : (new left).spare.length = readLimit left := by simp [new, spare]
  rw [room, hspare, committed_new, min_self, readLimit]
  split_ifs
  · exact Nat.zero_lt_succ _
  · exact hpos

/-- So has one that `wants_more` asked for. -/
theorem room_of_wantsMore {st : Staged} (h : st.wantsMore = true) : 0 < st.room := by
  simp only [wantsMore, Bool.and_eq_true, decide_eq_true_eq, ne_eq] at h
  rw [room, readLimit]
  split_ifs
  · exact lt_min (Nat.zero_lt_succ _) (by omega)
  · exact lt_min (by omega) (by omega)

end Staged

section Calls

variable {maxPayload : UInt32} {race : Bool}

omit [Usize] in
/-- The head of the outer loop keeps `Takes`. -/
theorem decodeOr_takes {buf rest : Bytes} {more : Bytes → Outcome × Inbound}
    (hmore : ∀ left, Packet.decode maxPayload buf = (.ok none, left) → left = buf →
      ∃ got, Takes maxPayload buf rest (more left) got) :
    ∃ got, Takes maxPayload buf rest (decodeOr maxPayload buf rest more) got := by
  unfold decodeOr
  split
  · rename_i pkt left hd
    refine ⟨[], rfl, fun i hi => ?_, nofun⟩
    cases hi
    rw [List.append_nil, nextItem, hd]
  · rename_i e left hd
    refine ⟨[], rfl, fun i hi => ?_, nofun⟩
    cases hi
    rw [List.append_nil, nextItem, hd]
  · rename_i left hd
    have hc := Packet.decode_cases maxPayload buf
    rw [hd] at hc
    cases hc <;> exact hmore _ hd rfl

omit [Usize] in
/-- A call that returns without an answer leaves the buffer as it stands. -/
theorem Takes.leave {o : Outcome} {buf rest : Bytes} (ho : o.item = none) :
    ∃ got, Takes maxPayload buf rest (o, ⟨buf, rest⟩) got :=
  ⟨[], rfl, fun _ hi => absurd (ho.symm.trans hi) nofun, fun _ => (List.append_nil _).symm⟩

theorem recvLoop_takes (rounds : List Round) (st : Staged) (rest : Bytes) :
    ∃ got, Takes maxPayload st.committed rest (recvLoop maxPayload race rounds st rest) got := by
  induction rounds generalizing st rest with
  | nil => exact Takes.leave rfl
  | cons r rounds ih =>
    unfold recvLoop
    split
    · exact Takes.leave rfl
    · exact Takes.leave rfl
    · exact Takes.leave rfl
    · rename_i n _
      dsimp only
      set data := rest.take (min n st.room) with hdata
      -- what the read took goes in front of what the rest of the call takes
      have front : ∀ r, (∃ got, Takes maxPayload (st.committed ++ data) (rest.drop data.length) r got) →
          ∃ got, Takes maxPayload st.committed rest r got := by
        rintro r ⟨got, hrest, hfound, hkept⟩
        rw [List.append_assoc] at hfound hkept
        refine ⟨data ++ got, ?_, hfound, hkept⟩
        rw [List.append_assoc, ← hrest]
        exact (List.prefix_iff_eq_append.mp (List.take_prefix _ _)).symm
      split_ifs
      · exact Takes.leave rfl
      · apply front
        simpa using ih (st.commit data) (rest.drop data.length)
      · apply front
        rw [Staged.drop_eq, Staged.committed_commit]
        apply decodeOr_takes
        rintro left - rfl
        simpa using ih (.new _) (rest.drop data.length)

/-- **One call**, whatever the rounds. -/
theorem recvPktOr_takes (rounds : List Round) (c : Inbound) :
    ∃ got, Takes maxPayload c.buf c.rest (recvPktOr maxPayload race rounds c) got := by
  apply decodeOr_takes
  rintro left - rfl
  simpa using recvLoop_takes rounds (.new c.buf) c.rest

/-- An answer that is in the buffer already is returned at once. -/
theorem recvPktOr_of_nextItem {c : Inbound} {i : Item} {left : Bytes}
    (h : nextItem maxPayload c.buf = some (i, left)) (rounds : List Round) :
    (recvPktOr maxPayload race rounds c).1.item = some i ∧
      (recvPktOr maxPayload race rounds c).2 = ⟨left, c.rest⟩ := by
  unfold nextItem at h
  unfold recvPktOr decodeOr
  split at h <;> cases h <;> exact ⟨rfl, rfl⟩

/-- A round in which a read completes and hands out at least a byte if there is one. -/
def Round.Delivers (race : Bool) (r : Round) : Prop := ∃ n, 0 < n ∧ r.raced race = .got (.ok n)

/-- Nothing cut the call short: it returned an answer, or it met the end of the stream. -/
def Finished (r : Outcome × Inbound) : Prop :=
  (∃ i, r.1.item = some i) ∨ (r.1 = .failed .unexpectedEof ∧ r.2.rest = [])

omit [Usize] in
theorem decodeOr_finished {buf rest : Bytes} {more : Bytes → Outcome × Inbound}
    (hmore : ∀ left, Packet.decode maxPayload buf = (.ok none, left) → Finished (more left)) :
    Finished (decodeOr maxPayload buf rest more) := by
  unfold decodeOr
  split
  · exact Or.inl ⟨_, rfl⟩
  · exact Or.inl ⟨_, rfl⟩
  · rename_i left hd
    exact hmore left hd

theorem recvLoop_finished {rounds : List Round} {st : Staged} {rest : Bytes} (hroom : 0 < st.room)
    (hrounds : ∀ r ∈ rounds, r.Delivers race) (hlen : rest.length < rounds.length) :
    Finished (recvLoop maxPayload race rounds st rest) := by
  -- every round takes a byte or ends the call, so the rounds outlast the bytes
  induction rounds generalizing st rest with
  | nil => exact absurd hlen (Nat.not_lt_zero _)
  | cons r rounds ih =>
    obtain ⟨n, hn, hr⟩ := hrounds r List.mem_cons_self
    simp only [recvLoop, hr]
    split_ifs with hdata hmore
    · refine Or.inr ⟨rfl, ?_⟩
      rw [List.take_eq_nil_iff] at hdata
      exact hdata.resolve_left (by omega)
    all_goals
      have hpos : 0 < (rest.take (min n st.room)).length := List.length_pos_of_ne_nil hdata
      have hle : (rest.take (min n st.room)).length ≤ rest.length := List.length_take_le' _ _
      have hshort : (rest.drop (rest.take (min n st.room)).length).length < rounds.length := by
        rw [List.length_drop]
        rw [List.length_cons] at hlen
        omega
      have hrounds' : ∀ r ∈ rounds, r.Delivers race := fun r hr => hrounds r (List.mem_cons_of_mem _ hr)
    · exact ih (Staged.room_of_wantsMore hmore) hrounds' hshort
    · exact decodeOr_finished fun left hd => ih (Staged.room_new hd) hrounds' hshort

theorem recvPktOr_finished {rounds : List Round} {c : Inbound} (hrounds : ∀ r ∈ rounds, r.Delivers race)
    (hlen : c.rest.length < rounds.length) : Finished (recvPktOr maxPayload race rounds c) :=
  decodeOr_finished fun _ hd => recvLoop_finished (Staged.room_new hd) hrounds hlen

/-! ### A header that is refused -/

omit [Usize] in
/-- A header that is refused on its own is refused with anything behind it. -/
theorem decode_of_header {buf left : Bytes} {e : ProtocolError}
    (hbad : Packet.decode maxPayload (buf.take messageSize) = (.error e, left)) :
    ∃ left', Packet.decode maxPayload buf = (.error e, left') := by
  have h := Packet.decode_append hbad (by simp) (buf.drop messageSize)
  rw [List.take_append_drop] at h
  exact ⟨_, h⟩

/-- With less than a header there, the inner loop goes on: there is padding for the rest of it. -/
theorem Staged.wantsMore_of_short {st : Staged} (hshort : st.committed.length < messageSize)
    (hroom : messageSize ≤ st.buf.length) : st.wantsMore = true := by
  have hlen : st.committed.length = st.keep := by
    rw [committed, List.length_take, min_eq_left st.keep_le]
  have hspare : st.spare.length = st.buf.length - st.keep := by rw [spare, List.length_drop]
  simp only [wantsMore, Packet.missing, if_pos hshort, Bool.and_eq_true, decide_eq_true_eq]
  omega

/-- With the header there, the inner loop goes on if the packet is not all there and fits the padding. -/
theorem Staged.wantsMore_iff {st : Staged} (hlong : messageSize ≤ st.committed.length) :
    st.wantsMore = true ↔ st.committed.length < Packet.announced st.committed % 2 ^ Usize.bits ∧
      Packet.announced st.committed % 2 ^ Usize.bits ≤ st.buf.length := by
  have hlen : st.committed.length = st.keep := by
    rw [committed, List.length_take, min_eq_left st.keep_le]
  have hspare : st.spare.length = st.buf.length - st.keep := by rw [spare, List.length_drop]
  have hkeep := st.keep_le
  simp only [wantsMore, Packet.missing, if_neg (not_lt.mpr hlong), Bool.and_eq_true, decide_eq_true_eq]
  omega

omit [Usize] in
theorem Staged.length_commit {st : Staged} {data : Bytes} (h : data.length ≤ st.spare.length) :
    (st.commit data).buf.length = st.buf.length := by
  have hkeep := st.keep_le
  rw [spare, List.length_drop] at h
  simp only [commit, committed, spare, List.length_append, List.length_take, List.length_drop]
  omega

/-- How many bytes a call that began with `buf` and `rest` has had, its buffer included. -/
def received (buf rest : Bytes) (r : Outcome × Inbound) : ℕ := buf.length + (rest.length - r.2.rest.length)

/-- A call that returns `e`, and takes no further round. -/
def Refuses (call : List Round → Outcome × Inbound) (e : ProtocolError) (rounds : List Round) : Prop :=
  (call rounds).1 = .failed (.protocol e) ∧ ∀ more, call (rounds ++ more) = call rounds

/-- The last of these rounds, and none before it, brings in the end of the header. -/
structure Completes (buf rest : Bytes) (call : List Round → Outcome × Inbound) (rounds : List Round) : Prop where
  whole : messageSize ≤ received buf rest (call rounds)
  last : ∀ k < rounds.length, received buf rest (call (rounds.take k)) < messageSize

/-- One round of the inner loop: it ends the call and takes nothing, or it stages some bytes. -/
theorem recvLoop_round (r : Round) (st : Staged) (rest : Bytes) :
    (∃ o, ∀ rounds, recvLoop maxPayload race (r :: rounds) st rest = (o, ⟨st.drop, rest⟩)) ∨
      ∃ data, data <+: rest ∧ data.length ≤ st.spare.length ∧ ∀ rounds,
        recvLoop maxPayload race (r :: rounds) st rest =
          if (st.commit data).wantsMore then recvLoop maxPayload race rounds (st.commit data) (rest.drop data.length)
          else decodeOr maxPayload (st.commit data).drop (rest.drop data.length) fun buf =>
            recvLoop maxPayload race rounds (.new buf) (rest.drop data.length) := by
  cases hr : r.raced race with
  | interrupted => exact .inl ⟨.interrupted, fun rounds => by simp only [recvLoop, hr]⟩
  | dropped => exact .inl ⟨.dropped, fun rounds => by simp only [recvLoop, hr]⟩
  | got g =>
    cases g with
    | err kind => exact .inl ⟨.failed (.io kind), fun rounds => by simp only [recvLoop, hr]⟩
    | ok n =>
      by_cases hnil : rest.take (min n st.room) = []
      · exact .inl ⟨.failed .unexpectedEof, fun rounds => by simp only [recvLoop, hr, if_pos hnil]⟩
      · refine .inr ⟨rest.take (min n st.room), List.take_prefix _ _, ?_, fun rounds => ?_⟩
        · have h1 : (rest.take (min n st.room)).length ≤ min n st.room := List.length_take_le _ _
          have h2 : st.room ≤ st.spare.length := min_le_right _ _
          omega
        · simp only [recvLoop, hr, if_neg hnil]

omit [Usize] in
/-- Bytes staged on the way do not change what has been received. -/
theorem received_commit {st : Staged} {data rest : Bytes} (hdata : data <+: rest) {out : Outcome × Inbound}
    (hle : out.2.rest.length ≤ (rest.drop data.length).length) :
    received st.committed rest out = received (st.commit data).committed (rest.drop data.length) out := by
  have hsplit := congrArg List.length (List.prefix_iff_eq_append.mp hdata)
  rw [List.length_append] at hsplit
  simp only [received, Staged.committed_commit, List.length_append]
  omega

/-- The inner loop on a bad header of which not all is there yet: when the header is complete it ends, or else it waits
for a packet that fits the padding. -/
theorem recvLoop_completes {rounds : List Round} {st : Staged} {rest left : Bytes} {e : ProtocolError}
    (hshort : st.committed.length < messageSize) (hroom : messageSize ≤ st.buf.length)
    (hbad : Packet.decode maxPayload ((st.committed ++ rest).take messageSize) = (.error e, left))
    (hdone : Completes st.committed rest (fun rounds => recvLoop maxPayload race rounds st rest) rounds) :
    if Packet.announced (st.committed ++ rest) % 2 ^ Usize.bits ≤
          received st.committed rest (recvLoop maxPayload race rounds st rest) ∨
        st.buf.length < Packet.announced (st.committed ++ rest) % 2 ^ Usize.bits
    then Refuses (fun rounds => recvLoop maxPayload race rounds st rest) e rounds
    else (recvLoop maxPayload race rounds st rest).1 = .dropped := by
  induction rounds generalizing st rest with
  | nil =>
    have := hdone.whole
    simp only [received, recvLoop, Nat.sub_self] at this
    omega
  | cons r rounds ih =>
    obtain ⟨o, hend⟩ | ⟨data, hdata, hfit, hround⟩ := @recvLoop_round _ maxPayload race r st rest
    · -- a round that takes nothing does not complete the header
      have := hdone.whole
      simp only [received, hend, Nat.sub_self] at this
      omega
    have hwhole : (st.commit data).committed ++ rest.drop data.length = st.committed ++ rest := by
      rw [Staged.committed_commit, List.append_assoc, List.prefix_iff_eq_append.mp hdata]
    have hlen : (st.commit data).buf.length = st.buf.length := Staged.length_commit hfit
    by_cases hstill : (st.commit data).committed.length < messageSize
    · have hgoes : ∀ rounds, recvLoop maxPayload race (r :: rounds) st rest =
          recvLoop maxPayload race rounds (st.commit data) (rest.drop data.length) := fun rounds => by
        rw [hround, if_pos (Staged.wantsMore_of_short hstill (hlen.symm ▸ hroom))]
      have hsame : ∀ rounds, received st.committed rest (recvLoop maxPayload race (r :: rounds) st rest) =
          received (st.commit data).committed (rest.drop data.length)
            (recvLoop maxPayload race rounds (st.commit data) (rest.drop data.length)) := by
        intro rounds
        rw [hgoes]
        obtain ⟨got, hgot, -⟩ := @recvLoop_takes _ maxPayload race rounds (st.commit data) (rest.drop data.length)
        refine received_commit hdata ?_
        have := congrArg List.length hgot
        rw [List.length_append] at this
        omega
      have hdone' : Completes (st.commit data).committed (rest.drop data.length)
          (fun rounds => recvLoop maxPayload race rounds (st.commit data) (rest.drop data.length)) rounds :=
        ⟨hsame rounds ▸ hdone.whole, fun k hk => by
          have := hdone.last (k + 1) (by simpa using hk)
          rwa [List.take_succ_cons, hsame] at this⟩
      have := ih hstill (hlen.symm ▸ hroom) (hwhole.symm ▸ hbad) hdone'
      rw [hwhole, hlen, ← hsame, hgoes] at this
      simp only [Refuses, List.cons_append, hgoes]
      exact this
    · -- this round completed the header
      have hlong := not_lt.mp hstill
      have hann : Packet.announced (st.commit data).committed = Packet.announced (st.committed ++ rest) := by
        rw [← hwhole, Packet.announced_append _ hlong]
      rw [← hwhole, List.take_append_of_le_length hlong] at hbad
      obtain ⟨left', hd⟩ := decode_of_header hbad
      have hafter : ∀ rounds, recvLoop maxPayload race (r :: rounds) st rest =
          if (st.commit data).wantsMore then recvLoop maxPayload race rounds (st.commit data) (rest.drop data.length)
          else (.failed (.protocol e), ⟨left', rest.drop data.length⟩) := by
        intro rounds
        rw [hround]
        simp only [decodeOr, Staged.drop_eq, hd]
      have hhad : received st.committed rest (recvLoop maxPayload race [r] st rest) =
          (st.commit data).committed.length := by
        rw [hafter]
        split_ifs
        · exact (received_commit hdata le_rfl).trans (by simp [recvLoop, received])
        · exact (received_commit hdata le_rfl).trans (by simp [received])
      obtain rfl : rounds = [] := by
        by_contra hrounds
        have := hdone.last 1 (by simpa [List.length_pos_iff] using hrounds)
        rw [List.take_succ_cons, List.take_zero, hhad] at this
        omega
      rw [hhad, ← hann, ← hlen]
      have hwants := Staged.wantsMore_iff hlong
      split_ifs with hfit
      · have hends : ¬ (st.commit data).wantsMore = true := by
          rw [hwants]
          omega
        simp only [Refuses, List.singleton_append, hafter, if_neg hends, implies_true, and_self]
      · have hwaits : (st.commit data).wantsMore = true := hwants.mpr (by omega)
        rw [hafter, if_pos hwaits]
        rfl

/-- **When a bad header is refused at once**: a call that comes to have all of it returns the error and makes no further
read, exactly when the header was in the buffer before, or the announced packet is all there by then, or it does not
fit the padding of the read.  Otherwise the call goes on waiting for the payload. -/
theorem bad_header_refused_iff (maxPayload : UInt32) (race : Bool) (rounds : List Round) (c : Inbound)
    (left : Bytes) (e : ProtocolError)
    (hbad : Packet.decode maxPayload ((c.buf ++ c.rest).take messageSize) = (.error e, left))
    (hdone : Completes c.buf c.rest (fun rounds => recvPktOr maxPayload race rounds c) rounds) :
    Refuses (fun rounds => recvPktOr maxPayload race rounds c) e rounds ↔
      messageSize ≤ c.buf.length ∨
      Packet.announced (c.buf ++ c.rest) % 2 ^ Usize.bits ≤
        received c.buf c.rest (recvPktOr maxPayload race rounds c) ∨
      c.buf.length + minRead < Packet.announced (c.buf ++ c.rest) % 2 ^ Usize.bits := by
  by_cases hshort : c.buf.length < messageSize
  · have hnone : Packet.decode maxPayload c.buf = (.ok none, c.buf) := if_pos hshort
    have hlen : (Staged.new c.buf).buf.length = c.buf.length + minRead := by
      simp [Staged.new, readLimit, hshort]
    have hcall : ∀ rounds, recvPktOr maxPayload race rounds c =
        recvLoop maxPayload race rounds (.new c.buf) c.rest := fun rounds => by
      simp only [recvPktOr, decodeOr, hnone]
    have hroom : messageSize ≤ (Staged.new c.buf).buf.length := by
      rw [hlen]
      exact le_trans (by decide : messageSize ≤ minRead) (Nat.le_add_left _ _)
    rw [funext hcall] at hdone ⊢
    rw [hcall, or_iff_right (not_le.mpr hshort), ← hlen]
    have h := @recvLoop_completes _ maxPayload race rounds (.new c.buf) c.rest left e
      (by rwa [Staged.committed_new]) hroom (by rwa [Staged.committed_new]) (by rwa [Staged.committed_new])
    rw [Staged.committed_new] at h
    split_ifs at h with hfit
    · exact iff_of_true h hfit
    · refine iff_of_false (fun hrefused => ?_) hfit
      have := h.symm.trans hrefused.1
      cases this
  · rw [List.take_append_of_le_length (not_lt.mp hshort)] at hbad
    obtain ⟨left', hd⟩ := decode_of_header hbad
    refine iff_of_true ⟨?_, fun more => ?_⟩ (Or.inl (not_lt.mp hshort))
    · simp only [recvPktOr, decodeOr, hd]
    · simp only [recvPktOr, decodeOr, hd]

/-- A header of no packet, with a wrong magic and a payload announced. -/
def badHeader (dataLength : UInt32) : Bytes :=
  Message.bytes ⟨Command.toU32 .write, 1, 2, dataLength, 0, 0⟩

omit [Usize] in
set_option maxRecDepth 20000 in
/-- The header comes in two pieces and announces more than the padding holds. -/
theorem bad_header_refused_oversized :
    (@recvPktOr usize64 4096 true [⟨none, some (0, .ok 10)⟩, ⟨none, some (0, .ok 14)⟩] ⟨[], badHeader 5000⟩).1 =
      .failed (.protocol .invalidMagic) :=
  ((@bad_header_refused_iff usize64 4096 true [⟨none, some (0, .ok 10)⟩, ⟨none, some (0, .ok 14)⟩]
    ⟨[], badHeader 5000⟩ (badHeader 5000) .invalidMagic (by rfl) ⟨by decide +kernel, by decide +kernel⟩).mpr
    (by decide +kernel)).1

omit [Usize] in
set_option maxRecDepth 20000 in
/-- All of a bad header has been received, and the call waits for the payload it announces. -/
theorem bad_header_waited_on :
    Packet.decode 4096 (badHeader 100) = (.error .invalidMagic, badHeader 100) ∧
      @recvPktOr usize64 4096 true [⟨none, some (0, .ok 24)⟩] ⟨[], badHeader 100⟩ =
        (.dropped, ⟨badHeader 100, []⟩) := by
  exact ⟨by rfl, by rfl⟩

end Calls

/-! ## A session of calls -/

/-- One call: whether it races its read, and its rounds. -/
structure Call where
  race : Bool
  rounds : List Round
  deriving DecidableEq, Repr

/-- A connection's receive side, with everything its calls reported. -/
structure Session where
  inbound : Inbound
  items : List Item

namespace Session

def recv (maxPayload : UInt32) (s : Session) (call : Call) : Outcome × Session :=
  let (o, inbound) := recvPktOr maxPayload call.race call.rounds s.inbound
  (o, ⟨inbound, s.items ++ o.item.toList⟩)

/-- The session after `calls`, on a transport that holds `stream`. -/
def run (maxPayload : UInt32) (stream : Bytes) (calls : List Call) : Session :=
  calls.foldl (fun s call => (s.recv maxPayload call).2) ⟨⟨[], stream⟩, []⟩

/-- What has not been decoded: the buffer, and behind it what is still in the transport. -/
def undecoded (s : Session) : Bytes := s.inbound.buf ++ s.inbound.rest

/-- The items are the reference's, and the buffer is what was received behind the last of them. -/
structure Agrees (maxPayload : UInt32) (stream : Bytes) (s : Session) : Prop where
  reference : decodeN (nextItem maxPayload) s.items.length stream = (s.items, s.undecoded)
  buffered : ∃ decoded, stream = decoded ++ s.undecoded

variable {maxPayload : UInt32} {stream : Bytes}

omit [Usize] in
/-- What the reference's step leaves is a suffix of what it looked at. -/
theorem nextItem_suffix {buf left : Bytes} {i : Item} (h : nextItem maxPayload buf = some (i, left)) :
    ∃ front, buf = front ++ left := by
  obtain ⟨front, hfront⟩ := Packet.decode_suffix maxPayload buf
  unfold nextItem at h
  split at h <;> cases h
  all_goals
    rename_i hd
    rw [hd] at hfront
    exact ⟨front, hfront⟩

/-- One call keeps the session in step with the reference. -/
theorem Agrees.recv {s : Session} (h : s.Agrees maxPayload stream) (call : Call) :
    (s.recv maxPayload call).2.Agrees maxPayload stream := by
  obtain ⟨got, hrest, hfound, hkept⟩ := @recvPktOr_takes _ maxPayload call.race call.rounds s.inbound
  obtain ⟨href, decoded, hdec⟩ := h
  unfold Session.recv
  set r := recvPktOr maxPayload call.race call.rounds s.inbound
  have hall : s.undecoded = s.inbound.buf ++ got ++ r.2.rest := by
    rw [undecoded, hrest, List.append_assoc]
  rw [hall] at href hdec
  cases ho : r.1.item with
  | none =>
    have hbuf := hkept ho
    refine ⟨?_, decoded, ?_⟩
    · simpa [undecoded, ho, hbuf] using href
    · simpa [undecoded, hbuf] using hdec
  | some i =>
    have hnext := hfound i ho
    obtain ⟨front, hfront⟩ := nextItem_suffix hnext
    refine ⟨?_, decoded ++ front, ?_⟩
    · simpa [undecoded, ho] using (nextItem_stable maxPayload).snoc href hnext
    · rw [hdec, hfront]
      simp [undecoded]

theorem run_agrees (calls : List Call) : (run maxPayload stream calls).Agrees maxPayload stream := by
  unfold run
  refine List.foldlRecOn calls _ ⟨rfl, [], rfl⟩ ?_
  intro s h call _
  exact h.recv call

end Session

/-- **Reception refines the reference decoder.**  After any calls, the packets and protocol errors they returned are
those of the stream decoded as a whole, and the buffer holds what was received and not decoded.  Of any further
call: a wrong checksum costs its own packet; a bad command, magic or length costs nothing and is what every call
after it returns; and a call that is not cut short returns the reference's next item, or meets the end of the
stream, after which every call returns that item if there is one. -/
theorem recv_refines_decoder (maxPayload : UInt32) (stream : Bytes) (calls : List Call) (call : Call)
    (s s' : Session) (o : Outcome) (hs : Session.run maxPayload stream calls = s)
    (hcall : s.recv maxPayload call = (o, s')) :
    s.Agrees maxPayload stream ∧
    (o = .failed (.protocol .invalidChecksum) →
      ∃ frame, s.undecoded = frame ++ s'.undecoded ∧ frame.length = Packet.announced s.undecoded) ∧
    (∀ e, e ≠ .invalidChecksum → o = .failed (.protocol e) →
      s'.undecoded = s.undecoded ∧
        ∀ again, (s'.recv maxPayload again).1 = o ∧ (s'.recv maxPayload again).2.inbound = s'.inbound) ∧
    ((∀ r ∈ call.rounds, r.Delivers call.race) → s.inbound.rest.length < call.rounds.length →
      (∃ i, o.item = some i) ∨
        (o = .failed .unexpectedEof ∧ s'.inbound.rest = [] ∧
          ∀ i left again, nextItem maxPayload s'.inbound.buf = some (i, left) →
            (s'.recv maxPayload again).1.item = some i)) := by
  have hrecv : recvPktOr maxPayload call.race call.rounds s.inbound = (o, s'.inbound) := by
    cases hcall
    rfl
  obtain ⟨got, hrest, hfound, -⟩ := @recvPktOr_takes _ maxPayload call.race call.rounds s.inbound
  rw [hrecv] at hrest hfound
  have hall : s.undecoded = s.inbound.buf ++ got ++ s'.inbound.rest := by
    rw [Session.undecoded, hrest, List.append_assoc]
  refine ⟨hs ▸ Session.run_agrees calls, fun ho => ?_, fun e he ho => ?_, fun hrounds hlen => ?_⟩
  · obtain ⟨hne, -⟩ | ⟨-, hle, hleft⟩ := nextItem_error (hfound (.error .invalidChecksum) (by rw [ho]; rfl))
    · exact absurd rfl hne
    · have hlong : messageSize ≤ (s.inbound.buf ++ got).length := le_trans (Nat.le_add_right _ _) hle
      refine ⟨(s.inbound.buf ++ got).take (Packet.announced (s.inbound.buf ++ got)), ?_, ?_⟩
      · rw [hall, Session.undecoded, hleft, ← List.append_assoc, List.take_append_drop]
      · rw [hall, Packet.announced_append _ hlong, List.length_take, min_eq_left hle]
  · have hnext := hfound (.error e) (by rw [ho]; rfl)
    obtain ⟨-, hleft⟩ | ⟨rfl, -⟩ := nextItem_error hnext
    · refine ⟨by rw [hall, Session.undecoded, hleft], fun again => ?_⟩
      rw [← hleft] at hnext
      obtain ⟨hitem, hin⟩ := @recvPktOr_of_nextItem _ maxPayload again.race _ _ _ hnext again.rounds
      exact ⟨(Outcome.eq_of_item_error hitem).trans ho.symm, hin⟩
    · exact absurd rfl he
  · have hfin := @recvPktOr_finished _ maxPayload _ _ _ hrounds hlen
    rw [hrecv] at hfin
    rcases hfin with hitem | ⟨ho, hempty⟩
    · exact Or.inl hitem
    · refine Or.inr ⟨ho, hempty, fun i left again hnext => ?_⟩
      exact (recvPktOr_of_nextItem hnext again.rounds).1

/-- A WRTE with a checksum that is not its payload's, and behind it a header of zeros. -/
def spoiltStream : Bytes :=
  Message.bytes ⟨Command.toU32 .write, 1, 2, 1, 5, Command.magic .write⟩ ++ [9] ++ List.replicate 24 0

/-- A call that is interrupted after ten bytes. -/
def tenBytes : Call := ⟨true, [⟨none, some (0, .ok 10)⟩, ⟨some 0, none⟩]⟩

/-- A call that reads all there is. -/
def allBytes : Call := ⟨false, [⟨none, some (0, .ok 4096)⟩]⟩

omit [Usize] in
set_option maxRecDepth 20000 in
/-- The first call leaves ten bytes, the second drops the spoilt packet and nothing else. -/
theorem recv_refines_decoder_spoilt :
    ∃ s s' frame, @Session.run usize64 4096 spoiltStream [tenBytes] = s ∧
      @Session.recv usize64 4096 s allBytes = (.failed (.protocol .invalidChecksum), s') ∧
      s.inbound.buf.length = 10 ∧ s.undecoded = frame ++ s'.undecoded ∧
      frame.length = Packet.announced s.undecoded := by
  obtain ⟨frame, hframe, hlen⟩ :=
    (@recv_refines_decoder usize64 4096 spoiltStream [tenBytes] allBytes _ _ _ rfl rfl).2.1 rfl
  exact ⟨_, _, frame, rfl, rfl, rfl, hframe, hlen⟩

end LibAdb
