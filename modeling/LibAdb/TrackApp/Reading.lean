import Mathlib.Data.List.ReduceOption
import LibAdb.TrackApp.Snapshot
import LibAdb.Sync.RecvBuf

/-!
# LibAdb.TrackApp.Reading — one frame for each call

`TrackApp::read_snapshot` over the buffer and the channel of `Sync.RecvBuf`.  A call may be dropped while it waits, so a
piece of a call (`Call`) is told how many reads it lives to see.  `Call.Runs` says what it comes to: its answer, or
nothing, and then nothing was consumed.

`Frame` is a message on the wire, and `Ending` what the stream cannot go past: a frame that the buffer does not hold, a
prefix that is no number, or the end of the channel.
-/

namespace LibAdb.TrackApp

open Protobuf SyncM

/-- A piece of a call, told how many reads it lives to see; `none` is a call dropped at the next wait. -/
def Call (α : Type) : Type := ℕ → SyncSession → Option (Except Error α) × ℕ × SyncSession

namespace Call

variable {α β : Type}

instance : Monad Call where
  pure a := fun reads s => (some (.ok a), reads, s)
  bind m f := fun reads s =>
    match m reads s with
    | (some (.ok a), reads, s) => f a reads s
    | (some (.error e), reads, s) => (some (.error e), reads, s)
    | (none, reads, s) => (none, reads, s)

theorem bind_apply (m : Call α) (f : α → Call β) (reads : ℕ) (s : SyncSession) :
    (m >>= f) reads s = match m reads s with
      | (some (.ok a), reads, s) => f a reads s
      | (some (.error e), reads, s) => (some (.error e), reads, s)
      | (none, reads, s) => (none, reads, s) := rfl

/-- Code that waits for nothing. -/
def now (m : SyncM α) : Call α := fun reads s => (some (m s).1, reads, (m s).2)

/-- The test of the loop of `fill_at_least`, and the room it makes for a read. -/
def room (n : ℕ) (s : SyncSession) : Option (Except Error Unit) × SyncSession :=
  if n ≤ s.rx.tail - s.rx.head then (some (.ok ()), s)
  else
    let s := if s.rx.capacity ≤ s.rx.tail then { s with rx := s.rx.compact } else s
    if s.rx.capacity ≤ s.rx.tail then (some (.error .receiveBufferFull), s) else (none, s)

/-- The loop of `fill_at_least`. -/
def fillLoop (n : ℕ) : Call Unit
  | 0, s => ((room n s).1, 0, (room n s).2)
  | reads + 1, s =>
    match room n s with
    | (some r, s) => (some r, reads + 1, s)
    | (none, s) =>
      if s.stream = [] then (some (.error .channelClosed), reads + 1, s) else fillLoop n reads (channelRead s)

/-- `RecvBuf::fill_at_least` -/
def fillAtLeast (n : ℕ) : Call Unit := fun reads s =>
  if s.rx.capacity < n then (some (.error .receiveBufferFull), reads, s) else fillLoop n reads s

end Call

section Calls

variable [Usize]

/-- What a payload decodes to, which is never a panic. -/
def decoded (payload : Bytes) : Except DecodeError (List ProcessEntry) :=
  (decodeAppProcesses payload).get (decodeAppProcesses_safe payload)

/-- A result is returned. -/
def answer {α : Type} (r : Except Error α) : SyncM α := fun s => (r, s)

/-- The second half of `read_snapshot`, with the length known. -/
def readPayload (payloadLen : UInt32) : Call (List ProcessEntry) := do
  let frameLen := 4 + payloadLen.toNat
  Call.fillAtLeast frameLen
  let frame ← Call.now (peek frameLen)
  Call.now do
    let entries := decoded (frame.drop 4)
    advance frameLen
    answer (entries.mapError .decode)

/-- `TrackApp::read_snapshot` -/
def readSnapshot : Call (List ProcessEntry) := do
  Call.fillAtLeast 4
  let digits ← Call.now (peek 4)
  let payloadLen ← Call.now ((parseHex4 digits).elim (fail (.decode .invalidLengthPrefix)) pure)
  readPayload payloadLen

/-- Calls one after the other, each with the reads it lives to see. -/
def calls : List ℕ → SyncSession → List (Option (Except Error (List ProcessEntry))) × SyncSession
  | [], s => ([], s)
  | reads :: rest, s =>
    let (answer, _, s) := readSnapshot reads s
    let (answers, s) := calls rest s
    (answer :: answers, s)

end Calls

/-! ## The wire -/

/-- A message on the wire: four digits and the payload. -/
structure Frame where
  digits : Bytes
  payload : Bytes
  deriving DecidableEq, Repr

def Frame.bytes (f : Frame) : Bytes := f.digits ++ f.payload

/-- The digits give the length, and a buffer of `cap` bytes holds the frame. -/
structure Frame.Fits (f : Frame) (cap : ℕ) : Prop where
  four : f.digits.length = 4
  length : hexNumber f.digits = some f.payload.length
  fits : 4 + f.payload.length ≤ cap

/-- What a call that reads the frame answers. -/
def Frame.answer [Usize] (f : Frame) : Except Error (List ProcessEntry) := (decoded f.payload).mapError .decode

/-- What no call gets past, with a buffer of `cap` bytes. -/
inductive Ending (cap : ℕ) : Bytes → Error → Prop
  /-- Not even the digits fit. -/
  | small {bytes : Bytes} (h : cap < 4) : Ending cap bytes .receiveBufferFull
  | tooLong {digits rest : Bytes} {len : ℕ} (four : digits.length = 4) (length : hexNumber digits = some len)
      (h : cap < 4 + len) : Ending cap (digits ++ rest) .receiveBufferFull
  | notHex {digits rest : Bytes} (hcap : 4 ≤ cap) (four : digits.length = 4) (h : hexNumber digits = none) :
      Ending cap (digits ++ rest) (.decode .invalidLengthPrefix)
  /-- The channel closes in front of the digits or among them. -/
  | closed {bytes : Bytes} (hcap : 4 ≤ cap) (h : bytes.length < 4) : Ending cap bytes .channelClosed
  /-- The channel closes in the payload. -/
  | cutShort {digits rest : Bytes} {len : ℕ} (four : digits.length = 4) (length : hexNumber digits = some len)
      (hcap : 4 + len ≤ cap) (h : rest.length < len) : Ending cap (digits ++ rest) .channelClosed

/-! ## What a call comes to -/

/-- The reads there are: each uses up a cut or delivers a byte. -/
def readsLeft (s : SyncSession) : ℕ := s.cuts.length + s.stream.length

namespace Call

variable {α β : Type} {cap k k' k'' n : ℕ} {p p' p'' : Bytes}

/-- From any state that sees `p`, the code ends with `r` in one that sees `p'`, or is dropped in one that still sees
`p`, which needs as few reads as the channel has left. -/
def Runs (m : Call α) (cap k : ℕ) (p : Bytes) (r : Except Error α) (k' : ℕ) (p' : Bytes) : Prop :=
  ∀ reads s, s.Sees cap k p → ∃ a reads' s', m reads s = (a, reads', s') ∧ readsLeft s' ≤ readsLeft s ∧
    ((a = some r ∧ s'.Sees cap k' p' ∧ reads + readsLeft s' ≤ reads' + readsLeft s) ∨
      (a = none ∧ s'.Sees cap 0 p ∧ reads ≤ readsLeft s))

namespace Runs

theorem bind {m : Call α} {f : α → Call β} {a : α} {r : Except Error β} (hm : Runs m cap k p (.ok a) k' p)
    (hf : Runs (f a) cap k' p r k'' p'') : Runs (m >>= f) cap k p r k'' p'' := by
  intro reads s hs
  obtain ⟨_, reads1, s1, h1, hle1, ⟨rfl, hs1, hleft1⟩ | ⟨rfl, hs1, hfew⟩⟩ := hm reads s hs
  · obtain ⟨b, reads2, s2, h2, hle2, hb⟩ := hf reads1 s1 hs1
    refine ⟨b, reads2, s2, ?_, hle2.trans hle1, ?_⟩
    · rw [Call.bind_apply, h1]
      exact h2
    · rcases hb with ⟨rfl, hs2, hleft2⟩ | ⟨rfl, hs2, hfew⟩
      · exact .inl ⟨rfl, hs2, by omega⟩
      · exact .inr ⟨rfl, hs2, by omega⟩
  · refine ⟨none, reads1, s1, ?_, hle1, .inr ⟨rfl, hs1, hfew⟩⟩
    rw [Call.bind_apply, h1]

theorem bind_error {m : Call α} {f : α → Call β} {e : Error} (hm : Runs m cap k p (.error e) k' p') :
    Runs (m >>= f) cap k p (.error e) k' p' := by
  intro reads s hs
  obtain ⟨_, reads1, s1, h1, hle1, ⟨rfl, hs1, hleft1⟩ | ⟨rfl, hs1, hfew⟩⟩ := hm reads s hs
  · exact ⟨_, reads1, s1, by rw [Call.bind_apply, h1], hle1, .inl ⟨rfl, hs1, hleft1⟩⟩
  · exact ⟨_, reads1, s1, by rw [Call.bind_apply, h1], hle1, .inr ⟨rfl, hs1, hfew⟩⟩

/-- Code that waits for nothing is not dropped. -/
theorem now {m : SyncM α} {r : Except Error α} (hm : SyncM.Runs m cap k p r k' p')
    (hleft : ∀ s, readsLeft (m s).2 = readsLeft s) : Runs (Call.now m) cap k p r k' p' := by
  intro reads s hs
  obtain ⟨s1, h1, hs1⟩ := hm s hs
  have hleft1 := hleft s
  rw [h1] at hleft1
  refine ⟨some r, reads, s1, ?_, hleft1.le, .inl ⟨rfl, hs1, by rw [hleft1]⟩⟩
  rw [Call.now, h1]

end Runs

/-- What the test of the loop finds. -/
theorem room_spec {s : SyncSession} (hs : s.Sees cap k p) (hn : n ≤ cap) :
    (n ≤ s.rx.unread.length ∧ room n s = (some (.ok ()), s)) ∨
      ∃ s', room n s = (none, s') ∧ s'.Sees cap 0 p ∧ s'.rx.unread.length < n ∧ s'.rx.tail < s'.rx.capacity ∧
        readsLeft s' = readsLeft s := by
  have hunread := length_unread hs.within
  unfold room
  by_cases hdone : n ≤ s.rx.tail - s.rx.head
  · rw [if_pos hdone]
    exact .inl ⟨hunread ▸ hdone, rfl⟩
  rw [if_neg hdone]
  obtain ⟨s1, heq, hs1, hwindow, hshort, hstream, hcuts⟩ := sees_room hs hn hdone
  dsimp only
  rw [heq, if_neg (not_le.mpr hwindow)]
  refine .inr ⟨s1, rfl, { hs1 with enough := Nat.zero_le _ }, hshort, hwindow, ?_⟩
  rw [readsLeft, hcuts, hstream, readsLeft]

/-- The loop ends with the bytes, or with the end of a channel that does not have them. -/
theorem Runs.fillLoop (hn : n ≤ cap) :
    Runs (Call.fillLoop n) cap k p (if n ≤ p.length then .ok () else .error .channelClosed)
      (if n ≤ p.length then n else 0) p := by
  intro reads
  induction reads generalizing k with
  | zero =>
    intro s hs
    rcases room_spec hs hn with ⟨henough, hroom⟩ | ⟨s1, hroom, hs1, -, -, hleft⟩
    · have hp : n ≤ p.length := by
        rw [← hs.pending, SyncSession.pending, List.length_append]
        omega
      rw [if_pos hp, if_pos hp]
      refine ⟨_, 0, s, ?_, le_rfl, .inl ⟨rfl, { hs with enough := henough }, le_rfl⟩⟩
      rw [Call.fillLoop, hroom]
    · refine ⟨_, 0, s1, ?_, hleft.le, .inr ⟨rfl, hs1, Nat.zero_le _⟩⟩
      rw [Call.fillLoop, hroom]
  | succ reads ih =>
    intro s hs
    rcases room_spec hs hn with ⟨henough, hroom⟩ | ⟨s1, hroom, hs1, hshort, hwindow, hleft⟩
    · have hp : n ≤ p.length := by
        rw [← hs.pending, SyncSession.pending, List.length_append]
        omega
      rw [if_pos hp, if_pos hp]
      refine ⟨_, reads + 1, s, ?_, le_rfl, .inl ⟨rfl, { hs with enough := henough }, le_rfl⟩⟩
      rw [Call.fillLoop, hroom]
    rw [Call.fillLoop, hroom]
    dsimp only
    by_cases hend : s1.stream = []
    · have hp : ¬ n ≤ p.length := by
        rw [← hs1.pending, SyncSession.pending, hend, List.append_nil]
        omega
      rw [if_pos hend, if_neg hp, if_neg hp]
      exact ⟨_, reads + 1, s1, rfl, hleft.le, .inl ⟨rfl, hs1, by rw [hleft]⟩⟩
    · rw [if_neg hend]
      have hprog : readsLeft (channelRead s1) < readsLeft s := by
        rw [← hleft]
        exact channelRead_progress hwindow hend
      obtain ⟨a, reads2, s2, h2, hle2, ha⟩ := ih (channelRead s1) (sees_channelRead hs1)
      refine ⟨a, reads2, s2, h2, by omega, ?_⟩
      rcases ha with ⟨rfl, hs2, hleft2⟩ | ⟨rfl, hs2, hfew⟩
      · exact .inl ⟨rfl, hs2, by omega⟩
      · exact .inr ⟨rfl, hs2, by omega⟩

/-- A buffer that is too small is noticed at once. -/
theorem Runs.fillAtLeast_small (hn : cap < n) :
    Runs (Call.fillAtLeast n) cap k p (.error .receiveBufferFull) 0 p := by
  intro reads s hs
  refine ⟨_, reads, s, ?_, le_rfl, .inl ⟨rfl, { hs with enough := Nat.zero_le _ }, le_rfl⟩⟩
  rw [Call.fillAtLeast, if_pos (by rw [hs.capacity]; exact hn)]

theorem Runs.fillAtLeast_fits (hn : n ≤ cap) :
    Runs (Call.fillAtLeast n) cap k p (if n ≤ p.length then .ok () else .error .channelClosed)
      (if n ≤ p.length then n else 0) p := by
  intro reads s hs
  have hfill : Call.fillAtLeast n reads s = Call.fillLoop n reads s := by
    rw [Call.fillAtLeast, if_neg (by rw [hs.capacity]; omega)]
  rw [hfill]
  exact Runs.fillLoop hn reads s hs

theorem Runs.fillAtLeast (hn : n ≤ cap) (hp : n ≤ p.length) : Runs (Call.fillAtLeast n) cap k p (.ok ()) n p := by
  have h := @Runs.fillAtLeast_fits cap k n p hn
  rwa [if_pos hp, if_pos hp] at h

theorem Runs.fillAtLeast_closed (hn : n ≤ cap) (hp : p.length < n) :
    Runs (Call.fillAtLeast n) cap k p (.error .channelClosed) 0 p := by
  have h := @Runs.fillAtLeast_fits cap k n p hn
  rwa [if_neg (not_le.mpr hp), if_neg (not_le.mpr hp)] at h

end Call

section Calls

variable [Usize] {cap k : ℕ} {p : Bytes}

/-- Digits that are a number are read as it. -/
theorem runs_digits {digits rest : Bytes} {len : ℕ} {r : Except Error (List ProcessEntry)} {k' : ℕ} {p' : Bytes}
    (four : digits.length = 4) (length : hexNumber digits = some len) (hcap : 4 ≤ cap)
    (hpayload : ∀ v : UInt32, v.toNat = len → Call.Runs (readPayload v) cap 4 (digits ++ rest) r k' p') :
    Call.Runs readSnapshot cap k (digits ++ rest) r k' p' := by
  obtain ⟨v, hv, hlen⟩ := Option.map_eq_some_iff.mp ((parseHex4_eq four).trans length)
  refine (Call.Runs.fillAtLeast hcap (by rw [List.length_append]; omega)).bind ?_
  refine (Call.Runs.now (SyncM.Runs.peek le_rfl (List.take_left' four)) fun _ => rfl).bind ?_
  rw [hv]
  exact (Call.Runs.now (SyncM.Runs.pure v) fun _ => rfl).bind (hpayload v hlen)

/-- **A frame that fits** is read and consumed by one call, whatever its payload is. -/
theorem readSnapshot_frame {f : Frame} (h : f.Fits cap) (rest : Bytes) :
    Call.Runs readSnapshot cap k (f.bytes ++ rest) f.answer 0 rest := by
  have hfits := h.fits
  have hlen : f.bytes.length = 4 + f.payload.length := by rw [Frame.bytes, List.length_append, h.four]
  rw [Frame.bytes, List.append_assoc]
  refine runs_digits h.four h.length (by omega) fun v hv => ?_
  rw [← List.append_assoc]
  show Call.Runs (readPayload v) cap 4 (f.bytes ++ rest) f.answer 0 rest
  unfold readPayload
  rw [hv, ← hlen]
  refine (Call.Runs.fillAtLeast (by omega) (by rw [List.length_append]; omega)).bind ?_
  refine (Call.Runs.now (SyncM.Runs.peek le_rfl List.take_left) fun _ => rfl).bind ?_
  refine Call.Runs.now ?_ fun _ => rfl
  have hadvance := @SyncM.Runs.advance cap f.bytes.length f.bytes.length (f.bytes ++ rest) rest le_rfl List.drop_left
  rw [Nat.sub_self] at hadvance
  rw [show f.bytes.drop 4 = f.payload from List.drop_left' h.four]
  exact hadvance.bind fun s hs => ⟨s, rfl, hs⟩

/-- **What no call gets past** is not consumed by any. -/
theorem readSnapshot_ending {e : Error} (h : Ending cap p e) : Call.Runs readSnapshot cap k p (.error e) 0 p := by
  cases h with
  | small h => exact (Call.Runs.fillAtLeast_small h).bind_error
  | tooLong four length h =>
    by_cases hcap : cap < 4
    · exact (Call.Runs.fillAtLeast_small hcap).bind_error
    refine runs_digits four length (not_lt.mp hcap) fun v hv => ?_
    exact (Call.Runs.fillAtLeast_small (by omega)).bind_error
  | notHex hcap four h =>
    rename_i digits rest
    have hparse : parseHex4 digits = none := Option.map_eq_none_iff.mp ((parseHex4_eq four).trans h)
    refine (Call.Runs.fillAtLeast hcap (by rw [List.length_append]; omega)).bind ?_
    refine (Call.Runs.now (SyncM.Runs.peek le_rfl (List.take_left' four)) fun _ => rfl).bind ?_
    rw [hparse]
    exact (Call.Runs.now ((SyncM.Runs.fail _).less (Nat.zero_le _)) fun _ => rfl).bind_error
  | closed hcap h => exact (Call.Runs.fillAtLeast_closed hcap h).bind_error
  | cutShort four length hcap h =>
    refine runs_digits four length (by omega) fun v hv => ?_
    refine (Call.Runs.fillAtLeast_closed (by omega) ?_).bind_error
    rw [List.length_append]
    omega

/-! ## Call after call -/

/-- One call more. -/
theorem calls_cons (reads : ℕ) (rest : List ℕ) (s : SyncSession) :
    calls (reads :: rest) s = ((readSnapshot reads s).1 :: (calls rest (readSnapshot reads s).2.2).1,
      (calls rest (readSnapshot reads s).2.2).2) := rfl

/-- The answers of the calls that complete, in a stream that ends with `e`. -/
def expected (frames : List Frame) (e : Error) (n : ℕ) : List (Except Error (List ProcessEntry)) :=
  (frames.map Frame.answer ++ List.replicate n (Except.error e)).take n

/-- One answer more: that of the next frame or the error. -/
theorem expected_succ (frames : List Frame) (e : Error) (n : ℕ) :
    expected frames e (n + 1) = (frames.map Frame.answer).headD (.error e) :: expected frames.tail e n := by
  cases frames with
  | nil => rfl
  | cons f frames =>
    rw [expected, List.map_cons, List.cons_append, List.take_succ_cons, List.replicate_succ', ← List.append_assoc,
      List.take_append_of_le_length]
    · rfl
    · rw [List.length_append, List.length_replicate]
      exact Nat.le_add_left _ _

/-- The whole stream: frames, and behind them what no call gets past. -/
def stream (frames : List Frame) (last : Bytes) : Bytes := (frames.map Frame.bytes).flatten ++ last

/-- One call: the next frame or the ending. -/
theorem readSnapshot_next {e : Error} {last : Bytes} (hlast : Ending cap last e) {frames : List Frame}
    (hframes : ∀ f ∈ frames, f.Fits cap) :
    Call.Runs readSnapshot cap 0 (stream frames last) ((frames.map Frame.answer).headD (.error e)) 0
      (stream frames.tail last) := by
  cases frames with
  | nil => exact readSnapshot_ending hlast
  | cons f frames =>
    have hstream : stream (f :: frames) last = f.bytes ++ stream frames last := by
      rw [stream, stream, List.map_cons, List.flatten_cons, List.append_assoc]
    rw [hstream]
    exact readSnapshot_frame (hframes f List.mem_cons_self) _

/-- A run of calls, by the number of them: the answers so far, what is left to read, and who completes. -/
theorem calls_answer {e : Error} {last : Bytes} (hlast : Ending cap last e) (patience : List ℕ) :
    ∀ (frames : List Frame) (s : SyncSession), (∀ f ∈ frames, f.Fits cap) → s.Sees cap 0 (stream frames last) →
      (calls patience s).1.reduceOption = expected frames e (calls patience s).1.reduceOption.length ∧
        (calls patience s).2.pending = stream (frames.drop (calls patience s).1.reduceOption.length) last ∧
        ∀ (i reads : ℕ), patience[i]? = some reads → readsLeft s < reads →
          ∃ a, (calls patience s).1[i]? = some (some a) := by
  induction patience with
  | nil =>
    intro frames s _ hs
    refine ⟨rfl, hs.pending, fun i reads hi _ => ?_⟩
    cases hi
  | cons reads rest ih =>
    intro frames s hframes hs
    rw [calls_cons]
    obtain ⟨a, reads1, s1, h1, hle, ha⟩ := readSnapshot_next hlast hframes reads s hs
    rw [h1]
    dsimp only
    -- who completes later was patient enough then
    have hlater : ∀ frames' : List Frame, (∀ f ∈ frames', f.Fits cap) → s1.Sees cap 0 (stream frames' last) →
        ∀ (i r : ℕ), rest[i]? = some r → readsLeft s < r → ∃ a, (calls rest s1).1[i]? = some (some a) :=
      fun frames' hf hs1 i r hi hr => (ih frames' s1 hf hs1).2.2 i r hi (by omega)
    rcases ha with ⟨rfl, hs1, -⟩ | ⟨rfl, hs1, hfew⟩
    · have htail : ∀ f ∈ frames.tail, f.Fits cap := fun f hf => hframes f (List.mem_of_mem_tail hf)
      obtain ⟨hanswers, hpending, -⟩ := ih frames.tail s1 htail hs1
      rw [List.reduceOption_cons_of_some, List.length_cons]
      refine ⟨?_, ?_, ?_⟩
      · rw [expected_succ, ← hanswers]
      · rw [hpending, List.drop_tail]
      · intro i r hi hr
        cases i with
        | zero => exact ⟨_, rfl⟩
        | succ i => exact hlater _ htail hs1 i r hi hr
    · obtain ⟨hanswers, hpending, -⟩ := ih frames s1 hframes hs1
      rw [List.reduceOption_cons_of_none]
      refine ⟨hanswers, hpending, ?_⟩
      intro i r hi hr
      cases i with
      | zero =>
        obtain rfl : reads = r := Option.some.inj hi
        omega
      | succ i => exact hlater _ hframes hs1 i r hi hr

/-- A tracker on a channel that has yet to deliver `bytes`. -/
def start (buf bytes : Bytes) (cuts : List ℕ) : SyncSession := ⟨⟨buf, 0, 0⟩, bytes, cuts, [], []⟩

omit [Usize] in
theorem start_sees (buf bytes : Bytes) (cuts : List ℕ) : (start buf bytes cuts).Sees buf.length 0 bytes where
  within := ⟨le_rfl, Nat.zero_le _⟩
  capacity := rfl
  pending := rfl
  enough := Nat.zero_le _
  writes := by simp [start]

/-- **Snapshots are read one frame per call**: the calls that complete answer with the frames in their order, whatever
the cuts are and whichever calls are dropped, and what the stream cannot go past fails them all from then on and stays
where it is.  A call that is not dropped completes. -/
theorem snapshots_one_frame_per_call (buf : Bytes) (frames : List Frame) (hframes : ∀ f ∈ frames, f.Fits buf.length)
    (last : Bytes) (e : Error) (hlast : Ending buf.length last e) (cuts patience : List ℕ) :
    let s := start buf (stream frames last) cuts
    let completed := (calls patience s).1.reduceOption
    completed = expected frames e completed.length ∧
      (calls patience s).2.pending = stream (frames.drop completed.length) last ∧
      ∀ (i reads : ℕ), patience[i]? = some reads → cuts.length + (stream frames last).length < reads →
        ∃ a, (calls patience s).1[i]? = some (some a) :=
  calls_answer hlast patience frames _ hframes (start_sees buf _ cuts)

end Calls

/-- A frame that does not decode, an empty one and a prefix that is no number, in single bytes; the second call is
dropped. -/
theorem snapshots_one_frame_per_call_dropped :
    let _u := usize64
    let s := start [0, 0, 0, 0, 0, 0] (stream [⟨ascii "0001", [0xFF]⟩, ⟨ascii "0000", []⟩] (ascii "000g"))
      [1, 1, 1, 1, 1, 1, 1, 1, 1, 1, 1, 1, 1]
    (calls [30, 2, 30, 30, 30] s).1.reduceOption =
      [.error (.decode .invalidProtobuf), .ok [], .error (.decode .invalidLengthPrefix),
        .error (.decode .invalidLengthPrefix)] := by
  intro _u s
  have hframes : ∀ f ∈ [(⟨ascii "0001", [0xFF]⟩ : Frame), ⟨ascii "0000", []⟩], f.Fits 6 := by
    intro f hf
    simp only [List.mem_cons, List.not_mem_nil, or_false] at hf
    rcases hf with rfl | rfl
    · exact ⟨rfl, rfl, by decide⟩
    · exact ⟨rfl, rfl, by decide⟩
  have hlast : Ending 6 (ascii "000g" ++ []) (.decode .invalidLengthPrefix) := .notHex (by decide) rfl rfl
  have h := (snapshots_one_frame_per_call [0, 0, 0, 0, 0, 0] _ hframes _ _ hlast
    [1, 1, 1, 1, 1, 1, 1, 1, 1, 1, 1, 1, 1] [30, 2, 30, 30, 30]).1
  have hlen : (calls [30, 2, 30, 30, 30] s).1.reduceOption.length = 4 := by decide +kernel
  exact h.trans (congrArg _ hlen)

end LibAdb.TrackApp
