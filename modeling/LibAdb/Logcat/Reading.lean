import LibAdb.Logcat.Format
import LibAdb.Shell.Decoder

/-!
# LibAdb.Logcat.Reading — entries out of a framed stream

`Logcat` of `logcat.rs`: `compact`, `fill`, `take_entry` and the loop of `read_entry`.  One buffer holds the output
collected for the next entry (`acc`), and behind it the bytes of the stream not decoded yet (`unread`); the channel
behind it delivers a stream in pieces of any sizes, and a call may be dropped while it waits for one.

`Good` says what a state has still to give: `out`, the output not returned as entries yet, part of it collected, part
of it undecoded and part of it undelivered.  Every turn of the loop keeps it (`Good.turn`), and so does every fill
(`Good.fill`), which always finds room: what is collected is shorter than an entry, and what is undecoded at a fill
shorter than a header.  So the answers to any number of calls are those of a parser that has the whole output before it
(`entries_survive`).
-/

namespace LibAdb

open Slices ShellV2

inductive Logcat.End where
  | notYet
  | exited (code : Byte)
  | closedWithoutExit
  deriving DecidableEq, Repr

def Logcat.stderrKept : ℕ := 1024

/-- `Logcat`, and of its channel the bytes to come and how they are cut. -/
structure Logcat where
  stream : Bytes
  /-- The sizes of the next reads; at a zero the call is dropped while it waits. -/
  cuts : List ℕ
  buf : Bytes
  accStart : ℕ
  accEnd : ℕ
  head : ℕ
  tail : ℕ
  frameId : FrameId
  frameLeft : ℕ
  ended : Logcat.End
  stderr : Bytes
  deriving DecidableEq, Repr

/-- What a call comes to. -/
inductive Logcat.Answer where
  | entry (e : Logcat.LogEntry)
  | failed (e : Error)
  | dropped
  deriving DecidableEq, Repr

/-- What one turn of the loop of `read_entry` comes to. -/
inductive Logcat.Turn where
  | returns (a : Logcat.Answer)
  | again
  | fill
  deriving DecidableEq, Repr

namespace Logcat

/-- `Logcat::new` -/
def new (stream : Bytes) (cuts : List ℕ) (buf : Bytes) : Logcat :=
  ⟨stream, cuts, buf, 0, 0, 0, 0, .stdout, 0, .notYet, []⟩

/-- The output collected. -/
def acc (l : Logcat) : Bytes := slice l.buf l.accStart l.accEnd

/-- The bytes read and not decoded. -/
def unread (l : Logcat) : Bytes := slice l.buf l.head l.tail

/-- The first half of `compact`. -/
def compactAcc (l : Logcat) : Logcat :=
  if 0 < l.accStart then
    { l with buf := copyWithin l.buf l.accStart l.accEnd 0, accEnd := l.accEnd - l.accStart, accStart := 0 }
  else l

/-- The second half of `compact`. -/
def compactUnread (l : Logcat) : Logcat :=
  if l.accEnd < l.head then
    { l with buf := copyWithin l.buf l.head l.tail l.accEnd, tail := l.tail - (l.head - l.accEnd), head := l.accEnd }
  else l

def compact (l : Logcat) : Logcat := l.compactAcc.compactUnread

/-- `channel.read(&mut buf[tail..])`, and the tail behind what it read; `none` is a call dropped here. -/
def channelRead (l : Logcat) : Option (Except Error Unit) × Logcat :=
  if l.cuts.head? = some 0 then (none, { l with cuts := l.cuts.tail })
  else if l.stream = [] then (some (.error .channelClosed), l)
  else
    let room := l.buf.length - l.tail
    let got := l.stream.take (min (l.cuts.headD room) room)
    (some (.ok ()),
      { l with
        stream := l.stream.drop got.length
        cuts := l.cuts.tail
        buf := splice l.buf l.tail got
        tail := l.tail + got.length })

def fill (l : Logcat) : Option (Except Error Unit) × Logcat :=
  if l.tail = l.buf.length then
    if l.compact.tail = l.compact.buf.length then (some (.error .receiveBufferFull), l.compact)
    else l.compact.channelRead
  else l.channelRead

/-- `take_entry` -/
def takeEntry (l : Logcat) : Except LogcatError (Option LogEntry) × Logcat :=
  match parseEntry l.acc with
  | .error e => (.error e, l)
  | .ok none => (.ok none, l)
  | .ok (some (entry, consumed)) => (.ok (some entry), { l with accStart := l.accStart + consumed })

/-- The `match self.end` of `read_entry`. -/
def stop (l : Logcat) : Option Error :=
  match l.ended with
  | .notYet => none
  | .exited code =>
    if code = 0 then some (if l.accStart < l.accEnd then .logcat .truncatedEntry else .channelClosed)
    else some (.logcat (.exited code l.stderr))
  | .closedWithoutExit => some (.logcat .closedWithoutExit)

/-- `n` bytes of a Stdout frame join the output collected. -/
def collect (l : Logcat) (n : ℕ) : Logcat :=
  if l.accStart = l.accEnd then { l with accStart := l.head, accEnd := l.head + n }
  else if l.accEnd < l.head then
    { l with buf := copyWithin l.buf l.head (l.head + n) l.accEnd, accEnd := l.accEnd + n }
  else { l with accEnd := l.accEnd + n }

/-- `n` bytes of a Stderr frame, of which the first 1024 of the session are kept. -/
def keep (l : Logcat) (n : ℕ) : Logcat :=
  let kept := min n (stderrKept - l.stderr.length)
  { l with stderr := l.stderr ++ slice l.buf l.head (l.head + kept) }

def pass (l : Logcat) (n : ℕ) : Logcat := { l with head := l.head + n, frameLeft := l.frameLeft - n }

/-- What has arrived of a frame's payload. -/
def takePayload (l : Logcat) : Logcat :=
  let n := min l.frameLeft (l.tail - l.head)
  match l.frameId with
  | .exit => { l with ended := .exited (l.buf.getD l.head 0) }
  | .stdout => (l.collect n).pass n
  | _ => (l.keep n).pass n

/-- The session stands in a frame of `len` bytes. -/
def enter (l : Logcat) (id : FrameId) (len : ℕ) : Logcat :=
  { l with head := l.head + headerSize, frameId := id, frameLeft := len }

/-- The header of the next frame. -/
def takeHeader (l : Logcat) : Turn × Logcat :=
  let h := parseHeader (slice l.buf l.head (l.head + headerSize))
  match h.1 with
  | .ok .exit => if h.2 = 0 then (.returns (.failed (.protocol .shortExitPayload)), l) else (.again, l.enter .exit h.2.toNat)
  | .ok .stdout => (.again, l.enter .stdout h.2.toNat)
  | .ok .stderr => (.again, l.enter .stderr h.2.toNat)
  | other => (.returns (.failed (.protocol (.unexpectedShellFrame (FrameId.byteOf other)))), l)

/-- The loop of `read_entry` up to its `fill`. -/
def turn (l : Logcat) : Turn × Logcat :=
  match l.takeEntry with
  | (.error e, l) => (.returns (.failed (.logcat e)), l)
  | (.ok (some entry), l) => (.returns (.entry entry), l)
  | (.ok none, l) =>
    match l.stop with
    | some e => (.returns (.failed e), l)
    | none =>
      if 0 < l.frameLeft ∧ l.head < l.tail then (.again, l.takePayload)
      else if l.frameLeft = 0 ∧ headerSize ≤ l.tail - l.head then l.takeHeader
      else (.fill, l)

def readLoop : ℕ → Logcat → Option (Answer × Logcat)
  | 0, _ => none
  | fuel + 1, l =>
    match l.turn with
    | (.returns a, l) => some (a, l)
    | (.again, l) => readLoop fuel l
    | (.fill, l) =>
      match l.fill with
      | (none, l) => some (.dropped, l)
      | (some (.ok ()), l) => readLoop fuel l
      | (some (.error .channelClosed), l) => readLoop fuel { l with ended := .closedWithoutExit }
      | (some (.error e), l) => some (.failed e, l)

/-- What the turns of the loop use up. -/
def rounds (l : Logcat) : ℕ := 2 * l.stream.length + (l.tail - l.head) + if l.ended = .notYet then 1 else 0

/-- `read_entry`: the loop, with turns enough for what there is to decode. -/
def readEntry (l : Logcat) : Option (Answer × Logcat) := readLoop (l.rounds + 1) l

/-- The answers of successive calls. -/
def calls : ℕ → Logcat → Option (List Answer × Logcat)
  | 0, l => some ([], l)
  | k + 1, l => do
    let (a, l) ← l.readEntry
    let (answers, l) ← calls k l
    return (a :: answers, l)

/-! ## The cursors -/

/-- The output collected lies in front of the bytes not decoded. -/
structure Laid (l : Logcat) : Prop where
  acc_le : l.accStart ≤ l.accEnd
  mid_le : l.accEnd ≤ l.head
  unread_le : l.head ≤ l.tail
  tail_le : l.tail ≤ l.buf.length

variable {l : Logcat}

theorem Laid.length_acc (h : Laid l) : l.acc.length = l.accEnd - l.accStart :=
  length_slice (h.mid_le.trans (h.unread_le.trans h.tail_le))

theorem Laid.length_unread (h : Laid l) : l.unread.length = l.tail - l.head := length_slice h.tail_le

/-- Only the cursors and the bytes under them differ, and those only in where they lie. -/
structure Moved (l l' : Logcat) : Prop where
  laid : Laid l'
  acc : l'.acc = l.acc
  unread : l'.unread = l.unread
  length : l'.buf.length = l.buf.length
  stream : l'.stream = l.stream
  cuts : l'.cuts = l.cuts
  frameId : l'.frameId = l.frameId
  frameLeft : l'.frameLeft = l.frameLeft
  ended : l'.ended = l.ended
  stderr : l'.stderr = l.stderr

theorem Moved.refl (h : Laid l) : Moved l l := ⟨h, rfl, rfl, rfl, rfl, rfl, rfl, rfl, rfl, rfl⟩

theorem compactAcc_moved (h : Laid l) : Moved l l.compactAcc ∧ l.compactAcc.accStart = 0 := by
  have ha := h.acc_le
  have hm := h.mid_le
  have hu := h.unread_le
  have ht := h.tail_le
  have hn := h.length_acc
  unfold compactAcc
  split_ifs with hpos
  · have hlen : (copyWithin l.buf l.accStart l.accEnd 0).length = l.buf.length :=
      length_splice (by rw [Nat.zero_add]; exact (show l.acc.length ≤ _ by omega))
    refine ⟨⟨⟨?_, ?_, hu, ?_⟩, ?_, ?_, hlen, rfl, rfl, rfl, rfl, rfl, rfl⟩, rfl⟩
    · exact Nat.zero_le _
    · exact (Nat.sub_le _ _).trans hm
    · exact ht.trans_eq hlen.symm
    · have hself := slice_splice_self (d := l.acc) (Nat.zero_le l.buf.length)
      rwa [Nat.zero_add, hn] at hself
    · exact slice_splice_after (show 0 + l.acc.length ≤ l.head by omega) (Nat.zero_le _)
  · exact ⟨.refl h, by omega⟩

theorem compactUnread_moved (h : Laid l) :
    Moved l l.compactUnread ∧ l.compactUnread.accStart = l.accStart ∧
      l.compactUnread.head = l.compactUnread.accEnd := by
  have ha := h.acc_le
  have hm := h.mid_le
  have hu := h.unread_le
  have ht := h.tail_le
  have hn := h.length_unread
  unfold compactUnread
  split_ifs with hlt
  · have hlen : (copyWithin l.buf l.head l.tail l.accEnd).length = l.buf.length :=
      length_splice (show l.accEnd + l.unread.length ≤ _ by omega)
    refine ⟨⟨⟨ha, le_rfl, ?_, ?_⟩, ?_, ?_, hlen, rfl, rfl, rfl, rfl, rfl, rfl⟩, rfl, rfl⟩
    · show l.accEnd ≤ l.tail - (l.head - l.accEnd)
      omega
    · show l.tail - (l.head - l.accEnd) ≤ (copyWithin l.buf l.head l.tail l.accEnd).length
      omega
    · exact slice_splice_before le_rfl (by omega)
    · have hself := slice_splice_self (d := l.unread) (show l.accEnd ≤ l.buf.length by omega)
      rwa [hn, show l.accEnd + (l.tail - l.head) = l.tail - (l.head - l.accEnd) by omega] at hself
  · exact ⟨.refl h, rfl, by omega⟩

theorem Moved.trans {m l' : Logcat} (h : Moved l m) (h' : Moved m l') : Moved l l' :=
  ⟨h'.laid, h'.acc.trans h.acc, h'.unread.trans h.unread, h'.length.trans h.length, h'.stream.trans h.stream,
    h'.cuts.trans h.cuts, h'.frameId.trans h.frameId, h'.frameLeft.trans h.frameLeft, h'.ended.trans h.ended,
    h'.stderr.trans h.stderr⟩

/-- **`compact` loses nothing** and leaves no room unused. -/
theorem compact_moved (h : Laid l) : Moved l l.compact ∧ l.compact.tail = l.acc.length + l.unread.length := by
  obtain ⟨hacc, hzero⟩ := compactAcc_moved h
  obtain ⟨hunread, hstart, hhead⟩ := compactUnread_moved hacc.laid
  have hmoved : Moved l l.compact := hacc.trans hunread
  refine ⟨hmoved, ?_⟩
  have h1 := hmoved.laid.length_acc
  have h2 := hmoved.laid.length_unread
  have h3 := hmoved.laid.unread_le
  rw [hmoved.acc] at h1
  rw [hmoved.unread] at h2
  have h4 : l.compact.accStart = 0 := hstart.trans hzero
  have h5 : l.compact.head = l.compact.accEnd := hhead
  omega

theorem collect_laid {n : ℕ} (h : Laid l) (hn : n ≤ l.tail - l.head) :
    Laid ((l.collect n).pass n) ∧ ((l.collect n).pass n).acc = l.acc ++ l.unread.take n ∧
      ((l.collect n).pass n).unread = l.unread.drop n ∧ ((l.collect n).pass n).buf.length = l.buf.length := by
  have ha := h.acc_le
  have hm := h.mid_le
  have hu := h.unread_le
  have ht := h.tail_le
  have htake : l.unread.take n = slice l.buf l.head (l.head + n) := take_slice (by omega)
  rw [htake]
  have hchunk : (slice l.buf l.head (l.head + n)).length = n := by
    rw [length_slice (by omega)]
    omega
  unfold collect
  split_ifs with hempty hgap
  · refine ⟨⟨Nat.le_add_right _ _, le_rfl, ?_, ht⟩, ?_, drop_slice.symm, rfl⟩
    · show l.head + n ≤ l.tail
      omega
    · have hnil : l.acc = [] := by
        rw [acc, hempty, slice_self]
      rw [hnil, List.nil_append]
      rfl
  · have hlen : (copyWithin l.buf l.head (l.head + n) l.accEnd).length = l.buf.length :=
      length_splice (by omega)
    refine ⟨⟨?_, ?_, ?_, ?_⟩, ?_, ?_, hlen⟩
    · show l.accStart ≤ l.accEnd + n
      omega
    · show l.accEnd + n ≤ l.head + n
      omega
    · show l.head + n ≤ l.tail
      omega
    · exact ht.trans_eq hlen.symm
    · show slice (copyWithin l.buf l.head (l.head + n) l.accEnd) l.accStart (l.accEnd + n) = _
      have hself := slice_splice_self (d := slice l.buf l.head (l.head + n)) (show l.accEnd ≤ l.buf.length by omega)
      rw [hchunk] at hself
      rw [← slice_append_slice ha (Nat.le_add_right _ n) (by omega), copyWithin, hself,
        slice_splice_before le_rfl (by omega)]
      rfl
    · show slice (copyWithin l.buf l.head (l.head + n) l.accEnd) (l.head + n) l.tail = _
      rw [copyWithin, slice_splice_after (by omega) (by omega)]
      exact drop_slice.symm
  · refine ⟨⟨?_, ?_, ?_, ht⟩, ?_, drop_slice.symm, rfl⟩
    · show l.accStart ≤ l.accEnd + n
      omega
    · show l.accEnd + n ≤ l.head + n
      omega
    · show l.head + n ≤ l.tail
      omega
    · show slice l.buf l.accStart (l.accEnd + n) = _
      have hhead : l.accEnd = l.head := by omega
      rw [acc, hhead, slice_append_slice (by omega) (by omega) (by omega)]

theorem pass_laid {n : ℕ} (h : Laid l) (hn : n ≤ l.tail - l.head) :
    Laid (l.pass n) ∧ (l.pass n).unread = l.unread.drop n := by
  have hm := h.mid_le
  have hu := h.unread_le
  refine ⟨⟨h.acc_le, ?_, ?_, h.tail_le⟩, drop_slice.symm⟩
  · show l.accEnd ≤ l.head + n
    omega
  · show l.head + n ≤ l.tail
    omega

/-! ## What is still to come -/

/-- A frame of output. -/
def IsOutput (f : ShellFrame) : Prop := f.id = FrameId.stdout.toByte ∨ f.id = FrameId.stderr.toByte

instance : DecidablePred IsOutput := fun f => inferInstanceAs (Decidable (f.id = _ ∨ f.id = _))

/-- The payloads of one kind of frame, joined. -/
def textOf (id : FrameId) (fs : List ShellFrame) : Bytes :=
  (fs.filter (fun f => f.id == id.toByte)).flatMap ShellFrame.payload

theorem textOf_cons (id : FrameId) (f : ShellFrame) (fs : List ShellFrame) :
    textOf id (f :: fs) = (if f.id = id.toByte then f.payload else []) ++ textOf id fs := by
  unfold textOf
  by_cases h : f.id = id.toByte
  · simp [h]
  · simp [h]

/-- What the error is that ends the session when `left` is left over of the output. -/
def finish (exit : Option ShellFrame) (err left : Bytes) : Error :=
  match exit with
  | none => .logcat .closedWithoutExit
  | some f =>
    if f.payload.headD 0 = 0 then if left = [] then .channelClosed else .logcat .truncatedEntry
    else .logcat (.exited (f.payload.headD 0) (err.take stderrKept))

/-- The answer of a parser that has the whole output before it, and the output behind what it parsed. -/
def expected (exit : Option ShellFrame) (err out : Bytes) : Answer × Bytes :=
  match parseEntry out with
  | .error e => (.failed (.logcat e), out)
  | .ok (some (entry, consumed)) => (.entry entry, out.drop consumed)
  | .ok none => (.failed (finish exit err out), out)

/-- Its answers to `k` calls. -/
def reference (exit : Option ShellFrame) (err : Bytes) : ℕ → Bytes → List Answer
  | 0, _ => []
  | k + 1, out => (expected exit err out).1 :: reference exit err k (expected exit err out).2

/-- What the undecoded bytes hold, for a session that stands in a frame with `left` bytes to go: `o` of output and `e`
of error text. -/
inductive Ahead (exit : Option ShellFrame) (ended : End) (id : FrameId) (left : ℕ) (bytes o e : Bytes) : Prop
  | output (part : Bytes) (todo : List ShellFrame) (htodo : ∀ f ∈ todo, IsOutput f) (hended : ended = .notYet)
      (hid : id = .stdout ∨ id = .stderr) (hleft : left = part.length)
      (hbytes : bytes = part ++ encodeAll (todo ++ exit.toList))
      (ho : o = (if id = .stdout then part else []) ++ textOf .stdout todo)
      (he : e = (if id = .stderr then part else []) ++ textOf .stderr todo)
  | status (f : ShellFrame) (hexit : exit = some f) (hended : ended = .notYet) (hid : id = .exit)
      (hleft : left = f.payload.length) (hbytes : bytes = f.payload) (ho : o = []) (he : e = [])
  | exited (f : ShellFrame) (hexit : exit = some f) (hended : ended = .exited (f.payload.headD 0)) (ho : o = [])
      (he : e = [])
  | closed (hexit : exit = none) (hended : ended = .closedWithoutExit) (ho : o = []) (he : e = [])

/-- A state that has `out` to give: `o` of it undecoded; `seen` is the error text decoded, of which the front is
kept. -/
structure Good (exit : Option ShellFrame) (err : Bytes) (l : Logcat) (out : Bytes) : Prop where
  laid : Laid l
  room : loggerEntryMaxLen + 4 ≤ l.buf.length
  ahead : ∃ o e seen, Ahead exit l.ended l.frameId l.frameLeft (l.unread ++ l.stream) o e ∧ out = l.acc ++ o ∧
    err = seen ++ e ∧ l.stderr = seen.take stderrKept

variable {exit : Option ShellFrame} {err out : Bytes}

theorem Good.new (stream : List ShellFrame) (hstream : ∀ f ∈ stream, IsOutput f) (cuts : List ℕ) (buf : Bytes)
    (hbuf : loggerEntryMaxLen + 4 ≤ buf.length) :
    Good exit (textOf .stderr stream) (.new (encodeAll (stream ++ exit.toList)) cuts buf)
      (textOf .stdout stream) where
  laid := ⟨le_rfl, le_rfl, le_rfl, Nat.zero_le _⟩
  room := hbuf
  ahead := ⟨_, _, [], .output [] stream hstream rfl (.inl rfl) rfl rfl rfl rfl, rfl, rfl, rfl⟩

theorem Good.moved {l' : Logcat} (h : Good exit err l out) (hm : Moved l l') : Good exit err l' out where
  laid := hm.laid
  room := h.room.trans_eq hm.length.symm
  ahead := by
    rw [hm.ended, hm.frameId, hm.frameLeft, hm.unread, hm.stream, hm.acc, hm.stderr]
    exact h.ahead

/-! ## One turn -/

/-- The exit frame is one, and has a status. -/
def IsExit (f : ShellFrame) : Prop := f.id = FrameId.exit.toByte ∧ f.payload ≠ []

instance : DecidablePred IsExit := fun f => inferInstanceAs (Decidable (f.id = _ ∧ f.payload ≠ []))

/-- **A piece of a frame.** -/
theorem Good.takePayload (h : Good exit err l out) (hended : l.ended = .notYet) (hleft : 0 < l.frameLeft)
    (hsome : l.head < l.tail) :
    Good exit err l.takePayload out ∧ l.takePayload.rounds < l.rounds ∧ l.takePayload.cuts = l.cuts := by
  obtain ⟨o, e, seen, hahead, hout, herr, hkept⟩ := h.ahead
  have hlen := h.laid.length_unread
  obtain ⟨n, hn⟩ : ∃ n, n = min l.frameLeft (l.tail - l.head) := ⟨_, rfl⟩
  cases hahead with
  | output part todo htodo hend hid hpart hbytes ho he =>
    -- the piece is the front both of what is unread and of what the frame has left
    have hchunk : l.unread.take n = part.take n := by
      have := congrArg (List.take n) hbytes
      rwa [List.take_append_of_le_length (by omega), List.take_append_of_le_length (by omega)] at this
    have hrest : l.unread.drop n ++ l.stream = part.drop n ++ encodeAll (todo ++ exit.toList) := by
      have := congrArg (List.drop n) hbytes
      rwa [List.drop_append_of_le_length (by omega), List.drop_append_of_le_length (by omega)] at this
    have hgone : l.frameLeft - n = (part.drop n).length := by
      rw [List.length_drop]
      omega
    rcases hid with hid | hid
    · have htake : l.takePayload = (l.collect n).pass n := by
        rw [Logcat.takePayload, hid, hn]
      obtain ⟨hlaid, hacc, hunread, hlength⟩ := collect_laid h.laid (show n ≤ l.tail - l.head by omega)
      have hsame : ((l.collect n).pass n).stream = l.stream ∧ ((l.collect n).pass n).cuts = l.cuts ∧
          ((l.collect n).pass n).ended = l.ended ∧ ((l.collect n).pass n).stderr = l.stderr ∧
          ((l.collect n).pass n).frameId = l.frameId ∧ ((l.collect n).pass n).frameLeft = l.frameLeft - n := by
        unfold collect
        split_ifs <;> exact ⟨rfl, rfl, rfl, rfl, rfl, rfl⟩
      obtain ⟨hstream, hcuts, hends, hstderr, hframe, hframeLeft⟩ := hsame
      have hunreadLen := hlaid.length_unread
      rw [hunread, List.length_drop] at hunreadLen
      rw [htake]
      refine ⟨⟨hlaid, h.room.trans_eq hlength.symm, ?_⟩, ?_, hcuts⟩
      · refine ⟨part.drop n ++ textOf .stdout todo, e, seen, ?_, ?_, herr, hstderr.trans hkept⟩
        · rw [hends, hframe, hframeLeft, hunread, hstream]
          refine .output (part.drop n) todo htodo hended (.inl hid) hgone hrest ?_ ?_
          · rw [if_pos hid]
          · rw [he, hid]
            rfl
        · rw [hacc, hout, ho, if_pos hid, hchunk, List.append_assoc, ← List.append_assoc (part.take n),
            List.take_append_drop]
      · rw [rounds, rounds, hstream, hends, ← hunreadLen]
        omega
    · have htake : l.takePayload = (l.keep n).pass n := by
        rw [Logcat.takePayload, hid, hn]
      obtain ⟨hlaid, hunread⟩ := pass_laid (l := l.keep n) ⟨h.laid.acc_le, h.laid.mid_le, h.laid.unread_le,
        h.laid.tail_le⟩ (show n ≤ l.tail - l.head by omega)
      have hkeep : l.stderr ++ slice l.buf l.head (l.head + min n (stderrKept - l.stderr.length)) =
          (seen ++ part.take n).take stderrKept := by
        have hfront : slice l.buf l.head (l.head + min n (stderrKept - l.stderr.length)) =
            l.unread.take (min n (stderrKept - l.stderr.length)) := (take_slice (by omega)).symm
        have hroom : stderrKept - l.stderr.length = stderrKept - seen.length := by
          rw [hkept, List.length_take]
          omega
        rw [hfront, hroom, Nat.min_comm, ← List.take_take, hchunk, hkept, List.take_append]
      rw [htake]
      refine ⟨⟨hlaid, h.room, ?_⟩, ?_, rfl⟩
      · refine ⟨o, part.drop n ++ textOf .stderr todo, seen ++ part.take n, ?_, hout, ?_, hkeep⟩
        · rw [hunread]
          refine .output (part.drop n) todo htodo hended (.inr hid) hgone hrest ?_ ?_
          · rw [ho]
            show (if l.frameId = _ then _ else _) ++ _ = (if l.frameId = _ then _ else _) ++ _
            rw [hid]
            rfl
          · exact (if_pos hid).symm ▸ rfl
        · rw [herr, he, if_pos hid, List.append_assoc, ← List.append_assoc (part.take n), List.take_append_drop]
      · show 2 * l.stream.length + (l.tail - (l.head + n)) + _ < 2 * l.stream.length + (l.tail - l.head) + _
        have : ((l.keep n).pass n).ended = l.ended := rfl
        rw [this]
        omega
  | status f hexit hend hid hpart hbytes ho he =>
    have htake : l.takePayload = { l with ended := .exited (l.buf.getD l.head 0) } := by
      rw [Logcat.takePayload, hid]
    have hcode : l.buf.getD l.head 0 = f.payload.headD 0 := by
      have hget : l.unread[0]? = l.buf[l.head]? := by
        rw [unread, getElem?_slice, if_pos (by omega)]
        rfl
      rw [← hbytes, List.getD_eq_getElem?_getD, ← hget, List.headD_eq_head?_getD, List.head?_eq_getElem?,
        List.getElem?_append_left (by omega)]
    rw [htake]
    refine ⟨⟨⟨h.laid.acc_le, h.laid.mid_le, h.laid.unread_le, h.laid.tail_le⟩, h.room, ?_⟩, ?_, rfl⟩
    · exact ⟨o, e, seen, .exited f hexit (congrArg _ hcode) ho he, hout, herr, hkept⟩
    · show 2 * l.stream.length + (l.tail - l.head) + 0 < 2 * l.stream.length + (l.tail - l.head) + _
      rw [if_pos hended]
      omega
  | exited f hexit hend | closed hexit hend => exact absurd (hended.symm.trans hend) (by simp)

/-- **The header of a frame.** -/
theorem Good.takeHeader (hexit : ∀ f ∈ exit, IsExit f) (h : Good exit err l out) (hended : l.ended = .notYet)
    (hleft : l.frameLeft = 0) (hsome : headerSize ≤ l.tail - l.head) :
    ∃ l', l.takeHeader = (.again, l') ∧ Good exit err l' out ∧ l'.rounds < l.rounds ∧ l'.cuts = l.cuts := by
  obtain ⟨o, e, seen, hahead, hout, herr, hkept⟩ := h.ahead
  have hlen := h.laid.length_unread
  have hu := h.laid.unread_le
  have hm := h.laid.mid_le
  cases hahead with
  | output part todo htodo hend hid hpart hbytes ho he =>
    have hnil : part = [] := List.eq_nil_of_length_eq_zero (hpart.symm.trans hleft)
    subst hnil
    have hsplit : slice l.buf l.head (l.head + headerSize) ++ (l.unread.drop headerSize ++ l.stream) =
        encodeAll (todo ++ exit.toList) := by
      rw [← take_slice (c := headerSize) (b := l.tail) (by omega), ← List.append_assoc]
      show l.unread.take headerSize ++ l.unread.drop headerSize ++ l.stream = _
      rw [List.take_append_drop, hbytes]
      rfl
    have hhdrLen : (slice l.buf l.head (l.head + headerSize)).length = headerSize := by
      have := h.laid.tail_le
      rw [length_slice (by omega)]
      omega
    -- the state behind the header of `f`, whatever its kind
    have henter : ∀ (f : ShellFrame) (fs : List ShellFrame) (id : FrameId) (o' e' : Bytes),
        todo ++ exit.toList = f :: fs →
        Ahead exit l.ended id f.payload.length (f.payload ++ encodeAll fs) o' e' → o = o' → e = e' →
        Good exit err (l.enter id (parseHeader (slice l.buf l.head (l.head + headerSize))).2.toNat) out ∧
        parseHeader (slice l.buf l.head (l.head + headerSize)) = (f.tag, UInt32.ofNat f.payload.length) := by
      intro f fs id o' e' hlist hahead' ho' he'
      rw [hlist] at hsplit
      obtain ⟨hhdr, hbody⟩ := header_eq hhdrLen hsplit
      have hparse := (congrArg parseHeader hhdr).trans (parseHeader_header f)
      refine ⟨⟨⟨h.laid.acc_le, ?_, ?_, h.laid.tail_le⟩, h.room, o', e', seen, ?_, ho' ▸ hout, he' ▸ herr, hkept⟩,
        hparse⟩
      · show l.accEnd ≤ l.head + headerSize
        omega
      · show l.head + headerSize ≤ l.tail
        omega
      · have hunread : slice l.buf (l.head + headerSize) l.tail ++ l.stream = f.payload ++ encodeAll fs := by
          rw [← hbody]
          exact congrArg (· ++ l.stream) drop_slice.symm
        show Ahead exit l.ended id _ (slice l.buf (l.head + headerSize) l.tail ++ l.stream) o' e'
        rw [hunread, hparse]
        exact (ShellFrame.toNat_length f).symm ▸ hahead'
    have hrounds : ∀ (id : FrameId) (n : ℕ), (l.enter id n).rounds < l.rounds := by
      intro id n
      show 2 * l.stream.length + (l.tail - (l.head + headerSize)) + (if l.ended = .notYet then 1 else 0) <
        2 * l.stream.length + (l.tail - l.head) + _
      unfold headerSize at *
      omega
    cases todo with
    | cons f todo =>
      rcases htodo f List.mem_cons_self with hf | hf
      · obtain ⟨hgood, hparse⟩ := henter f (todo ++ exit.toList) .stdout _ _ rfl
          (.output f.payload todo (fun g hg => htodo g (List.mem_cons_of_mem _ hg)) hended (.inl rfl) rfl rfl rfl rfl)
          (by rw [ho, textOf_cons, if_pos hf]; simp) (by rw [he, textOf_cons, hf]; simp [FrameId.toByte])
        refine ⟨_, ?_, hgood, hrounds _ _, rfl⟩
        have htag : (parseHeader (slice l.buf l.head (l.head + headerSize))).1 = .ok .stdout := by
          rw [hparse, ShellFrame.tag, hf]
          rfl
        rw [Logcat.takeHeader]
        simp only [htag]
      · obtain ⟨hgood, hparse⟩ := henter f (todo ++ exit.toList) .stderr _ _ rfl
          (.output f.payload todo (fun g hg => htodo g (List.mem_cons_of_mem _ hg)) hended (.inr rfl) rfl rfl rfl rfl)
          (by rw [ho, textOf_cons, hf]; simp [FrameId.toByte]) (by rw [he, textOf_cons, if_pos hf]; simp)
        refine ⟨_, ?_, hgood, hrounds _ _, rfl⟩
        have htag : (parseHeader (slice l.buf l.head (l.head + headerSize))).1 = .ok .stderr := by
          rw [hparse, ShellFrame.tag, hf]
          rfl
        rw [Logcat.takeHeader]
        simp only [htag]
    | nil =>
      cases hx : exit with
      | none =>
        rw [hx] at hsplit
        have := congrArg List.length hsplit
        rw [List.length_append, hhdrLen] at this
        simp [encodeAll, headerSize] at this
      | some f =>
        obtain ⟨hf, hne⟩ := hexit f hx
        obtain ⟨hgood, hparse⟩ := henter f [] .exit [] [] (by rw [hx]; rfl)
          (.status f hx hended rfl rfl (List.append_nil _) rfl rfl) (by rw [ho]; simp [textOf])
          (by rw [he]; simp [textOf])
        have hlenNe : ¬UInt32.ofNat f.payload.length = 0 := by
          intro hzero
          have := f.toNat_length
          rw [hzero] at this
          exact hne (List.eq_nil_of_length_eq_zero this.symm)
        refine ⟨_, ?_, hx ▸ hgood, hrounds _ _, rfl⟩
        have htag : (parseHeader (slice l.buf l.head (l.head + headerSize))).1 = .ok .exit := by
          rw [hparse, ShellFrame.tag, hf]
          rfl
        have hlenOf : (parseHeader (slice l.buf l.head (l.head + headerSize))).2 = UInt32.ofNat f.payload.length := by
          rw [hparse]
        rw [Logcat.takeHeader]
        simp only [htag]
        rw [if_neg (by rw [hlenOf]; exact hlenNe)]
  | status f hx hend hid hpart hbytes ho he =>
    have hzero := hpart.symm.trans hleft
    exact absurd (List.eq_nil_of_length_eq_zero hzero) (hexit f hx).2
  | exited f hx hend | closed hx hend => exact absurd (hended.symm.trans hend) (by simp)

/-- What a turn does to a session that has `out` to give. -/
inductive Turned (exit : Option ShellFrame) (err : Bytes) (l : Logcat) (out : Bytes) : Turn × Logcat → Prop
  | returns {l' : Logcat} (hgood : Good exit err l' (expected exit err out).2) (hcuts : l'.cuts = l.cuts) :
      Turned exit err l out (.returns (expected exit err out).1, l')
  | again {l' : Logcat} (hgood : Good exit err l' out) (hrounds : l'.rounds < l.rounds) (hcuts : l'.cuts = l.cuts) :
      Turned exit err l out (.again, l')
  | fill (hended : l.ended = .notYet) (hacc : l.acc.length < loggerEntryMaxLen)
      (hfew : l.unread.length < headerSize) (hframe : 0 < l.frameLeft → l.unread = []) :
      Turned exit err l out (.fill, l)

theorem Good.stop {e : Error} (h : Good exit err l out) (hstop : l.stop = some e) :
    out = l.acc ∧ e = finish exit err out := by
  obtain ⟨o, e', seen, hahead, hout, herr, hkept⟩ := h.ahead
  have hlen := h.laid.length_acc
  have hacc : l.acc = [] ↔ ¬l.accStart < l.accEnd := by
    rw [← List.length_eq_zero_iff]
    omega
  cases hahead with
  | output part todo htodo hend => simp [Logcat.stop, hend] at hstop
  | status f hexit hend => simp [Logcat.stop, hend] at hstop
  | exited f hexit hend ho he =>
    have hout' : out = l.acc := by rw [hout, ho, List.append_nil]
    have herr' : err = seen := by rw [herr, he, List.append_nil]
    refine ⟨hout', ?_⟩
    rw [Logcat.stop, hend] at hstop
    simp only at hstop
    rw [hexit, finish, hout', herr', ← hkept]
    simp only [hacc]
    split_ifs at hstop ⊢ <;> exact (Option.some.inj hstop).symm
  | closed hexit hend ho he =>
    refine ⟨by rw [hout, ho, List.append_nil], ?_⟩
    rw [Logcat.stop, hend] at hstop
    rw [hexit]
    exact (Option.some.inj hstop).symm

/-- **One turn.** -/
theorem Good.turn (hexit : ∀ f ∈ exit, IsExit f) (h : Good exit err l out) : Turned exit err l out l.turn := by
  obtain ⟨o, e, seen, hahead, hout, herr, hkept⟩ := h.ahead
  unfold Logcat.turn takeEntry
  cases hparse : parseEntry l.acc with
  | error e =>
    have hwhole : parseEntry out = .error e := by
      rw [hout, parseEntry_append _ (by rw [hparse]; simp), hparse]
    have hexp : expected exit err out = (.failed (.logcat e), out) := by
      rw [expected, hwhole]
    have hturned : Turned exit err l out (.returns (expected exit err out).1, l) :=
      .returns (by rw [hexp]; exact h) rfl
    rwa [hexp] at hturned
  | ok found =>
    cases found with
    | some found =>
      obtain ⟨entry, consumed⟩ := found
      have hwhole : parseEntry out = .ok (some (entry, consumed)) := by
        rw [hout, parseEntry_append _ (by rw [hparse]; simp), hparse]
      have hexp : expected exit err out = (.entry entry, out.drop consumed) := by
        rw [expected, hwhole]
      have hle := parseEntry_some_le hparse
      have hacc := h.laid.acc_le
      have hlen := h.laid.length_acc
      have hgood : Good exit err { l with accStart := l.accStart + consumed } (out.drop consumed) := by
        refine ⟨⟨?_, h.laid.mid_le, h.laid.unread_le, h.laid.tail_le⟩, h.room, o, e, seen, hahead, ?_, herr, hkept⟩
        · show l.accStart + consumed ≤ l.accEnd
          omega
        · rw [hout, List.drop_append_of_le_length hle]
          exact congrArg (· ++ o) drop_slice
      have hturned : Turned exit err l out
          (.returns (expected exit err out).1, { l with accStart := l.accStart + consumed }) :=
        .returns (by rw [hexp]; exact hgood) rfl
      rwa [hexp] at hturned
    | none =>
      simp only
      cases hstop : l.stop with
      | some failure =>
        obtain ⟨hall, hfailure⟩ := h.stop hstop
        have hexp : expected exit err out = (.failed failure, out) := by
          rw [expected, hall, hparse, hfailure, hall]
        have hturned : Turned exit err l out (.returns (expected exit err out).1, l) :=
          .returns (by rw [hexp]; exact h) rfl
        rwa [hexp] at hturned
      | none =>
        have hended : l.ended = .notYet := by
          unfold Logcat.stop at hstop
          split at hstop
          · assumption
          · split_ifs at hstop
          · cases hstop
        have hlen := h.laid.length_unread
        simp only
        split_ifs with hpayload hheader
        · obtain ⟨hgood, hrounds, hcuts⟩ := h.takePayload hended hpayload.1 hpayload.2
          exact .again hgood hrounds hcuts
        · obtain ⟨l', heq, hgood, hrounds, hcuts⟩ := h.takeHeader hexit hended hheader.1 hheader.2
          rw [heq]
          exact .again hgood hrounds hcuts
        · refine .fill hended (parseEntry_none_lt hparse) ?_ ?_
          · unfold headerSize at *
            omega
          · intro hleft
            exact List.eq_nil_of_length_eq_zero (by omega)

/-! ## A fill -/

/-- What a fill does to a session that has `out` to give. -/
inductive Filled (exit : Option ShellFrame) (err : Bytes) (l : Logcat) (out : Bytes) :
    Option (Except Error Unit) × Logcat → Prop
  | dropped {l' : Logcat} (hgood : Good exit err l' out) (hcuts : l'.cuts.count 0 + 1 = l.cuts.count 0) :
      Filled exit err l out (none, l')
  | read {l' : Logcat} (hgood : Good exit err l' out) (hrounds : l'.rounds < l.rounds)
      (hcuts : l'.cuts.count 0 ≤ l.cuts.count 0) : Filled exit err l out (some (.ok ()), l')
  | closed {l' : Logcat} (hgood : Good exit err { l' with ended := .closedWithoutExit } out)
      (hrounds : ({ l' with ended := .closedWithoutExit } : Logcat).rounds < l.rounds)
      (hcuts : l'.cuts.count 0 ≤ l.cuts.count 0) : Filled exit err l out (some (.error .channelClosed), l')

theorem encodeAll_short {fs : List ShellFrame} (h : (encodeAll fs).length < headerSize) : fs = [] := by
  cases fs with
  | nil => rfl
  | cons f fs =>
    rw [encodeAll_cons, List.length_append, f.length_encode] at h
    omega

/-- A session that waits for a header or a payload with nothing more to come has had all of the output. -/
theorem Good.closed (hexit : ∀ f ∈ exit, IsExit f) (h : Good exit err l out) (hended : l.ended = .notYet)
    (hfew : l.unread.length < headerSize) (hframe : 0 < l.frameLeft → l.unread = []) (hover : l.stream = []) :
    Good exit err { l with ended := .closedWithoutExit } out := by
  obtain ⟨o, e, seen, hahead, hout, herr, hkept⟩ := h.ahead
  refine ⟨⟨h.laid.acc_le, h.laid.mid_le, h.laid.unread_le, h.laid.tail_le⟩, h.room, o, e, seen, ?_, hout, herr, hkept⟩
  rw [hover, List.append_nil] at hahead
  cases hahead with
  | output part todo htodo hend hid hpart hbytes ho he =>
    have hnil : part = [] := by
      by_contra hne
      have hpos : 0 < part.length := List.length_pos_iff.mpr hne
      rw [hframe (by omega)] at hbytes
      exact hne (List.append_eq_nil_iff.mp hbytes.symm).1
    subst hnil
    rw [List.nil_append] at hbytes
    have hnone := encodeAll_short (by rw [← hbytes]; exact hfew)
    obtain ⟨htodo', hexit'⟩ := List.append_eq_nil_iff.mp hnone
    subst htodo'
    refine .closed (Option.toList_eq_nil_iff.mp hexit') rfl ?_ ?_
    · rw [ho]
      simp [textOf]
    · rw [he]
      simp [textOf]
  | status f hx hend hid hpart hbytes ho he =>
    have hne := (hexit f hx).2
    have hpos : 0 < f.payload.length := List.length_pos_iff.mpr hne
    exact absurd (hbytes.symm.trans (hframe (by omega))) hne
  | exited f hx hend | closed hx hend => exact absurd (hended.symm.trans hend) (by simp)

/-- A read into the room behind the tail. -/
theorem Good.channelRead (hexit : ∀ f ∈ exit, IsExit f) (h : Good exit err l out) (hended : l.ended = .notYet)
    (hfew : l.unread.length < headerSize) (hframe : 0 < l.frameLeft → l.unread = [])
    (hroom : l.tail < l.buf.length) : Filled exit err l out l.channelRead := by
  unfold Logcat.channelRead
  split_ifs with hdrop hover
  · refine .dropped ⟨⟨h.laid.acc_le, h.laid.mid_le, h.laid.unread_le, h.laid.tail_le⟩, h.room, h.ahead⟩ ?_
    obtain ⟨rest, hcuts⟩ := List.head?_eq_some_iff.mp hdrop
    rw [hcuts]
    simp
  · refine .closed (h.closed hexit hended hfew hframe hover) ?_ le_rfl
    show 2 * l.stream.length + (l.tail - l.head) + 0 < 2 * l.stream.length + (l.tail - l.head) + _
    rw [if_pos hended]
    omega
  · obtain ⟨n, hn⟩ : ∃ n, n = min (l.cuts.headD (l.buf.length - l.tail)) (l.buf.length - l.tail) := ⟨_, rfl⟩
    have hpos : 0 < n := by
      have hcut : l.cuts.headD (l.buf.length - l.tail) ≠ 0 := by
        cases hcuts : l.cuts with
        | nil =>
          show l.buf.length - l.tail ≠ 0
          omega
        | cons c cs =>
          rintro hzero
          rw [hcuts] at hdrop
          exact hdrop (congrArg some hzero)
      omega
    simp only [← hn]
    have hgot : (l.stream.take n).length = min n l.stream.length := List.length_take
    have hsome : 0 < l.stream.length := List.length_pos_iff.mpr hover
    have hwithin : Within l.buf l.head l.tail := ⟨h.laid.unread_le, h.laid.tail_le⟩
    obtain ⟨hput, hslice, hlen⟩ := hwithin.put (d := l.stream.take n) (by omega)
    have hall : l.stream.take n ++ l.stream.drop (l.stream.take n).length = l.stream :=
      (List.prefix_iff_eq_append.mp (List.take_prefix n l.stream))
    obtain ⟨o, e, seen, hahead, hout, herr, hkept⟩ := h.ahead
    refine .read ⟨⟨h.laid.acc_le, h.laid.mid_le, hput.head_le, hput.tail_le⟩, h.room.trans_eq hlen.symm, o, e, seen,
      ?_, ?_, herr, hkept⟩ ?_ ?_
    · show Ahead exit l.ended l.frameId l.frameLeft
        (slice (splice l.buf l.tail (l.stream.take n)) l.head (l.tail + (l.stream.take n).length) ++
          l.stream.drop (l.stream.take n).length) o e
      rw [hslice, List.append_assoc, hall]
      exact hahead
    · rw [hout]
      exact congrArg (· ++ o) (slice_splice_before (h.laid.mid_le.trans h.laid.unread_le) h.laid.tail_le).symm
    · show 2 * (l.stream.drop (l.stream.take n).length).length + (l.tail + (l.stream.take n).length - l.head) +
        (if l.ended = .notYet then 1 else 0) < 2 * l.stream.length + (l.tail - l.head) + _
      have hu := h.laid.unread_le
      rw [List.length_drop]
      omega
    · exact List.Sublist.count_le _ (List.tail_sublist _)

theorem Moved.rounds {l' : Logcat} (h : Moved l l') (hl : Laid l) : l'.rounds = l.rounds := by
  rw [Logcat.rounds, Logcat.rounds, h.stream, h.ended, ← hl.length_unread, ← h.laid.length_unread, h.unread]

/-- **A fill always finds room.** -/
theorem Good.fill (hexit : ∀ f ∈ exit, IsExit f) (h : Good exit err l out) (hended : l.ended = .notYet)
    (hacc : l.acc.length < loggerEntryMaxLen) (hfew : l.unread.length < headerSize)
    (hframe : 0 < l.frameLeft → l.unread = []) : Filled exit err l out l.fill := by
  unfold Logcat.fill
  have hbuf := h.room
  obtain ⟨hmoved, htail⟩ := compact_moved h.laid
  have hlen := hmoved.length
  split_ifs with hfull hstill
  · unfold headerSize at hfew
    omega
  · have hread := (h.moved hmoved).channelRead hexit (hmoved.ended.trans hended) (by rw [hmoved.unread]; exact hfew)
      (by rw [hmoved.unread, hmoved.frameLeft]; exact hframe) (by have := hmoved.laid.tail_le; omega)
    generalize l.compact.channelRead = r at hread ⊢
    cases hread with
    | dropped hgood hcuts => exact .dropped hgood (hcuts.trans (congrArg (List.count 0) hmoved.cuts))
    | read hgood hrounds hcuts =>
      exact .read hgood (hrounds.trans_eq (hmoved.rounds h.laid)) (hcuts.trans_eq (congrArg (List.count 0) hmoved.cuts))
    | closed hgood hrounds hcuts =>
      exact .closed hgood (hrounds.trans_eq (hmoved.rounds h.laid))
        (hcuts.trans_eq (congrArg (List.count 0) hmoved.cuts))
  · exact h.channelRead hexit hended hfew hframe (by have := h.laid.tail_le; omega)

/-! ## Whole calls -/

/-- What a call does to a session that has `out` to give. -/
inductive Answered (exit : Option ShellFrame) (err : Bytes) (l : Logcat) (out : Bytes) : Answer × Logcat → Prop
  | dropped {l' : Logcat} (hgood : Good exit err l' out) (hcuts : l'.cuts.count 0 + 1 ≤ l.cuts.count 0) :
      Answered exit err l out (.dropped, l')
  | returns {l' : Logcat} (hgood : Good exit err l' (expected exit err out).2)
      (hcuts : l'.cuts.count 0 ≤ l.cuts.count 0) : Answered exit err l out ((expected exit err out).1, l')

theorem Answered.earlier {m : Logcat} {r : Answer × Logcat} (h : Answered exit err m out r)
    (hcuts : m.cuts.count 0 ≤ l.cuts.count 0) : Answered exit err l out r := by
  cases h with
  | dropped hgood hfewer => exact .dropped hgood (hfewer.trans hcuts)
  | returns hgood hfewer => exact .returns hgood (hfewer.trans hcuts)

theorem Good.readLoop (hexit : ∀ f ∈ exit, IsExit f) {fuel : ℕ} (h : Good exit err l out) (hfuel : l.rounds < fuel) :
    ∃ r, readLoop fuel l = some r ∧ Answered exit err l out r := by
  induction fuel generalizing l with
  | zero => exact absurd hfuel (Nat.not_lt_zero _)
  | succ fuel ih =>
    have hturn := h.turn hexit
    unfold Logcat.readLoop
    generalize l.turn = t at hturn
    cases hturn with
    | returns hgood hcuts => exact ⟨_, rfl, .returns hgood (congrArg (List.count 0) hcuts).le⟩
    | again hgood hrounds hcuts =>
      obtain ⟨r, hrun, hanswer⟩ := ih hgood (by omega)
      exact ⟨r, hrun, hanswer.earlier (congrArg (List.count 0) hcuts).le⟩
    | fill hended hacc hfew hframe =>
      have hfill := h.fill hexit hended hacc hfew hframe
      simp only
      generalize l.fill = f at hfill
      cases hfill with
      | dropped hgood hcuts => exact ⟨_, rfl, .dropped hgood hcuts.le⟩
      | read hgood hrounds hcuts | closed hgood hrounds hcuts =>
        obtain ⟨r, hrun, hanswer⟩ := ih hgood (by omega)
        exact ⟨r, hrun, hanswer.earlier hcuts⟩

/-- The answers of the calls that were not dropped. -/
def returned (answers : List Answer) : List Answer := answers.filter (· != .dropped)

theorem expected_ne_dropped (exit : Option ShellFrame) (err out : Bytes) :
    (expected exit err out).1 ≠ .dropped := by
  unfold expected
  split <;> simp

theorem Good.calls (hexit : ∀ f ∈ exit, IsExit f) (k : ℕ) (h : Good exit err l out) :
    ∃ answers l', calls k l = some (answers, l') ∧ answers.length = k ∧
      answers.count .dropped ≤ l.cuts.count 0 ∧
      returned answers = reference exit err (returned answers).length out := by
  induction k generalizing l out with
  | zero => exact ⟨[], l, rfl, rfl, Nat.zero_le _, rfl⟩
  | succ k ih =>
    obtain ⟨⟨a, m⟩, hread, hanswer⟩ := h.readLoop hexit (Nat.lt_succ_self l.rounds)
    have hfirst : ∀ answers l', Logcat.calls k m = some (answers, l') →
        Logcat.calls (k + 1) l = some (a :: answers, l') := by
      intro answers l' hrest
      simp only [Logcat.calls, readEntry, hread, hrest, Option.bind_eq_bind, Option.bind_some, Option.pure_def]
    cases hanswer with
    | dropped hgood hcuts =>
      obtain ⟨answers, l', hrest, hlen, hcount, hall⟩ := ih hgood
      refine ⟨.dropped :: answers, l', hfirst _ _ hrest, congrArg (· + 1) hlen, ?_, hall⟩
      rw [List.count_cons_self]
      omega
    | returns hgood hcuts =>
      obtain ⟨answers, l', hrest, hlen, hcount, hall⟩ := ih hgood
      have hne := expected_ne_dropped exit err out
      have hkept : returned ((expected exit err out).1 :: answers) =
          (expected exit err out).1 :: returned answers := by
        rw [returned, List.filter_cons_of_pos (by simpa using hne)]
        rfl
      refine ⟨_, l', hfirst _ _ hrest, congrArg (· + 1) hlen, ?_, ?_⟩
      · rw [List.count_cons_of_ne hne]
        omega
      · rw [hkept, List.length_cons, reference, ← hall]

/-- **Decoding is independent of framing and of how the channel cuts the stream.**  With a buffer four bytes longer
than the longest entry, any output frames and, behind them, a status or none, every call comes to an answer, is dropped
only where the cuts say so, and the calls that were not dropped answer as a parser does that has all of the output
before it. -/
theorem entries_survive (buf : Bytes) (hbuf : loggerEntryMaxLen + 4 ≤ buf.length) (frames : List ShellFrame)
    (hframes : ∀ f ∈ frames, IsOutput f) (exit : Option ShellFrame) (hexit : ∀ f ∈ exit, IsExit f) (cuts : List ℕ)
    (k : ℕ) :
    ∃ answers l, calls k (.new (encodeAll (frames ++ exit.toList)) cuts buf) = some (answers, l) ∧
      answers.length = k ∧ answers.count .dropped ≤ cuts.count 0 ∧
      returned answers =
        reference exit (textOf .stderr frames) (returned answers).length (textOf .stdout frames) :=
  (Good.new frames hframes cuts buf hbuf).calls hexit k

/-- An entry of one tag and no message, cut behind its first two bytes by a warning, and a clean exit. -/
def sampleFrames : List ShellFrame :=
  [⟨1, [3, 0], by decide⟩, ⟨2, [87], by decide⟩,
    ⟨1, [24, 0, 7, 0, 0, 0, 0, 0, 0, 0, 0, 0, 0, 0, 0, 0, 0, 0, 0, 0, 0, 0, 4, 65, 0], by decide⟩]

def sampleExit : Option ShellFrame := some ⟨3, [0], by decide⟩

theorem entries_survive_sample :
    (∃ answers l, calls 5 (.new (encodeAll (sampleFrames ++ sampleExit.toList)) [3, 0, 1, 4, 0]
        (List.replicate (loggerEntryMaxLen + 4) 0)) = some (answers, l) ∧
      answers.length = 5 ∧ answers.count .dropped ≤ 2 ∧
      returned answers = reference sampleExit [87] (returned answers).length (textOf .stdout sampleFrames)) ∧
    reference sampleExit [87] 3 (textOf .stdout sampleFrames) =
      [.entry ⟨7, 0, 0, 0, 0, .main, .info, [65], []⟩, .failed .channelClosed, .failed .channelClosed] := by
  refine ⟨?_, by decide⟩
  exact entries_survive (List.replicate (loggerEntryMaxLen + 4) 0) (by rw [List.length_replicate]) sampleFrames
    (by decide) sampleExit (by rintro f ⟨rfl⟩; decide) [3, 0, 1, 4, 0] 5

end Logcat

end LibAdb
