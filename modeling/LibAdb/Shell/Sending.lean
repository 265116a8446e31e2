import LibAdb.Shell.Decoder

/-!
# LibAdb.Shell.Sending — frames to the device, next to frames from it

`Shell::send_frame` of `shell/v2.rs`: the frame is put together behind the unread bytes if it fits there, after they
were moved to the front, and goes out in two writes if it does not.  What is written is the frame either way
(`sendFrame_writes`), and the decoder's view stays as it was (`sendFrame_kept`).

What `try_next_raw_ref` answers is a function of that view (`tryNextRawRef_eq`).  A read fills more of the buffer after
its unread bytes were moved, so a long frame may be cut into other pieces; `tagged` is what an item says whatever the
cuts are.  Every run, with any frames sent in between, hands out the same (`Sound.step`): what a decoder would that had
the whole stream in front of it.
-/

namespace LibAdb.ShellV2

open Runs Slices

/-! ## Decoding, on the unread bytes -/

namespace View

/-- The view with more bytes behind the unread ones. -/
def ahead (v : View) (rest : Bytes) : View := { v with unread := v.unread ++ rest }

variable [Usize]

/-- `try_next_raw_ref` over a buffer of length `cap`, with the cursors left out. -/
def next (cap : ℕ) (v : View) : Except ProtocolError (Option RawItem) × View :=
  if 0 < v.largeRemaining then
    if v.unread = [] then (.ok none, v)
    else
      (.ok (some (v.largeId, v.unread.take v.largeRemaining)),
        ⟨v.unread.drop v.largeRemaining, v.largeId, v.largeRemaining - v.unread.length⟩)
  else if v.unread.length < headerSize then (.ok none, v)
  else
    let h := parseHeader (v.unread.take headerSize)
    let body := v.unread.drop headerSize
    if usizeMax < headerSize + h.2.toNat then (.error .payloadTooLarge, v)
    else if cap < headerSize + h.2.toNat then
      if body = [] then (.ok none, ⟨[], h.1, h.2.toNat⟩)
      else (.ok (some (h.1, body.take h.2.toNat)), ⟨body.drop h.2.toNat, h.1, h.2.toNat - body.length⟩)
    else if body.length < h.2.toNat then (.ok none, v)
    else (.ok (some (h.1, body.take h.2.toNat)), ⟨body.drop h.2.toNat, v.largeId, v.largeRemaining⟩)

end View

namespace FrameDecoder

variable {d : FrameDecoder} {rx : Bytes}

theorem consumeLargeRef_view (h : Within rx d.head d.tail) :
    (d.consumeLargeRef rx (d.tail - d.head)).1 = (d.largeId, (d.view rx).unread.take d.largeRemaining) ∧
      (d.consumeLargeRef rx (d.tail - d.head)).2.view rx =
        ⟨(d.view rx).unread.drop d.largeRemaining, d.largeId, d.largeRemaining - (d.view rx).unread.length⟩ := by
  obtain ⟨hitem, hview, -⟩ := consumeLargeRef_spec h
  rw [hitem, hview, Nat.min_comm, ← List.take_eq_take_min, ← List.drop_eq_drop_min]
  refine ⟨rfl, ?_⟩
  congr 1
  omega

variable [Usize]

/-- **`try_next_raw_ref` looks at the view only.** -/
theorem tryNextRawRef_eq (h : Within rx d.head d.tail) :
    (d.tryNextRawRef rx).1 = ((d.view rx).next rx.length).1 ∧
      (d.tryNextRawRef rx).2.view rx = ((d.view rx).next rx.length).2 ∧
      Within rx (d.tryNextRawRef rx).2.head (d.tryNextRawRef rx).2.tail := by
  have h1 := h.head_le
  have h2 := h.tail_le
  have hlen : (d.view rx).unread.length = d.tail - d.head := length_slice h2
  have hempty : (d.view rx).unread = [] ↔ d.tail - d.head = 0 := by
    rw [← List.length_eq_zero_iff, hlen]
  unfold tryNextRawRef View.next
  by_cases hlarge : 0 < d.largeRemaining
  · rw [if_pos hlarge, if_pos (show 0 < (d.view rx).largeRemaining from hlarge)]
    by_cases hnone : d.tail - d.head = 0
    · rw [if_pos hnone, if_pos (hempty.mpr hnone)]
      exact ⟨rfl, rfl, h⟩
    · rw [if_neg hnone, if_neg (fun hnil => hnone (hempty.mp hnil))]
      obtain ⟨hitem, hview⟩ := consumeLargeRef_view h
      dsimp only
      rw [hitem, hview]
      exact ⟨rfl, rfl, (consumeLargeRef_spec h).2.2⟩
  rw [if_neg hlarge, if_neg (show ¬ 0 < (d.view rx).largeRemaining from hlarge), hlen]
  by_cases hshort : d.tail - d.head < headerSize
  · rw [if_pos hshort, if_pos hshort]
    exact ⟨rfl, rfl, h⟩
  rw [if_neg hshort, if_neg hshort]
  -- a whole header is there
  have hhdr : (d.view rx).unread.take headerSize = slice rx d.head (d.head + headerSize) := take_slice (by omega)
  have hbody : (d.view rx).unread.drop headerSize = slice rx (d.head + headerSize) d.tail := drop_slice
  have hblen : (slice rx (d.head + headerSize) d.tail).length = d.tail - (d.head + headerSize) := length_slice h2
  rw [hhdr, hbody]
  extract_lets hdr
  by_cases hover : usizeMax < headerSize + hdr.2.toNat
  · rw [if_pos hover, if_pos hover]
    exact ⟨rfl, rfl, h⟩
  rw [if_neg hover, if_neg hover]
  by_cases hlong : rx.length < headerSize + hdr.2.toNat
  · rw [if_pos hlong, if_pos hlong]
    have hbempty : slice rx (d.head + headerSize) d.tail = [] ↔ d.tail - (d.head + headerSize) = 0 := by
      rw [← List.length_eq_zero_iff, hblen]
    have hwithin : Within rx (d.head + headerSize) d.tail := ⟨by omega, h2⟩
    by_cases havail : d.tail - (d.head + headerSize) = 0
    · rw [if_pos havail, if_pos (hbempty.mpr havail)]
      refine ⟨rfl, ?_, resetIfDrained_within hwithin⟩
      rw [resetIfDrained_view]
      show View.mk (slice rx (d.head + headerSize) d.tail) hdr.1 hdr.2.toNat = _
      rw [hbempty.mpr havail]
    · rw [if_neg havail, if_neg (fun hnil => havail (hbempty.mp hnil))]
      obtain ⟨hitem, hview⟩ := consumeLargeRef_view (d := { d with
        largeId := hdr.1, largeRemaining := hdr.2.toNat, head := d.head + headerSize }) hwithin
      dsimp only at hitem hview ⊢
      rw [hitem, hview]
      exact ⟨rfl, rfl, (consumeLargeRef_spec (d := { d with
        largeId := hdr.1, largeRemaining := hdr.2.toNat, head := d.head + headerSize }) hwithin).2.2⟩
  rw [if_neg hlong, if_neg hlong, hblen]
  by_cases hwait : d.tail - d.head < headerSize + hdr.2.toNat
  · rw [if_pos hwait, if_pos (by omega)]
    exact ⟨rfl, rfl, h⟩
  · rw [if_neg hwait, if_neg (by omega)]
    refine ⟨?_, ?_, resetIfDrained_within ⟨by dsimp only; omega, h2⟩⟩
    · dsimp only
      rw [take_slice (by omega)]
    · rw [resetIfDrained_view, drop_slice]
      rfl

end FrameDecoder

/-! ## What items say, whatever the cuts -/

/-- A byte of a frame under its id, or an empty frame. -/
abbrev Tagged := Except Byte FrameId × Option Byte

def tagged (item : RawItem) : List Tagged :=
  if item.2 = [] then [(item.1, none)] else item.2.map fun b => (item.1, some b)

/-- Pieces that are not empty can be put together. -/
theorem tagged_append {id : Except Byte FrameId} {p q : Bytes} (hp : p ≠ []) (hq : q ≠ []) :
    tagged (id, p ++ q) = tagged (id, p) ++ tagged (id, q) := by
  have hpq : p ++ q ≠ [] := List.append_ne_nil_of_left_ne_nil hp q
  simp only [tagged, if_neg hp, if_neg hq, if_neg hpq, List.map_append]

namespace View

variable [Usize] {cap : ℕ} {v v' : View} {item : RawItem}

theorem next_large (hlarge : 0 < v.largeRemaining) (hunread : v.unread ≠ []) :
    v.next cap = (.ok (some (v.largeId, v.unread.take v.largeRemaining)),
      ⟨v.unread.drop v.largeRemaining, v.largeId, v.largeRemaining - v.unread.length⟩) := by
  rw [next, if_pos hlarge, if_neg hunread]

/-- With a whole header in front. -/
theorem next_header {hdr body : Bytes} (hlarge : v.largeRemaining = 0) (hunread : v.unread = hdr ++ body)
    (hlen : hdr.length = headerSize) :
    v.next cap =
      if usizeMax < headerSize + (parseHeader hdr).2.toNat then (.error .payloadTooLarge, v)
      else if cap < headerSize + (parseHeader hdr).2.toNat then
        if body = [] then (.ok none, ⟨[], (parseHeader hdr).1, (parseHeader hdr).2.toNat⟩)
        else (.ok (some ((parseHeader hdr).1, body.take (parseHeader hdr).2.toNat)),
          ⟨body.drop (parseHeader hdr).2.toNat, (parseHeader hdr).1, (parseHeader hdr).2.toNat - body.length⟩)
      else if body.length < (parseHeader hdr).2.toNat then (.ok none, v)
      else (.ok (some ((parseHeader hdr).1, body.take (parseHeader hdr).2.toNat)),
        ⟨body.drop (parseHeader hdr).2.toNat, v.largeId, v.largeRemaining⟩) := by
  have hshort : ¬ v.unread.length < headerSize := by
    rw [hunread, List.length_append]
    omega
  rw [next, if_neg (by omega), if_neg hshort, hunread, List.take_left' hlen, List.drop_left' hlen]

/-- An answer is one of those of `Next`. -/
theorem next_ok {a : Option RawItem} (h : v.next cap = (.ok a, v')) : Next cap v a v' := by
  by_cases hlarge : 0 < v.largeRemaining
  · by_cases hunread : v.unread = []
    · rw [next, if_pos hlarge, if_pos hunread] at h
      obtain ⟨h1, rfl⟩ := Prod.mk.inj h
      obtain rfl := Except.ok.inj h1
      exact .starved hlarge hunread
    · rw [next_large hlarge hunread] at h
      obtain ⟨h1, rfl⟩ := Prod.mk.inj h
      obtain rfl := Except.ok.inj h1
      have hpiece := @Next.piece cap v _ hlarge hunread rfl
      rw [Nat.min_comm, ← List.take_eq_take_min, ← List.drop_eq_drop_min] at hpiece
      rwa [show v.largeRemaining - min v.largeRemaining v.unread.length = v.largeRemaining - v.unread.length by omega]
        at hpiece
  have hzero : v.largeRemaining = 0 := Nat.eq_zero_of_not_pos hlarge
  by_cases hshort : v.unread.length < headerSize
  · rw [next, if_neg hlarge, if_pos hshort] at h
    obtain ⟨h1, rfl⟩ := Prod.mk.inj h
    obtain rfl := Except.ok.inj h1
    exact .short hzero hshort
  have hsplit : v.unread = v.unread.take headerSize ++ v.unread.drop headerSize := (List.take_append_drop _ _).symm
  have hlen : (v.unread.take headerSize).length = headerSize := by
    rw [List.length_take]
    omega
  rw [next_header hzero hsplit hlen] at h
  set hdr := v.unread.take headerSize
  set body := v.unread.drop headerSize
  split_ifs at h with hover hlong hbody hwait
  · cases h
  · obtain ⟨h1, rfl⟩ := Prod.mk.inj h
    obtain rfl := Except.ok.inj h1
    exact .header hdr hzero (by rw [hsplit, hbody, List.append_nil]) hlen hlong
  · obtain ⟨h1, rfl⟩ := Prod.mk.inj h
    obtain rfl := Except.ok.inj h1
    have hbegins := @Next.begins cap v hdr body _ hzero hsplit hlen hbody hlong rfl
    rw [Nat.min_comm, ← List.take_eq_take_min, ← List.drop_eq_drop_min] at hbegins
    rwa [show (parseHeader hdr).2.toNat - min (parseHeader hdr).2.toNat body.length =
      (parseHeader hdr).2.toNat - body.length by omega] at hbegins
  · obtain ⟨h1, rfl⟩ := Prod.mk.inj h
    obtain rfl := Except.ok.inj h1
    exact .waits hdr body hzero hsplit hlen (not_lt.mp hlong) hwait
  · obtain ⟨h1, rfl⟩ := Prod.mk.inj h
    obtain rfl := Except.ok.inj h1
    rw [hzero]
    exact .whole hdr body hzero hsplit hlen (not_lt.mp hlong) (not_lt.mp hwait)

/-- A header that is out of range stays in front. -/
theorem next_error {e : ProtocolError} (h : (v.next cap).1 = .error e) : (v.next cap).2 = v := by
  by_cases hlarge : 0 < v.largeRemaining
  · by_cases hunread : v.unread = []
    · rw [next, if_pos hlarge, if_pos hunread]
    · rw [next_large hlarge hunread] at h
      cases h
  by_cases hshort : v.unread.length < headerSize
  · rw [next, if_neg hlarge, if_pos hshort]
  have hlen : (v.unread.take headerSize).length = headerSize := by
    rw [List.length_take]
    omega
  rw [next_header (Nat.eq_zero_of_not_pos hlarge) (List.take_append_drop _ _).symm hlen] at h ⊢
  split_ifs at h ⊢
  rfl

/-- What a decoder hands out that has all of its stream in front of it. -/
def drain (cap : ℕ) (v : View) : List Tagged :=
  match _h : v.next cap with
  | (.ok (some item), v') => tagged item ++ drain cap v'
  | (.ok none, _) => []
  | (.error _, _) => []
termination_by v.unread.length
decreasing_by exact (next_ok _h).some_shorter

theorem drain_some (h : v.next cap = (.ok (some item), v')) : v.drain cap = tagged item ++ v'.drain cap := by
  rw [drain]
  split
  · rename_i item1 v1 h1
    rw [h] at h1
    obtain ⟨h2, rfl⟩ := Prod.mk.inj h1
    obtain rfl := Option.some.inj (Except.ok.inj h2)
    rfl
  · rename_i h1
    rw [h] at h1
    cases h1
  · rename_i h1
    rw [h] at h1
    cases h1

theorem drain_nothing (h : ∀ item, (v.next cap).1 ≠ .ok (some item)) : v.drain cap = [] := by
  rw [drain]
  split
  · rename_i item1 v1 h1
    exact absurd (congrArg Prod.fst h1) (h item1)
  · rfl
  · rfl

/-- A frame that is read in pieces: the first piece, and then the rest of the stream. -/
theorem drain_large (rest : Bytes) (hlarge : 0 < v.largeRemaining) (hunread : v.unread ≠ []) :
    (v.ahead rest).drain cap = tagged (v.largeId, v.unread.take v.largeRemaining) ++
      (View.mk (v.unread.drop v.largeRemaining) v.largeId (v.largeRemaining - v.unread.length) |>.ahead rest).drain
        cap := by
  have hpos := List.length_pos_of_ne_nil hunread
  have hne : (v.ahead rest).unread ≠ [] := List.append_ne_nil_of_left_ne_nil hunread rest
  rw [drain_some (next_large (v := v.ahead rest) hlarge hne)]
  show tagged (v.largeId, (v.unread ++ rest).take v.largeRemaining) ++
    drain cap ⟨(v.unread ++ rest).drop v.largeRemaining, v.largeId, v.largeRemaining - (v.unread ++ rest).length⟩ =
      tagged (v.largeId, v.unread.take v.largeRemaining) ++
        drain cap ⟨v.unread.drop v.largeRemaining ++ rest, v.largeId, v.largeRemaining - v.unread.length⟩
  by_cases hends : v.largeRemaining ≤ v.unread.length
  · -- the frame ends in what is there
    rw [List.take_append_of_le_length hends, List.drop_append_of_le_length hends, List.length_append,
      Nat.sub_eq_zero_of_le (by omega), Nat.sub_eq_zero_of_le hends]
  · rw [List.take_of_length_le (not_le.mp hends).le, List.drop_of_length_le (not_le.mp hends).le, List.nil_append]
    by_cases hrest : rest = []
    · rw [hrest, List.append_nil, List.take_of_length_le (not_le.mp hends).le,
        List.drop_of_length_le (not_le.mp hends).le]
    · have hleft : 0 < v.largeRemaining - v.unread.length := by omega
      have hsome : rest.take (v.largeRemaining - v.unread.length) ≠ [] := by
        intro hnil
        rcases List.take_eq_nil_iff.mp hnil with h0 | h0
        · omega
        · exact hrest h0
      rw [drain_some (next_large (v := ⟨rest, v.largeId, v.largeRemaining - v.unread.length⟩) hleft hrest),
        ← List.append_assoc, ← tagged_append hunread hsome, List.take_append,
        List.take_of_length_le (not_le.mp hends).le, List.drop_append, List.drop_of_length_le (not_le.mp hends).le,
        List.nil_append, List.length_append, Nat.sub_sub]

/-- The header of a frame that is read in pieces says nothing by itself. -/
theorem drain_header {hdr body : Bytes} (hcap : headerSize ≤ cap) (hlarge : v.largeRemaining = 0)
    (hunread : v.unread = hdr ++ body) (hlen : hdr.length = headerSize)
    (hover : ¬ usizeMax < headerSize + (parseHeader hdr).2.toNat)
    (hlong : cap < headerSize + (parseHeader hdr).2.toNat) :
    v.drain cap = (View.mk body (parseHeader hdr).1 (parseHeader hdr).2.toNat).drain cap := by
  have hnext := @next_header _ cap v hdr body hlarge hunread hlen
  rw [if_neg hover, if_pos hlong] at hnext
  have hpos : 0 < (View.mk body (parseHeader hdr).1 (parseHeader hdr).2.toNat).largeRemaining := by
    show 0 < (parseHeader hdr).2.toNat
    omega
  by_cases hbody : body = []
  · rw [if_pos hbody] at hnext
    rw [drain_nothing, drain_nothing]
    · intro item hitem
      rw [next, if_pos hpos, if_pos hbody] at hitem
      cases hitem
    · intro item hitem
      rw [hnext] at hitem
      cases hitem
  · rw [if_neg hbody] at hnext
    rw [drain_some hnext, drain_some (next_large hpos hbody)]

/-- **One answer more**: what it says, and then the rest of the stream. -/
theorem drain_next {a : Option RawItem} (hcap : headerSize ≤ cap) (h : v.next cap = (.ok a, v')) (rest : Bytes) :
    (v.ahead rest).drain cap = a.toList.flatMap tagged ++ (v'.ahead rest).drain cap := by
  have hsome : ∀ item : RawItem, (some item).toList.flatMap tagged = tagged item := fun item => List.append_nil _
  -- an answer was given, so no header was out of range
  have hover : ∀ {hdr body : Bytes}, v.largeRemaining = 0 → v.unread = hdr ++ body → hdr.length = headerSize →
      ¬ usizeMax < headerSize + (parseHeader hdr).2.toNat := by
    intro hdr body hlarge hunread hlen hover
    rw [next_header hlarge hunread hlen, if_pos hover] at h
    cases h
  cases next_ok h with
  | starved | short | waits => rfl
  | piece n hlarge hunread hn =>
    rw [next_large hlarge hunread] at h
    obtain ⟨h1, h2⟩ := Prod.mk.inj h
    rw [← Except.ok.inj h1, ← h2, hsome]
    exact drain_large rest hlarge hunread
  | header hdr hlarge hunread hlen hlong =>
    have hunread' : v.unread = hdr ++ [] := by rw [hunread, List.append_nil]
    exact drain_header (v := v.ahead rest) hcap hlarge (congrArg (· ++ rest) hunread) hlen
      (hover hlarge hunread' hlen) hlong
  | begins hdr body n hlarge hunread hlen hbody hlong hn =>
    have hbound := hover hlarge hunread hlen
    rw [next_header hlarge hunread hlen, if_neg hbound, if_pos hlong, if_neg hbody] at h
    obtain ⟨h1, h2⟩ := Prod.mk.inj h
    rw [← Except.ok.inj h1, ← h2, hsome]
    have hunread' : (v.ahead rest).unread = hdr ++ (body ++ rest) := by
      rw [← List.append_assoc, ← hunread]
      rfl
    rw [drain_header (v := v.ahead rest) hcap hlarge hunread' hlen hbound hlong]
    exact drain_large (v := ⟨body, (parseHeader hdr).1, (parseHeader hdr).2.toNat⟩) rest
      (show 0 < (parseHeader hdr).2.toNat by omega) hbody
  | whole hdr body hlarge hunread hlen hfits hlong =>
    have hbound := hover hlarge hunread hlen
    have hunread' : (v.ahead rest).unread = hdr ++ (body ++ rest) := by
      rw [← List.append_assoc, ← hunread]
      rfl
    have hnext := @next_header _ cap (v.ahead rest) hdr (body ++ rest) hlarge hunread' hlen
    rw [if_neg hbound, if_neg (not_lt.mpr hfits), if_neg (by rw [List.length_append]; omega),
      List.take_append_of_le_length hlong, List.drop_append_of_le_length hlong] at hnext
    rw [drain_some hnext, hsome]
    show _ ++ drain cap ⟨_, v.largeId, v.largeRemaining⟩ = _
    rw [hlarge]
    rfl

end View

/-! ## Sending -/

/-- A session, what becomes of the next writes to its channel, and what was written to it. -/
structure Talking where
  reading : Reading
  faults : List (Option Error)
  written : List Bytes

namespace Talking

/-- `channel.write` -/
def channelWrite (t : Talking) (bytes : Bytes) : Except Error Unit × Talking :=
  ((t.faults.head?.join).elim (.ok ()) .error, { t with faults := t.faults.tail, written := t.written ++ [bytes] })

def withShell (t : Talking) (shell : Shell) : Talking := { t with reading := { t.reading with shell := shell } }

/-- `decoder.compact` -/
def compacted (t : Talking) : Talking :=
  let (decoder, rx) := t.reading.shell.decoder.compact t.reading.shell.rx
  t.withShell ⟨rx, decoder⟩

/-- The frame is put together in the free tail and written from there. -/
def writeAssembled (t : Talking) (frame : Bytes) : Except Error Unit × Talking :=
  let start := t.reading.shell.decoder.tail
  let rx := splice t.reading.shell.rx start frame
  (t.withShell ⟨rx, t.reading.shell.decoder⟩).channelWrite (slice rx start (start + frame.length))

/-- Header and payload go as two writes. -/
def writeParts (t : Talking) (hdr payload : Bytes) : Except Error Unit × Talking :=
  match t.channelWrite hdr with
  | (.error e, t) => (.error e, t)
  | (.ok (), t) => if payload = [] then (.ok (), t) else t.channelWrite payload

/-- `send_frame` -/
def sendFrame (t : Talking) (id : FrameId) (payload : Bytes) : Except Error Unit × Talking :=
  if 2 ^ 32 ≤ payload.length then (.error (.protocol .payloadTooLarge), t)
  else
    let hdr := id.toByte :: toLeBytes (UInt32.ofNat payload.length)
    let shell := t.compacted.reading.shell
    if headerSize + payload.length ≤ shell.rx.length - shell.decoder.tail then
      t.compacted.writeAssembled (hdr ++ payload)
    else t.compacted.writeParts hdr payload

/-- What a step of the session that decodes nothing leaves as it was. -/
structure Kept (t t' : Talking) : Prop where
  within : Within t'.reading.shell.rx t'.reading.shell.decoder.head t'.reading.shell.decoder.tail
  length : t'.reading.shell.rx.length = t.reading.shell.rx.length
  view : t'.reading.shell.decoder.view t'.reading.shell.rx = t.reading.shell.decoder.view t.reading.shell.rx
  rest : t'.reading.rest = t.reading.rest
  items : t'.reading.items = t.reading.items
  idle : t'.reading.idle = t.reading.idle
  failed : t'.reading.failed = t.reading.failed

theorem Kept.write {t t' : Talking} (h : Kept t t') (bytes : Bytes) : Kept t (t'.channelWrite bytes).2 :=
  ⟨h.within, h.length, h.view, h.rest, h.items, h.idle, h.failed⟩

variable {t t' : Talking}

/-- The unread bytes are moved to the front. -/
theorem kept_compacted (hw : Within t.reading.shell.rx t.reading.shell.decoder.head t.reading.shell.decoder.tail) :
    Kept t t.compacted := by
  unfold compacted FrameDecoder.compact
  split_ifs
  · obtain ⟨hwithin, hslice, hlen⟩ := hw.compact
    refine ⟨hwithin, hlen, ?_, rfl, rfl, rfl, rfl⟩
    show View.mk _ _ _ = View.mk _ _ _
    rw [← hslice]
    rfl
  · exact ⟨hw, rfl, rfl, rfl, rfl, rfl, rfl⟩

/-- What is put behind the unread bytes is not seen. -/
theorem Kept.writeAssembled (h : Kept t t') {frame : Bytes}
    (hfit : frame.length ≤ t'.reading.shell.rx.length - t'.reading.shell.decoder.tail) :
    Kept t (t'.writeAssembled frame).2 := by
  have hw := h.within
  have htail := hw.tail_le
  have hlen : (splice t'.reading.shell.rx t'.reading.shell.decoder.tail frame).length = t'.reading.shell.rx.length :=
    length_splice (by omega)
  refine ⟨⟨hw.head_le, htail.trans_eq hlen.symm⟩, hlen.trans h.length, ?_, h.rest, h.items, h.idle, h.failed⟩
  refine Eq.trans ?_ h.view
  exact congrArg (fun unread => View.mk unread t'.reading.shell.decoder.largeId t'.reading.shell.decoder.largeRemaining)
    (slice_splice_before le_rfl htail)

theorem Kept.writeParts (h : Kept t t') (hdr payload : Bytes) : Kept t (t'.writeParts hdr payload).2 := by
  have hwrite := h.write hdr
  unfold Talking.writeParts
  split
  · rename_i e t1 heq
    rw [heq] at hwrite
    exact hwrite
  · rename_i t1 heq
    rw [heq] at hwrite
    by_cases hpayload : payload = []
    · rw [if_pos hpayload]
      exact hwrite
    · rw [if_neg hpayload]
      exact hwrite.write payload

theorem length_hdr (id : FrameId) (payload : Bytes) :
    (id.toByte :: toLeBytes (UInt32.ofNat payload.length) ++ payload).length = headerSize + payload.length := by
  rw [List.length_append]
  rfl

/-- **Sending leaves what was received as it was**, whether the writes succeed or not. -/
theorem sendFrame_kept (hw : Within t.reading.shell.rx t.reading.shell.decoder.head t.reading.shell.decoder.tail)
    (id : FrameId) (payload : Bytes) : Kept t (t.sendFrame id payload).2 := by
  have hcompact := kept_compacted hw
  unfold sendFrame
  by_cases hlong : 2 ^ 32 ≤ payload.length
  · rw [if_pos hlong]
    exact ⟨hw, rfl, rfl, rfl, rfl, rfl, rfl⟩
  rw [if_neg hlong]
  dsimp only
  split_ifs with hfit
  · exact hcompact.writeAssembled (by rw [length_hdr]; exact hfit)
  · exact hcompact.writeParts _ _

/-- A write that succeeds. -/
theorem channelWrite_ok (hfaults : ∀ f ∈ t.faults, f = none) (bytes : Bytes) :
    ∃ t', t.channelWrite bytes = (.ok (), t') ∧ t'.written.flatten = t.written.flatten ++ bytes ∧
      ∀ f ∈ t'.faults, f = none := by
  have hhead : t.faults.head?.join = none := by
    cases hf : t.faults with
    | nil => rfl
    | cons f fs =>
      rw [hfaults f (by rw [hf]; exact List.mem_cons_self)]
      rfl
  refine ⟨_, by rw [channelWrite, hhead]; rfl, ?_, fun f hf => hfaults f (List.mem_of_mem_tail hf)⟩
  rw [List.flatten_append, List.flatten_singleton]

/-- **What is written is the frame**, in one piece or in two. -/
theorem sendFrame_writes (hw : Within t.reading.shell.rx t.reading.shell.decoder.head t.reading.shell.decoder.tail)
    (hfaults : ∀ f ∈ t.faults, f = none) (id : FrameId) (payload : Bytes) (hlen : payload.length < 2 ^ 32) :
    ∃ t', t.sendFrame id payload = (.ok (), t') ∧ t'.written.flatten =
      t.written.flatten ++ (id.toByte :: toLeBytes (UInt32.ofNat payload.length) ++ payload) := by
  have hw' := (kept_compacted hw).within
  have hfaults' : ∀ f ∈ t.compacted.faults, f = none := hfaults
  unfold sendFrame
  rw [if_neg (not_le.mpr hlen)]
  dsimp only
  split_ifs with hfit
  · unfold writeAssembled
    dsimp only
    rw [slice_splice_self hw'.tail_le]
    obtain ⟨t1, hwrite, hwritten, -⟩ := @channelWrite_ok (t.compacted.withShell
      ⟨splice t.compacted.reading.shell.rx t.compacted.reading.shell.decoder.tail
        (id.toByte :: toLeBytes (UInt32.ofNat payload.length) ++ payload), t.compacted.reading.shell.decoder⟩) hfaults'
      (id.toByte :: toLeBytes (UInt32.ofNat payload.length) ++ payload)
    exact ⟨t1, hwrite, hwritten⟩
  · unfold writeParts
    obtain ⟨t1, hwrite, hwritten, hfaults1⟩ := channelWrite_ok hfaults'
      (id.toByte :: toLeBytes (UInt32.ofNat payload.length))
    rw [hwrite]
    dsimp only
    have hwritten' : t1.written.flatten = t.written.flatten ++ _ := hwritten
    by_cases hpayload : payload = []
    · rw [if_pos hpayload]
      exact ⟨t1, rfl, by rw [hwritten', hpayload, List.append_nil]⟩
    · rw [if_neg hpayload]
      obtain ⟨t2, hwrite2, hwritten2, -⟩ := channelWrite_ok hfaults1 payload
      exact ⟨t2, hwrite2, by rw [hwritten2, hwritten', List.append_assoc]⟩

/-! ## Runs with sends in them -/

/-- The session decodes, or sends a frame. -/
inductive ShellEvent where
  | decode (e : ReadEvent)
  | send (id : FrameId) (payload : Bytes)

def step [Usize] (t : Talking) : ShellEvent → Option Talking
  | .decode e => (t.reading.step e).map fun reading => { t with reading := reading }
  | .send id payload => some (t.sendFrame id payload).2

end Talking

namespace Reading

variable [Usize] {cap : ℕ} {s s' : Reading}

/-- What holds of a session over any stream. -/
structure Sound (cap : ℕ) (s : Reading) : Prop where
  cap_eq : s.shell.rx.length = cap
  within : Within s.shell.rx s.shell.decoder.head s.shell.decoder.tail
  idle : s.idle = true → ∃ v : View, v.next cap = (.ok none, s.shell.decoder.view s.shell.rx)

/-- What was handed out, and what is still to be. -/
def content (cap : ℕ) (s : Reading) : List Tagged :=
  s.items.flatMap tagged ++ ((s.shell.decoder.view s.shell.rx).ahead s.rest).drain cap

/-- **One event keeps what is handed out in the end.** -/
theorem Sound.step (hcap : headerSize ≤ cap) (h : Sound cap s) {e : ReadEvent} (hs : s.step e = some s') :
    Sound cap s' ∧ s'.content cap = s.content cap := by
  have hlen := h.cap_eq
  cases e with
  | next =>
    obtain ⟨hanswer, hview, hwithin⟩ := FrameDecoder.tryNextRawRef_eq h.within
    rw [hlen] at hanswer hview
    simp only [Reading.step] at hs
    split_ifs at hs with hfailed
    split at hs
    · rename_i d heq
      rw [heq] at hanswer hview hwithin
      obtain rfl := Option.some.inj hs
      have hnext : (s.shell.decoder.view s.shell.rx).next cap = (.ok none, d.view s.shell.rx) :=
        Prod.ext hanswer.symm hview.symm
      refine ⟨⟨hlen, hwithin, fun _ => ⟨_, hnext⟩⟩, ?_⟩
      unfold content
      rw [View.drain_next hcap hnext]
      rfl
    · rename_i item d heq
      rw [heq] at hanswer hview hwithin
      obtain rfl := Option.some.inj hs
      have hnext : (s.shell.decoder.view s.shell.rx).next cap = (.ok (some item), d.view s.shell.rx) :=
        Prod.ext hanswer.symm hview.symm
      refine ⟨⟨hlen, hwithin, fun hidle => by cases hidle⟩, ?_⟩
      unfold content
      rw [View.drain_next hcap hnext, List.flatMap_append, List.append_assoc]
      rfl
    · rename_i e d heq
      rw [heq] at hanswer hview hwithin
      obtain rfl := Option.some.inj hs
      have hsame : d.view s.shell.rx = s.shell.decoder.view s.shell.rx := hview.trans (View.next_error hanswer.symm)
      refine ⟨⟨hlen, hwithin, fun hidle => ?_⟩, ?_⟩
      · obtain ⟨v, hv⟩ := h.idle hidle
        exact ⟨v, by rw [hv]; exact congrArg _ hsame.symm⟩
      · unfold content
        dsimp only
        rw [hsame]
  | read n =>
    simp only [Reading.step] at hs
    split_ifs at hs with hfailed
    have hidle : s.idle = true := by
      simp only [Bool.or_eq_true, Bool.not_eq_true', not_or, Bool.not_eq_false] at hfailed
      exact hfailed.2
    obtain ⟨v, hv⟩ := h.idle hidle
    obtain ⟨shell, hok, hcap', hw, -, hview⟩ := Shell.ensureWritable_ok hlen h.within
      ((View.next_ok hv).none_room hcap)
    rw [hok] at hs
    dsimp only at hs
    obtain rfl := Option.some.inj hs
    set data := s.rest.take (min n (shell.rx.length - shell.decoder.tail)) with hdata
    have hdlen : data.length ≤ shell.rx.length - shell.decoder.tail := by
      rw [hdata, List.length_take]
      omega
    obtain ⟨hw', hslice, hslen⟩ := hw.put hdlen
    have hsplit : data ++ s.rest.drop data.length = s.rest := List.prefix_iff_eq_append.mp (List.take_prefix _ _)
    refine ⟨⟨hslen.trans hcap', hw', fun hidle => by cases hidle⟩, ?_⟩
    have hahead : ((shell.decoder.commit data.length).view (splice shell.rx shell.decoder.tail data)).ahead
        (s.rest.drop data.length) = (s.shell.decoder.view s.shell.rx).ahead s.rest := by
      rw [← hview]
      simp only [FrameDecoder.view, FrameDecoder.commit, View.ahead, hslice, List.append_assoc, hsplit]
    unfold content
    dsimp only
    rw [hahead]

end Reading

namespace Talking

variable [Usize] {cap : ℕ} {t t' : Talking}

theorem Kept.sound (h : t.reading.Sound cap) (hk : Kept t t') :
    t'.reading.Sound cap ∧ t'.reading.content cap = t.reading.content cap := by
  refine ⟨⟨hk.length.trans h.cap_eq, hk.within, fun hidle => ?_⟩, ?_⟩
  · rw [hk.view]
    exact h.idle (hk.idle ▸ hidle)
  · unfold Reading.content
    rw [hk.items, hk.view, hk.rest]

/-- A run, with any frames sent in it. -/
theorem sound_run (hcap : headerSize ≤ cap) (h : t.reading.Sound cap) {es : List ShellEvent}
    (hrun : Run step Any t es t') : t'.reading.Sound cap ∧ t'.reading.content cap = t.reading.content cap := by
  refine hrun.invariant (I := fun u => u.reading.Sound cap ∧ u.reading.content cap = t.reading.content cap) ⟨h, rfl⟩ ?_
  intro a e b ha _ hs
  have hstep : b.reading.Sound cap ∧ b.reading.content cap = a.reading.content cap := by
    cases e with
    | decode e =>
      obtain ⟨reading, hreading, rfl⟩ := Option.map_eq_some_iff.mp hs
      exact ha.1.step hcap hreading
    | send id payload =>
      obtain rfl := Option.some.inj hs
      exact (sendFrame_kept ha.1.within id payload).sound ha.1
  exact ⟨hstep.1, hstep.2.trans ha.2⟩

/-- What was handed out. -/
def handedOut (t : Talking) : List Tagged := t.reading.items.flatMap tagged

/-- The stream is used up, and nothing more is handed out. -/
def Finished (t : Talking) : Prop := t.reading.idle = true ∧ t.reading.rest = []

theorem handedOut_prefix (t : Talking) : t.handedOut <+: t.reading.content cap := List.prefix_append _ _

/-- At the end nothing is still to be handed out. -/
theorem Finished.content (hcap : headerSize ≤ cap) (h : t.reading.Sound cap) (hend : t.Finished) :
    t.handedOut = t.reading.content cap := by
  obtain ⟨v, hv⟩ := h.idle hend.1
  have hnothing : v.drain cap = [] := by
    refine View.drain_nothing fun item hitem => ?_
    rw [hv] at hitem
    cases hitem
  have hdrain := View.drain_next hcap hv []
  have hahead : ∀ w : View, w.ahead [] = w := fun w => by
    rw [View.ahead, List.append_nil]
  rw [hahead, hahead, hnothing] at hdrain
  unfold Reading.content handedOut
  rw [hend.2, hahead]
  exact (List.append_nil _).symm.trans (congrArg _ hdrain)

/-- A session in the middle of its life: any buffer, any cursors and any frame in pieces, on a channel with any stream
left. -/
def start (shell : Shell) (rest : Bytes) (faults : List (Option Error)) : Talking :=
  ⟨⟨shell, rest, [], false, none⟩, faults, []⟩

theorem start_sound {shell : Shell} (hw : Within shell.rx shell.decoder.head shell.decoder.tail) (rest : Bytes)
    (faults : List (Option Error)) : (start shell rest faults).reading.Sound shell.rx.length :=
  ⟨rfl, hw, fun hidle => by cases hidle⟩

end Talking

/-! ## The same reads -/

/-- A call of the decoder, or the bytes that a read delivers. -/
inductive Feed where
  | next
  | arrive (data : Bytes)

/-- What the decoder answers; bytes arrive if there is room for them. -/
def Shell.feed [Usize] (s : Shell) : Feed → Option (List (Except ProtocolError (Option RawItem)) × Shell)
  | .next => some ([(s.decoder.tryNextRawRef s.rx).1], ⟨s.rx, (s.decoder.tryNextRawRef s.rx).2⟩)
  | .arrive data => do
    let s ← s.ensureWritable.toOption
    if data.length ≤ s.rx.length - s.decoder.tail then
      some ([], ⟨splice s.rx s.decoder.tail data, s.decoder.commit data.length⟩)
    else none

/-- All answers. -/
def Shell.answers [Usize] : List Feed → Shell → Option (List (Except ProtocolError (Option RawItem)))
  | [], _ => some []
  | f :: fs, s => do
    let (answer, s) ← s.feed f
    let rest ← Shell.answers fs s
    some (answer ++ rest)

namespace Shell

variable {s s' s1 s1' : Shell}

/-- Two sessions that look the same to the decoder. -/
structure Alike (s s' : Shell) : Prop where
  left : Within s.rx s.decoder.head s.decoder.tail
  right : Within s'.rx s'.decoder.head s'.decoder.tail
  length : s.rx.length = s'.rx.length
  view : s.decoder.view s.rx = s'.decoder.view s'.rx

/-- Room is made by moving the unread bytes, if it is made at all. -/
theorem ensureWritable_view (hw : Within s.rx s.decoder.head s.decoder.tail) (h : s.ensureWritable = .ok s1) :
    Within s1.rx s1.decoder.head s1.decoder.tail ∧ s1.rx.length = s.rx.length ∧
      s1.decoder.view s1.rx = s.decoder.view s.rx := by
  have hkept := Talking.kept_compacted (t := Talking.start s [] []) hw
  unfold ensureWritable at h
  dsimp only at h
  split_ifs at h
  · obtain rfl := Except.ok.inj h
    exact ⟨hw, rfl, rfl⟩
  · obtain rfl := Except.ok.inj h
    exact ⟨hkept.within, hkept.length, hkept.view⟩

/-- Bytes that arrive are seen behind the unread ones. -/
theorem feed_arrive [Usize] {data : Bytes} {answers : List (Except ProtocolError (Option RawItem))}
    (hw : Within s.rx s.decoder.head s.decoder.tail) (h : s.feed (.arrive data) = some (answers, s1)) :
    answers = [] ∧ Within s1.rx s1.decoder.head s1.decoder.tail ∧ s1.rx.length = s.rx.length ∧
      s1.decoder.view s1.rx = (s.decoder.view s.rx).ahead data := by
  unfold feed at h
  cases hroom : s.ensureWritable with
  | error e =>
    rw [hroom] at h
    cases h
  | ok s2 =>
    obtain ⟨hw2, hlen2, hview2⟩ := ensureWritable_view hw hroom
    rw [hroom] at h
    simp only [Except.toOption, Option.bind_eq_bind, Option.bind_some] at h
    split_ifs at h with hfit
    obtain ⟨hw3, hslice, hlen3⟩ := hw2.put hfit
    obtain ⟨rfl, rfl⟩ := Prod.mk.inj (Option.some.inj h)
    refine ⟨rfl, hw3, hlen3.trans hlen2, ?_⟩
    rw [← hview2]
    exact congrArg (fun unread => View.mk unread s2.decoder.largeId s2.decoder.largeRemaining) hslice

/-- **The same reads give the same answers.** -/
theorem Alike.answers [Usize] (fs : List Feed) (h : Alike s s') {as as' : List (Except ProtocolError (Option RawItem))}
    (has : Shell.answers fs s = some as) (has' : Shell.answers fs s' = some as') : as = as' := by
  induction fs generalizing s s' as as' with
  | nil => exact (Option.some.inj has).symm.trans (Option.some.inj has')
  | cons f fs ih =>
    simp only [Shell.answers, Option.bind_eq_bind, Option.bind_eq_some_iff] at has has'
    obtain ⟨⟨a1, s1⟩, hfeed, rest, hrest, has⟩ := has
    obtain ⟨⟨a1', s1'⟩, hfeed', rest', hrest', has'⟩ := has'
    have hone : a1 = a1' ∧ Alike s1 s1' := by
      cases f with
      | next =>
        obtain ⟨hanswer, hnext, hwithin⟩ := FrameDecoder.tryNextRawRef_eq h.left
        obtain ⟨hanswer', hnext', hwithin'⟩ := FrameDecoder.tryNextRawRef_eq h.right
        obtain ⟨rfl, rfl⟩ := Prod.mk.inj (Option.some.inj hfeed)
        obtain ⟨rfl, rfl⟩ := Prod.mk.inj (Option.some.inj hfeed')
        rw [← h.view, ← h.length] at hanswer' hnext'
        exact ⟨by rw [hanswer, hanswer'], hwithin, hwithin', h.length, hnext.trans hnext'.symm⟩
      | arrive data =>
        obtain ⟨rfl, hw, hlen, hview⟩ := feed_arrive h.left hfeed
        obtain ⟨rfl, hw', hlen', hview'⟩ := feed_arrive h.right hfeed'
        exact ⟨rfl, hw, hw', hlen.trans (h.length.trans hlen'.symm), by rw [hview, hview', h.view]⟩
    have hlater := ih hone.2 hrest hrest'
    rw [← Option.some.inj has, ← Option.some.inj has', hone.1, hlater]

end Shell

end LibAdb.ShellV2
