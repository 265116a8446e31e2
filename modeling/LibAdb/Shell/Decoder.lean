import LibAdb.Base.Codec
import LibAdb.Lib.Runs
import LibAdb.Lib.Slices

/-!
# LibAdb.Shell.Decoder — shell_v2 frames out of a caller's buffer

`shell/v2/decoder.rs` and the parts of `shell/v2.rs` that feed it (`ensure_writable`, the read of `read_frame` and
`pump`).  A frame is a 5-byte header (an id byte and a little-endian length) and its payload.  The decoder looks at the
bytes between `head` and `tail` of the buffer; a frame that does not fit the whole buffer is handed out in pieces
while `large_remaining` counts what is still to come.

* `Next` takes `try_next_raw_ref` apart in terms of the unread bytes alone (`tryNextRawRef_spec`).
* `Stage` says where a run stands in the stream: between two frames, or inside one that comes in pieces.
* `frames_survive`: whatever the buffer's length and the cuts, the items are the stream's frames.
-/

namespace LibAdb.ShellV2

open Runs Slices

/-! ## Frames -/

inductive FrameId where
  | stdin
  | stdout
  | stderr
  | exit
  | closeStdin
  | windowSizeChange
  deriving DecidableEq, Repr

/-- `TryFrom<u8> for FrameId`; the error is the byte. -/
def FrameId.tryFrom (id : Byte) : Except Byte FrameId :=
  if id = 0 then .ok .stdin
  else if id = 1 then .ok .stdout
  else if id = 2 then .ok .stderr
  else if id = 3 then .ok .exit
  else if id = 4 then .ok .closeStdin
  else if id = 5 then .ok .windowSizeChange
  else .error id

/-- `From<FrameId> for u8` -/
def FrameId.toByte : FrameId → Byte
  | .stdin => 0
  | .stdout => 1
  | .stderr => 2
  | .exit => 3
  | .closeStdin => 4
  | .windowSizeChange => 5

/-- `FrameId::byte_of` -/
def FrameId.byteOf : Except Byte FrameId → Byte
  | .ok id => id.toByte
  | .error byte => byte

/-- `HEADER_SIZE` -/
def headerSize : ℕ := 5

/-- `parse_header` -/
def parseHeader (hdr : Bytes) : Except Byte FrameId × UInt32 := (FrameId.tryFrom (hdr.headD 0), u32At hdr 1)

/-- A frame of the stream: any id byte, and a payload whose length a header can carry. -/
structure ShellFrame where
  id : Byte
  payload : Bytes
  length_lt : payload.length < 2 ^ 32

def ShellFrame.header (f : ShellFrame) : Bytes := f.id :: toLeBytes (UInt32.ofNat f.payload.length)

/-- Its id as the decoder hands it out. -/
def ShellFrame.tag (f : ShellFrame) : Except Byte FrameId := FrameId.tryFrom f.id

def ShellFrame.encode (f : ShellFrame) : Bytes := f.header ++ f.payload

@[simp] theorem ShellFrame.length_header (f : ShellFrame) : f.header.length = headerSize := rfl

theorem ShellFrame.length_encode (f : ShellFrame) : f.encode.length = headerSize + f.payload.length := by
  rw [encode, List.length_append, length_header]

theorem parseHeader_header (f : ShellFrame) :
    parseHeader f.header = (f.tag, UInt32.ofNat f.payload.length) := by
  refine Prod.ext rfl ?_
  have h := ofLeBytes_toLeBytes (UInt32.ofNat f.payload.length) []
  rw [List.append_nil] at h
  have hcons := u32At_append_right [f.id] (toLeBytes (UInt32.ofNat f.payload.length)) 0
  exact hcons.trans h

theorem ShellFrame.toNat_length (f : ShellFrame) : (UInt32.ofNat f.payload.length).toNat = f.payload.length := by
  rw [UInt32.toNat_ofNat']
  exact Nat.mod_eq_of_lt f.length_lt

/-- What the decoder hands out: the id as `FrameId` names it, and bytes of the payload. -/
abbrev RawItem := Except Byte FrameId × Bytes

/-! ## The decoder -/

structure FrameDecoder where
  head : ℕ
  tail : ℕ
  largeId : Except Byte FrameId
  largeRemaining : ℕ

namespace FrameDecoder

/-- `FrameDecoder::new` -/
def new : FrameDecoder := ⟨0, 0, .ok .stdout, 0⟩

def commit (d : FrameDecoder) (n : ℕ) : FrameDecoder := { d with tail := d.tail + n }

def compact (d : FrameDecoder) (rx : Bytes) : FrameDecoder × Bytes :=
  if 0 < d.head then ({ d with tail := d.tail - d.head, head := 0 }, copyWithin rx d.head d.tail 0) else (d, rx)

def resetIfDrained (d : FrameDecoder) : FrameDecoder :=
  if d.head = d.tail then { d with head := 0, tail := 0 } else d

/-- `consume_large_ref` -/
def consumeLargeRef (d : FrameDecoder) (rx : Bytes) (available : ℕ) : RawItem × FrameDecoder :=
  let take := min available d.largeRemaining
  ((d.largeId, slice rx d.head (d.head + take)),
    { d with head := d.head + take, largeRemaining := d.largeRemaining - take }.resetIfDrained)

variable [Usize]

/-- `try_next_raw_ref` -/
def tryNextRawRef (d : FrameDecoder) (rx : Bytes) : Except ProtocolError (Option RawItem) × FrameDecoder :=
  if 0 < d.largeRemaining then
    if d.tail - d.head = 0 then (.ok none, d)
    else
      let r := d.consumeLargeRef rx (d.tail - d.head)
      (.ok (some r.1), r.2)
  else if d.tail - d.head < headerSize then (.ok none, d)
  else
    let h := parseHeader (slice rx d.head (d.head + headerSize))
    let length := h.2.toNat
    if usizeMax < headerSize + length then (.error .payloadTooLarge, d)
    else if rx.length < headerSize + length then
      let d := { d with largeId := h.1, largeRemaining := length, head := d.head + headerSize }
      if d.tail - d.head = 0 then (.ok none, d.resetIfDrained)
      else
        let r := d.consumeLargeRef rx (d.tail - d.head)
        (.ok (some (h.1, r.1.2)), r.2)
    else if d.tail - d.head < headerSize + length then (.ok none, d)
    else
      (.ok (some (h.1, slice rx (d.head + headerSize) (d.head + headerSize + length))),
        { d with head := d.head + headerSize + length }.resetIfDrained)

end FrameDecoder

/-! ## What a call does, on the unread bytes -/

/-- The unread bytes, and what a frame in pieces still lacks. -/
structure View where
  unread : Bytes
  largeId : Except Byte FrameId
  largeRemaining : ℕ

def FrameDecoder.view (d : FrameDecoder) (rx : Bytes) : View := ⟨slice rx d.head d.tail, d.largeId, d.largeRemaining⟩

/-- `try_next_raw_ref` over a buffer of length `cap`. -/
inductive Next (cap : ℕ) (v : View) : Option RawItem → View → Prop
  | starved (hlarge : 0 < v.largeRemaining) (hempty : v.unread = []) : Next cap v none v
  | piece (n : ℕ) (hlarge : 0 < v.largeRemaining) (hunread : v.unread ≠ [])
      (hn : n = min v.unread.length v.largeRemaining) :
      Next cap v (some (v.largeId, v.unread.take n)) ⟨v.unread.drop n, v.largeId, v.largeRemaining - n⟩
  | short (hlarge : v.largeRemaining = 0) (hshort : v.unread.length < headerSize) : Next cap v none v
  | header (hdr : Bytes) (hlarge : v.largeRemaining = 0) (hunread : v.unread = hdr) (hlen : hdr.length = headerSize)
      (hlong : cap < headerSize + (parseHeader hdr).2.toNat) :
      Next cap v none ⟨[], (parseHeader hdr).1, (parseHeader hdr).2.toNat⟩
  | begins (hdr body : Bytes) (n : ℕ) (hlarge : v.largeRemaining = 0) (hunread : v.unread = hdr ++ body)
      (hlen : hdr.length = headerSize) (hbody : body ≠ []) (hlong : cap < headerSize + (parseHeader hdr).2.toNat)
      (hn : n = min body.length (parseHeader hdr).2.toNat) :
      Next cap v (some ((parseHeader hdr).1, body.take n))
        ⟨body.drop n, (parseHeader hdr).1, (parseHeader hdr).2.toNat - n⟩
  | waits (hdr body : Bytes) (hlarge : v.largeRemaining = 0) (hunread : v.unread = hdr ++ body)
      (hlen : hdr.length = headerSize) (hfits : headerSize + (parseHeader hdr).2.toNat ≤ cap)
      (hshort : body.length < (parseHeader hdr).2.toNat) : Next cap v none v
  | whole (hdr body : Bytes) (hlarge : v.largeRemaining = 0) (hunread : v.unread = hdr ++ body)
      (hlen : hdr.length = headerSize) (hfits : headerSize + (parseHeader hdr).2.toNat ≤ cap)
      (hlong : (parseHeader hdr).2.toNat ≤ body.length) :
      Next cap v (some ((parseHeader hdr).1, body.take (parseHeader hdr).2.toNat))
        ⟨body.drop (parseHeader hdr).2.toNat, v.largeId, 0⟩

namespace FrameDecoder

variable {d : FrameDecoder} {rx : Bytes}

theorem resetIfDrained_within (h : Within rx d.head d.tail) : Within rx d.resetIfDrained.head d.resetIfDrained.tail := by
  unfold resetIfDrained
  split_ifs
  · exact ⟨le_rfl, Nat.zero_le _⟩
  · exact h

theorem resetIfDrained_view (d : FrameDecoder) (rx : Bytes) : d.resetIfDrained.view rx = d.view rx := by
  unfold resetIfDrained
  split_ifs with h
  · simp [view, h]
  · rfl

/-- A piece of a long frame: the front of the unread bytes. -/
theorem consumeLargeRef_spec (h : Within rx d.head d.tail) :
    (d.consumeLargeRef rx (d.tail - d.head)).1 =
        (d.largeId, (d.view rx).unread.take (min (d.view rx).unread.length d.largeRemaining)) ∧
      (d.consumeLargeRef rx (d.tail - d.head)).2.view rx =
        ⟨(d.view rx).unread.drop (min (d.view rx).unread.length d.largeRemaining), d.largeId,
          d.largeRemaining - min (d.view rx).unread.length d.largeRemaining⟩ ∧
      Within rx (d.consumeLargeRef rx (d.tail - d.head)).2.head (d.consumeLargeRef rx (d.tail - d.head)).2.tail := by
  have h1 := h.head_le
  have hlen : (d.view rx).unread.length = d.tail - d.head := length_slice h.tail_le
  rw [hlen]
  refine ⟨?_, ?_, ?_⟩
  · simp only [consumeLargeRef, view]
    rw [take_slice (by omega)]
  · simp only [consumeLargeRef, resetIfDrained_view]
    simp only [view, drop_slice]
  · simp only [consumeLargeRef]
    exact resetIfDrained_within ⟨by dsimp only; omega, h.tail_le⟩

variable [Usize]

/-- **What `try_next_raw_ref` does**, where no header overflows `usize`. -/
theorem tryNextRawRef_spec (hbits : Usize.bits = 64) (h : Within rx d.head d.tail) :
    ∃ item, (d.tryNextRawRef rx).1 = .ok item ∧ Next rx.length (d.view rx) item ((d.tryNextRawRef rx).2.view rx) ∧
      Within rx (d.tryNextRawRef rx).2.head (d.tryNextRawRef rx).2.tail := by
  have h1 := h.head_le
  have h2 := h.tail_le
  have hlen : (d.view rx).unread.length = d.tail - d.head := length_slice h2
  unfold tryNextRawRef
  split_ifs with hlarge hnone hshort
  · exact ⟨none, rfl, .starved hlarge (List.eq_nil_of_length_eq_zero (hlen.trans hnone)), h⟩
  · obtain ⟨hitem, hview, hwithin⟩ := consumeLargeRef_spec h
    dsimp only
    refine ⟨_, rfl, ?_, hwithin⟩
    rw [hitem, hview]
    refine .piece _ hlarge ?_ rfl
    intro hnil
    rw [hnil] at hlen
    exact hnone hlen.symm
  · exact ⟨none, rfl, .short (Nat.eq_zero_of_not_pos hlarge) (hlen ▸ hshort), h⟩
  · -- a whole header is there
    have hzero : d.largeRemaining = 0 := by omega
    set hdr := slice rx d.head (d.head + headerSize) with hhdr
    have hhlen : hdr.length = headerSize := by
      rw [hhdr, length_slice (by omega)]
      omega
    have hsplit : (d.view rx).unread = hdr ++ slice rx (d.head + headerSize) d.tail :=
      (slice_append_slice (by omega) (by omega) (by omega)).symm
    have hblen : (slice rx (d.head + headerSize) d.tail).length = d.tail - (d.head + headerSize) := length_slice h2
    have hover : ¬ usizeMax < headerSize + (parseHeader hdr).2.toNat := by
      have := (parseHeader hdr).2.toNat_lt
      rw [usizeMax, hbits, headerSize]
      omega
    dsimp only
    rw [if_neg hover]
    split_ifs with hlong havail hwait
    · refine ⟨none, rfl, ?_, resetIfDrained_within ⟨by dsimp only; omega, h2⟩⟩
      rw [resetIfDrained_view]
      have hnil : slice rx (d.head + headerSize) d.tail = [] :=
        List.eq_nil_of_length_eq_zero (by rw [hblen]; omega)
      have hview : FrameDecoder.view { d with
          largeId := (parseHeader hdr).1
          largeRemaining := (parseHeader hdr).2.toNat
          head := d.head + headerSize } rx = ⟨[], (parseHeader hdr).1, (parseHeader hdr).2.toNat⟩ := by
        simp only [view, hnil]
      rw [hview]
      exact .header hdr hzero (by rw [hsplit, hnil, List.append_nil]) hhlen hlong
    · obtain ⟨hitem, hview, hwithin⟩ := consumeLargeRef_spec (d := { d with
          largeId := (parseHeader hdr).1
          largeRemaining := (parseHeader hdr).2.toNat
          head := d.head + headerSize }) ⟨by dsimp only; omega, h2⟩
      refine ⟨_, rfl, ?_, hwithin⟩
      rw [hitem, hview]
      refine .begins hdr (slice rx (d.head + headerSize) d.tail) _ hzero hsplit hhlen ?_ hlong rfl
      intro hnil
      rw [hnil] at hblen
      exact havail hblen.symm
    · refine ⟨none, rfl, .waits hdr _ hzero hsplit hhlen (by omega) ?_, h⟩
      rw [hblen]
      omega
    · refine ⟨_, rfl, ?_, resetIfDrained_within ⟨by dsimp only; omega, h2⟩⟩
      have htake : slice rx (d.head + headerSize) (d.head + headerSize + (parseHeader hdr).2.toNat) =
          (slice rx (d.head + headerSize) d.tail).take (parseHeader hdr).2.toNat := (take_slice (by omega)).symm
      have hview : (FrameDecoder.resetIfDrained { d with
          head := d.head + headerSize + (parseHeader hdr).2.toNat }).view rx =
          ⟨(slice rx (d.head + headerSize) d.tail).drop (parseHeader hdr).2.toNat, d.largeId, 0⟩ := by
        rw [resetIfDrained_view, drop_slice]
        simp only [view, hzero]
      rw [htake, hview]
      exact .whole hdr _ hzero hsplit hhlen (by omega) (by rw [hblen]; omega)

end FrameDecoder

/-! ## Where a run stands in the stream -/

/-- The items of whole frames: one for a frame that fits the buffer, one or more non-empty pieces for a longer one. -/
inductive Delivered (cap : ℕ) : List ShellFrame → List RawItem → Prop
  | nil : Delivered cap [] []
  | whole {fs : List ShellFrame} {items : List RawItem} (h : Delivered cap fs items) (f : ShellFrame)
      (hfits : f.encode.length ≤ cap) : Delivered cap (fs ++ [f]) (items ++ [(f.tag, f.payload)])
  | pieces {fs : List ShellFrame} {items : List RawItem} (h : Delivered cap fs items) (f : ShellFrame)
      (ps : List Bytes) (hlong : cap < f.encode.length) (hps : ps ≠ []) (hne : ∀ p ∈ ps, p ≠ [])
      (hall : ps.flatten = f.payload) : Delivered cap (fs ++ [f]) (items ++ ps.map fun p => (f.tag, p))

/-- The bytes of a stream of frames. -/
def encodeAll (fs : List ShellFrame) : Bytes := (fs.map ShellFrame.encode).flatten

@[simp] theorem encodeAll_cons (f : ShellFrame) (fs : List ShellFrame) : encodeAll (f :: fs) = f.encode ++ encodeAll fs := rfl

/-- Where a run stands: `pending` are the bytes the decoder has not consumed. -/
inductive Stage (cap : ℕ) (frames : List ShellFrame) (items : List RawItem) (v : View) (rest : Bytes) : Prop
  | between (past todo : List ShellFrame) (hframes : frames = past ++ todo) (hitems : Delivered cap past items)
      (hlarge : v.largeRemaining = 0) (hpending : v.unread ++ rest = encodeAll todo)
  | within (past : List ShellFrame) (f : ShellFrame) (todo : List ShellFrame) (before : List RawItem) (ps : List Bytes)
      (left : Bytes) (hframes : frames = past ++ f :: todo) (hbefore : Delivered cap past before)
      (hitems : items = before ++ ps.map fun p => (f.tag, p)) (hlong : cap < f.encode.length)
      (hne : ∀ p ∈ ps, p ≠ []) (hpayload : f.payload = ps.flatten ++ left) (hleft : left ≠ [])
      (hlarge : v.largeRemaining = left.length) (hid : v.largeId = f.tag)
      (hpending : v.unread ++ rest = left ++ encodeAll todo)

section Steps

variable {cap : ℕ} {frames : List ShellFrame} {items : List RawItem} {v v' : View} {rest : Bytes}

/-- A header at the front of the pending bytes is the next frame's. -/
theorem header_eq {hdr body : Bytes} {f : ShellFrame} {todo : List ShellFrame} (hlen : hdr.length = headerSize)
    (h : hdr ++ body = encodeAll (f :: todo)) : hdr = f.header ∧ body = f.payload ++ encodeAll todo := by
  rw [encodeAll_cons, ShellFrame.encode, List.append_assoc] at h
  exact List.append_inj h (hlen.trans f.length_header.symm)

/-- What a piece of a long frame leaves. -/
theorem Stage.cut (ps : List Bytes) {past todo : List ShellFrame} {f : ShellFrame} {before : List RawItem}
    {left unread : Bytes} (hframes : frames = past ++ f :: todo) (hbefore : Delivered cap past before)
    (hlong : cap < f.encode.length) (hne : ∀ p ∈ ps, p ≠ []) (hpayload : f.payload = ps.flatten ++ left)
    (hleft : left ≠ []) (hunread : unread ≠ []) (hpending : unread ++ rest = left ++ encodeAll todo) (n : ℕ)
    (hn : n = min unread.length left.length) :
    Stage cap frames ((before ++ ps.map fun p => (f.tag, p)) ++ [(f.tag, unread.take n)])
      ⟨unread.drop n, f.tag, left.length - n⟩ rest := by
  have hupos : 0 < unread.length := List.length_pos_iff.mpr hunread
  have hlpos : 0 < left.length := List.length_pos_iff.mpr hleft
  -- the unread bytes and what the frame lacks agree as far as both go
  have htake : unread.take n = left.take n := by
    have h := congrArg (List.take n) hpending
    rwa [List.take_append_of_le_length (by omega), List.take_append_of_le_length (by omega)] at h
  have hdrop : unread.drop n ++ rest = left.drop n ++ encodeAll todo := by
    have h := congrArg (List.drop n) hpending
    rwa [List.drop_append_of_le_length (by omega), List.drop_append_of_le_length (by omega)] at h
  have hpne : unread.take n ≠ [] := by
    rw [← List.length_pos_iff, List.length_take]
    omega
  have hne' : ∀ p ∈ ps ++ [unread.take n], p ≠ [] := by
    intro p hp
    rcases List.mem_append.mp hp with hp | hp
    · exact hne p hp
    · rw [List.mem_singleton.mp hp]
      exact hpne
  have hflat : (ps ++ [unread.take n]).flatten ++ left.drop n = f.payload := by
    rw [List.flatten_append, List.flatten_singleton, htake, List.append_assoc, List.take_append_drop, ← hpayload]
  rw [List.append_assoc, show ps.map (fun p => (f.tag, p)) ++ [(f.tag, unread.take n)] =
    (ps ++ [unread.take n]).map fun p => (f.tag, p) by simp]
  by_cases hend : left.drop n = []
  · rw [hend, List.append_nil] at hflat
    rw [hend, List.nil_append] at hdrop
    refine .between (past ++ [f]) todo (by rw [hframes]; simp) (.pieces hbefore f _ hlong (by simp) hne' hflat) ?_ hdrop
    have := congrArg List.length hend
    simpa only [List.length_drop, List.length_nil] using this
  · exact .within past f todo before _ (left.drop n) hframes hbefore rfl hlong hne' hflat.symm hend
      (List.length_drop).symm rfl hdrop

/-- Between frames, a whole header in front is that of the next frame. -/
theorem Stage.next_frame {hdr body : Bytes} (h : Stage cap frames items v rest) (hlarge : v.largeRemaining = 0)
    (hunread : v.unread = hdr ++ body) (hlen : hdr.length = headerSize) :
    ∃ past f todo, frames = past ++ f :: todo ∧ Delivered cap past items ∧ hdr = f.header ∧
      body ++ rest = f.payload ++ encodeAll todo := by
  cases h with
  | within _ _ _ _ _ left _ _ _ _ _ _ hleft hrem =>
    exact absurd (List.eq_nil_of_length_eq_zero (hrem.symm.trans hlarge)) hleft
  | between past todo hframes hitems hzero hpending =>
    rw [hunread, List.append_assoc] at hpending
    cases todo with
    | nil =>
      have := congrArg List.length hpending
      simp [encodeAll, hlen, headerSize] at this
    | cons f todo => exact ⟨past, f, todo, hframes, hitems, header_eq hlen hpending⟩

/-- **One call keeps the run's place in the stream.** -/
theorem Stage.next {item : Option RawItem} (hcap : headerSize ≤ cap) (h : Stage cap frames items v rest) (hn : Next cap v item v') :
    Stage cap frames (items ++ item.toList) v' rest := by
  cases hn with
  | starved | short | waits => simpa using h
  | piece n hlarge hunread hn =>
    cases h with
    | between past todo hframes hitems hzero hpending => omega
    | within past f todo before ps left hframes hbefore hitems hlong hne hpayload hleft hlen hid hpending =>
      rw [hlen] at hn ⊢
      rw [hitems, hid]
      exact .cut ps hframes hbefore hlong hne hpayload hleft hunread hpending n hn
  | header hdr hlarge hunread hlen hlong =>
    obtain ⟨past, f, todo, hframes, hitems, rfl, hbody⟩ :=
      h.next_frame hlarge (hunread.trans (List.append_nil hdr).symm) hlen
    rw [parseHeader_header] at hlong ⊢
    dsimp only at hlong ⊢
    rw [f.toNat_length] at hlong ⊢
    have hpos : f.payload ≠ [] := List.ne_nil_of_length_pos (by omega)
    exact .within past f todo items [] f.payload hframes hitems (by simp) (by rw [f.length_encode]; exact hlong)
      (by simp) (by simp) hpos rfl rfl hbody
  | begins hdr body n hlarge hunread hlen hbody hlong hn =>
    obtain ⟨past, f, todo, hframes, hitems, rfl, hrest⟩ := h.next_frame hlarge hunread hlen
    rw [parseHeader_header] at hlong hn ⊢
    dsimp only at hlong hn ⊢
    rw [f.toNat_length] at hlong hn ⊢
    have hpos : f.payload ≠ [] := List.ne_nil_of_length_pos (by omega)
    have := Stage.cut [] hframes hitems (by rw [f.length_encode]; exact hlong) (by simp) (by simp) hpos hbody
      hrest n hn
    simpa using this
  | whole hdr body hlarge hunread hlen hfits hlong =>
    obtain ⟨past, f, todo, hframes, hitems, rfl, hrest⟩ := h.next_frame hlarge hunread hlen
    rw [parseHeader_header] at hfits hlong ⊢
    dsimp only at hfits hlong ⊢
    rw [f.toNat_length] at hfits hlong ⊢
    have htake : body.take f.payload.length = f.payload := by
      have h := congrArg (List.take f.payload.length) hrest
      rwa [List.take_append_of_le_length hlong, List.take_left'] at h
      rfl
    have hdrop : body.drop f.payload.length ++ rest = encodeAll todo := by
      have h := congrArg (List.drop f.payload.length) hrest
      rwa [List.drop_append_of_le_length hlong, List.drop_left'] at h
      rfl
    rw [htake]
    exact .between (past ++ [f]) todo (by rw [hframes]; simp) (.whole hitems f (by rw [f.length_encode]; exact hfits))
      rfl hdrop

/-- A call that hands out nothing leaves less than a buffer of unread bytes. -/
theorem Next.none_room (hcap : headerSize ≤ cap) (hn : Next cap v none v') : v'.unread.length < cap := by
  have hpos : 0 < cap := lt_of_lt_of_le (by decide) hcap
  cases hn with
  | starved _ hempty => simpa [hempty] using hpos
  | short _ hshort => omega
  | header => exact hpos
  | waits hdr body _ hunread hlen hfits hshort =>
    rw [hunread, List.length_append]
    omega

/-- **At the end of the stream a call that hands out nothing has nothing left to hand out.** -/
theorem Stage.finished (hcap : headerSize ≤ cap) (h : Stage cap frames items v []) (hn : Next cap v none v') :
    Delivered cap frames items := by
  cases h with
  | within _ _ _ _ _ left _ _ _ _ _ _ hleft hrem _ hpending =>
    -- some of the frame is still unread, so it would have been handed out
    rw [List.append_nil] at hpending
    have hlpos : 0 < left.length := List.length_pos_iff.mpr hleft
    cases hn with
    | starved _ hempty =>
      rw [hempty] at hpending
      exact absurd (List.append_eq_nil_iff.mp hpending.symm).1 hleft
    | short hlarge _ => omega
    | header _ hlarge => omega
    | waits _ _ hlarge => omega
  | between past todo hframes hitems hzero hpending =>
    rw [List.append_nil] at hpending
    cases todo with
    | nil =>
      rw [hframes, List.append_nil]
      exact hitems
    | cons f todo =>
      have hlen := congrArg List.length hpending
      rw [encodeAll_cons, List.length_append, f.length_encode] at hlen
      cases hn with
      | starved hlarge _ => omega
      | short _ hshort => omega
      | header hdr _ hunread hhlen hlong =>
        rw [hunread] at hpending hlen
        obtain ⟨rfl, -⟩ := header_eq hhlen ((List.append_nil _).trans hpending)
        rw [parseHeader_header] at hlong
        dsimp only at hlong
        rw [f.toNat_length] at hlong
        omega
      | waits hdr body _ hunread hhlen hfits hshort =>
        rw [hunread] at hpending hlen
        obtain ⟨rfl, -⟩ := header_eq hhlen hpending
        rw [parseHeader_header] at hshort
        dsimp only at hshort
        rw [f.toNat_length] at hshort
        rw [List.length_append, hhlen] at hlen
        omega

/-- A call that hands something out consumes some of the unread bytes. -/
theorem Next.some_shorter {item : RawItem} (hn : Next cap v (some item) v') :
    v'.unread.length < v.unread.length := by
  cases hn with
  | piece n hlarge hunread hn =>
    have := List.length_pos_iff.mpr hunread
    rw [List.length_drop]
    omega
  | begins hdr body n _ hunread hlen | whole hdr body _ hunread hlen =>
    rw [hunread, List.length_append, List.length_drop, hlen, headerSize]
    omega

end Steps

/-! ## The session -/

/-- What `Shell` keeps for its frames. -/
structure Shell where
  rx : Bytes
  decoder : FrameDecoder

/-- `ensure_writable` -/
def Shell.ensureWritable (s : Shell) : Except Error Shell :=
  if s.decoder.tail < s.rx.length then .ok s
  else
    let c := s.decoder.compact s.rx
    if c.1.tail = c.2.length then .error .receiveBufferFull else .ok ⟨c.2, c.1⟩

/-- Making room succeeds in a buffer that is not full, and leaves the unread bytes as they were. -/
theorem Shell.ensureWritable_ok {s : Shell} {cap : ℕ} (hlen : s.rx.length = cap)
    (hw : Within s.rx s.decoder.head s.decoder.tail) (hroom : (s.decoder.view s.rx).unread.length < cap) :
    ∃ shell, s.ensureWritable = .ok shell ∧ shell.rx.length = cap ∧
      Within shell.rx shell.decoder.head shell.decoder.tail ∧ shell.decoder.tail < cap ∧
      shell.decoder.view shell.rx = s.decoder.view s.rx := by
  have hunread : (s.decoder.view s.rx).unread.length = s.decoder.tail - s.decoder.head := length_slice hw.tail_le
  unfold Shell.ensureWritable
  dsimp only
  split_ifs with hfree hfull
  · exact ⟨s, rfl, hlen, hw, hlen ▸ hfree, rfl⟩
  · exfalso
    unfold FrameDecoder.compact at hfull
    split_ifs at hfull with hhead
    · have hc := hw.compact.2.2
      dsimp only at hfull
      have := hw.head_le
      have := hw.tail_le
      omega
    · dsimp only at hfull
      omega
  · -- the buffer was full, so its unread bytes are moved to the front
    obtain ⟨hw', hslice, hclen⟩ := hw.compact
    have hhead : 0 < s.decoder.head := by
      have := hw.tail_le
      omega
    refine ⟨_, rfl, ?_⟩
    unfold FrameDecoder.compact
    rw [if_pos hhead]
    dsimp only
    refine ⟨hclen.trans hlen, hw', by omega, ?_⟩
    simp only [FrameDecoder.view, hslice]

/-- A session, the bytes the channel has not handed out yet and the items so far; `idle` after a call that handed out
nothing, `failed` once something went wrong. -/
structure Reading where
  shell : Shell
  rest : Bytes
  items : List RawItem
  idle : Bool
  failed : Option Error

inductive ReadEvent where
  /-- `try_next_raw_ref` -/
  | next
  /-- `ensure_writable`, then a channel read that gives `n` bytes, or as many as fit and are there. -/
  | read (n : ℕ)

namespace Reading

/-- A session over any buffer. -/
def start (rx : Bytes) (frames : List ShellFrame) : Reading := ⟨⟨rx, .new⟩, encodeAll frames, [], false, none⟩

/-- The loop of `read_frame`, and of `pump` with its drain: reads only once nothing more is handed out. -/
def step [Usize] (s : Reading) : ReadEvent → Option Reading
  | .next =>
    if s.failed.isSome then none
    else match s.shell.decoder.tryNextRawRef s.shell.rx with
      | (.ok none, d) => some { s with shell := ⟨s.shell.rx, d⟩, idle := true }
      | (.ok (some item), d) => some { s with shell := ⟨s.shell.rx, d⟩, items := s.items ++ [item], idle := false }
      | (.error e, d) => some { s with shell := ⟨s.shell.rx, d⟩, failed := some (.protocol e) }
  | .read n =>
    if s.failed.isSome || !s.idle then none
    else match s.shell.ensureWritable with
      | .error e => some { s with failed := some e }
      | .ok shell =>
        let data := s.rest.take (min n (shell.rx.length - shell.decoder.tail))
        some { s with
          shell := ⟨splice shell.rx shell.decoder.tail data, shell.decoder.commit data.length⟩
          rest := s.rest.drop data.length
          idle := false }

/-- What holds throughout a session. -/
structure Good (cap : ℕ) (frames : List ShellFrame) (s : Reading) : Prop where
  cap_eq : s.shell.rx.length = cap
  within : Within s.shell.rx s.shell.decoder.head s.shell.decoder.tail
  stage : Stage cap frames s.items (s.shell.decoder.view s.shell.rx) s.rest
  failed : s.failed = none
  idle : s.idle = true → ∃ v, Next cap v none (s.shell.decoder.view s.shell.rx) ∧ Stage cap frames s.items v s.rest

variable {cap : ℕ} {frames : List ShellFrame} {s s' : Reading}

theorem Good.start (rx : Bytes) (frames : List ShellFrame) : Good rx.length frames (start rx frames) where
  cap_eq := rfl
  within := ⟨le_rfl, Nat.zero_le _⟩
  stage := .between [] frames rfl .nil rfl (by simp [FrameDecoder.view, Reading.start, FrameDecoder.new])
  failed := rfl
  idle := nofun

/-- Making room succeeds after a call that handed out nothing, and leaves the unread bytes as they were. -/
theorem Good.ensureWritable (hcap : headerSize ≤ cap) (h : Good cap frames s) (hidle : s.idle = true) :
    ∃ shell, s.shell.ensureWritable = .ok shell ∧ shell.rx.length = cap ∧
      Within shell.rx shell.decoder.head shell.decoder.tail ∧ shell.decoder.tail < cap ∧
      shell.decoder.view shell.rx = s.shell.decoder.view s.shell.rx := by
  obtain ⟨v, hnext, -⟩ := h.idle hidle
  exact Shell.ensureWritable_ok h.cap_eq h.within (hnext.none_room hcap)

variable [Usize]

/-- **One event keeps a session good.** -/
theorem Good.step (hbits : Usize.bits = 64) (hcap : headerSize ≤ cap) (h : Good cap frames s) {e : ReadEvent}
    (hs : s.step e = some s') : Good cap frames s' := by
  have hlen := h.cap_eq
  cases e with
  | next =>
    obtain ⟨item, hok, hnext, hw⟩ := FrameDecoder.tryNextRawRef_spec hbits h.within
    rw [hlen] at hnext
    have hst := h.stage.next hcap hnext
    simp only [Reading.step, h.failed, Option.isSome_none, Bool.false_eq_true, if_false] at hs
    split at hs
    · rename_i d heq
      rw [heq] at hok hnext hw hst
      cases hok
      cases hs
      exact ⟨hlen, hw, by simpa using hst, rfl, fun _ => ⟨_, hnext, h.stage⟩⟩
    · rename_i it d heq
      rw [heq] at hok hw hst
      cases hok
      cases hs
      exact ⟨hlen, hw, by simpa using hst, rfl, nofun⟩
    · rename_i err d heq
      rw [heq] at hok
      cases hok
  | read n =>
    simp only [Reading.step, h.failed, Option.isSome_none, Bool.false_or, Bool.not_eq_true'] at hs
    split_ifs at hs with hidle
    obtain ⟨shell, hok, hcap', hw, hroom, hview⟩ := h.ensureWritable hcap (by simpa using hidle)
    rw [hok] at hs
    dsimp only at hs
    cases hs
    set data := s.rest.take (min n (shell.rx.length - shell.decoder.tail)) with hdata
    have hdlen : data.length ≤ shell.rx.length - shell.decoder.tail := by
      rw [hdata, List.length_take]
      omega
    obtain ⟨hw', hslice, hslen⟩ := hw.put hdlen
    have hsplit : data ++ s.rest.drop data.length = s.rest :=
      (List.prefix_iff_eq_append.mp (List.take_prefix _ _))
    refine ⟨hslen.trans hcap', hw', ?_, rfl, nofun⟩
    have hst := h.stage
    rw [← hview] at hst
    have hv : (shell.decoder.commit data.length).view (splice shell.rx shell.decoder.tail data) =
        ⟨(shell.decoder.view shell.rx).unread ++ data, shell.decoder.largeId, shell.decoder.largeRemaining⟩ := by
      simp only [FrameDecoder.view, FrameDecoder.commit, hslice]
    rw [hv]
    cases hst with
    | between past todo hframes hitems hlarge hpending =>
      refine .between past todo hframes hitems hlarge ?_
      rw [List.append_assoc, hsplit, hpending]
    | within past f todo before ps left hframes hbefore hitems hlong hne hpayload hleft hlarge hid hpending =>
      refine .within past f todo before ps left hframes hbefore hitems hlong hne hpayload hleft hlarge hid ?_
      rw [List.append_assoc, hsplit, hpending]

/-- Handing out goes on until a call hands out nothing, and it does within as many calls as there are unread bytes. -/
theorem Good.drains (hbits : Usize.bits = 64) (hcap : headerSize ≤ cap) (h : Good cap frames s) :
    ∃ k s', k ≤ (s.shell.decoder.view s.shell.rx).unread.length + 1 ∧
      exec Reading.step s (List.replicate k .next) = some s' ∧ s'.idle = true ∧ s'.rest = s.rest := by
  induction hm : (s.shell.decoder.view s.shell.rx).unread.length using Nat.strong_induction_on generalizing s with
  | _ m ih =>
    obtain ⟨item, hok, hnext, -⟩ := FrameDecoder.tryNextRawRef_spec hbits h.within
    cases item with
    | none =>
      refine ⟨1, { s with shell := ⟨s.shell.rx, (s.shell.decoder.tryNextRawRef s.shell.rx).2⟩, idle := true },
        by omega, ?_, rfl, rfl⟩
      have hstep : s.step .next =
          some { s with shell := ⟨s.shell.rx, (s.shell.decoder.tryNextRawRef s.shell.rx).2⟩, idle := true } := by
        simp only [Reading.step, h.failed, Option.isSome_none, Bool.false_eq_true, if_false]
        rw [show s.shell.decoder.tryNextRawRef s.shell.rx = (.ok none, (s.shell.decoder.tryNextRawRef s.shell.rx).2) from
          Prod.ext hok rfl]
      rw [List.replicate_one, exec_cons, hstep]
      rfl
    | some it =>
      let s1 : Reading := { s with
        shell := ⟨s.shell.rx, (s.shell.decoder.tryNextRawRef s.shell.rx).2⟩
        items := s.items ++ [it]
        idle := false }
      have hstep : s.step .next = some s1 := by
        simp only [Reading.step, h.failed, Option.isSome_none, Bool.false_eq_true, if_false]
        rw [show s.shell.decoder.tryNextRawRef s.shell.rx =
          (.ok (some it), (s.shell.decoder.tryNextRawRef s.shell.rx).2) from Prod.ext hok rfl]
        simp only [s1, h.failed]
      have hshort : (s1.shell.decoder.view s1.shell.rx).unread.length < _ := hnext.some_shorter
      obtain ⟨k, s', hk, hexec, hidle, hrest⟩ := ih _ (hm ▸ hshort) (h.step hbits hcap hstep) rfl
      refine ⟨k + 1, s', by omega, ?_, hidle, hrest⟩
      rw [List.replicate_succ, exec_cons, hstep]
      exact hexec

/-- **Frames survive any buffer and any chunking.**  In every run over a buffer of at least a header's length: the
cursors stay in order, nothing fails, the items so far are the frames so far (the last of them perhaps in part), and
when the stream is used up and nothing more is handed out they are all of it.  Handing out always comes to an end,
and a read of `n > 0` bytes takes some of what is left. -/
theorem frames_survive (hbits : Usize.bits = 64) (rx : Bytes) (hrx : headerSize ≤ rx.length) (frames : List ShellFrame)
    (es : List ReadEvent) (s : Reading) (hrun : Run Reading.step Any (Reading.start rx frames) es s) :
    (s.shell.decoder.head ≤ s.shell.decoder.tail ∧ s.shell.decoder.tail ≤ s.shell.rx.length ∧
        s.shell.rx.length = rx.length) ∧
      s.failed = none ∧
      Stage rx.length frames s.items (s.shell.decoder.view s.shell.rx) s.rest ∧
      (s.idle = true → s.rest = [] → Delivered rx.length frames s.items) ∧
      (∃ k s', k ≤ s.shell.decoder.tail - s.shell.decoder.head + 1 ∧
        exec Reading.step s (List.replicate k .next) = some s' ∧ s'.idle = true ∧ s'.rest = s.rest) ∧
      (s.idle = true → s.rest ≠ [] → ∀ n, 0 < n → ∃ s', s.step (.read n) = some s' ∧ s'.rest.length < s.rest.length) := by
  have h : Good rx.length frames s := hrun.invariant (I := Good rx.length frames) (.start rx frames)
    fun a e b ha _ hs => ha.step hbits hrx hs
  refine ⟨⟨h.within.head_le, h.within.tail_le, h.cap_eq⟩, h.failed, h.stage, ?_, ?_, ?_⟩
  · intro hidle hrest
    obtain ⟨v, hnext, hst⟩ := h.idle hidle
    rw [hrest] at hst
    exact hst.finished hrx hnext
  · obtain ⟨k, s', hk, hexec, hidle, hrest⟩ := h.drains hbits hrx
    refine ⟨k, s', ?_, hexec, hidle, hrest⟩
    rwa [show (s.shell.decoder.view s.shell.rx).unread.length = _ from length_slice h.within.tail_le] at hk
  · intro hidle hrest n hn
    obtain ⟨shell, hok, hcap, -, hroom, -⟩ := h.ensureWritable hrx hidle
    have hpos : 0 < s.rest.length := List.length_pos_iff.mpr hrest
    refine ⟨_, by simp only [Reading.step, h.failed, hidle, hok]; rfl, ?_⟩
    simp only [List.length_drop, List.length_take]
    omega

end Reading

/-- One byte of stdout, through a buffer that holds no more than its header. -/
def tightFrame : ShellFrame := ⟨1, [7], by decide⟩

def tightEvents : List ReadEvent := [.next, .read 9, .next, .read 9, .next, .next]

theorem frames_survive_tight :
    ∃ s, exec (@Reading.step usize64) (Reading.start [0, 0, 0, 0, 0] [tightFrame]) tightEvents = some s ∧
      Delivered 5 [tightFrame] s.items := by
  refine ⟨_, rfl, ?_⟩
  exact (@Reading.frames_survive usize64 rfl [0, 0, 0, 0, 0] (by decide) [tightFrame] tightEvents _
    (.of_exec rfl)).2.2.2.1 rfl rfl

end LibAdb.ShellV2
