import LibAdb.Sync.Session

/-!
# LibAdb.Sync.Replies — a session stays aligned with the device's replies

A reply is a record, or records and an end; a FAIL can stand in the place of any record.  `Reply.bytes` is the device's
encoding of it and `Reply.result` what the operation is to make of it.  The encoding is written down here on its own, as
runs of 32-bit words, and not as the inverse of the parser.

`session_aligned` goes by `op_runs`, one operation and its reply, and that by the rules of `LibAdb.Sync.RecvBuf`.
-/

namespace LibAdb.Sync

open SyncM

/-! ## Words -/

def words (ws : List UInt32) : Bytes := ws.flatMap toLeBytes

def low (n : UInt64) : UInt32 := UInt32.ofNat n.toNat

def high (n : UInt64) : UInt32 := UInt32.ofNat (n.toNat / 2 ^ 32)

@[simp] theorem length_words (ws : List UInt32) : (words ws).length = 4 * ws.length := by
  induction ws with
  | nil => rfl
  | cons w ws ih =>
    simp only [words, List.flatMap_cons, List.length_append, length_toLeBytes, List.length_cons] at ih ⊢
    omega

theorem u32At_words (front rest : Bytes) (ws : List UInt32) (i : ℕ) (h : i < ws.length) :
    u32At (front ++ (words ws ++ rest)) (front.length + 4 * i) = ws[i] := by
  induction ws generalizing front i with
  | nil => cases h
  | cons w ws ih =>
    rw [words, List.flatMap_cons, List.append_assoc]
    cases i with
    | zero =>
      have := u32At_append_right front (toLeBytes w ++ (words ws ++ rest)) 0
      rwa [ofLeBytes_toLeBytes] at this
    | succ i =>
      have := ih (front ++ toLeBytes w) i (by simpa using h)
      rw [List.append_assoc, List.length_append, length_toLeBytes] at this
      rw [show front.length + 4 * (i + 1) = front.length + 4 + 4 * i by omega]
      exact this

theorem u32At_take {buf : Bytes} {n i : ℕ} (h : i + 4 ≤ n) : u32At (buf.take n) i = u32At buf i := by
  have key : ∀ j < n, (buf.take n).getD j 0 = buf.getD j 0 := fun j hj => by
    rw [List.getD_eq_getElem?_getD, List.getD_eq_getElem?_getD, List.getElem?_take, if_pos hj]
  simp only [u32At]
  rw [key i (by omega), key (i + 1) (by omega), key (i + 2) (by omega), key (i + 3) (by omega)]

theorem u32At_drop (buf : Bytes) (n i : ℕ) : u32At (buf.drop n) i = u32At buf (n + i) := by
  have key : ∀ j, (buf.drop n).getD j 0 = buf.getD (n + j) 0 := fun j => by
    rw [List.getD_eq_getElem?_getD, List.getD_eq_getElem?_getD, List.getElem?_drop]
  simp only [u32At, key, Nat.add_assoc]

theorem join_words (n : UInt64) : UInt64.ofNat ((low n).toNat + 2 ^ 32 * (high n).toNat) = n := by
  have hn := n.toNat_lt
  apply UInt64.toNat.inj
  simp only [low, high, UInt64.toNat_ofNat', UInt32.toNat_ofNat']
  omega

/-! ## Replies -/

/-- A record of the device's: an id, some words, some bytes. -/
def record (id : SyncId) (ws : List UInt32) (bytes : Bytes) : Bytes := id.asBytes ++ (words ws ++ bytes)

def StatV1.words (st : StatV1) : List UInt32 := [st.mode, st.size, st.mtime]

def StatV2.words (st : StatV2) : List UInt32 :=
  [st.error, low st.dev, high st.dev, low st.ino, high st.ino, st.mode, st.nlink, st.uid, st.gid,
    low st.size, high st.size, low st.atime.toUInt64, high st.atime.toUInt64, low st.mtime.toUInt64,
    high st.mtime.toUInt64, low st.ctime.toUInt64, high st.ctime.toUInt64]

def lenWord (bytes : Bytes) : UInt32 := UInt32.ofNat bytes.length

def failRecord (msg : Bytes) : Bytes := record .fail [lenWord msg] msg

def dentRecord (e : DirEntry) : Bytes := record .dent [e.mode, e.size, e.mtime, lenWord e.name] e.name

def dnt2Record (e : DirEntryV2) : Bytes := record .dnt2 (e.stat.words ++ [lenWord e.name]) e.name

def dataRecord (chunk : Bytes) : Bytes := record .data [lenWord chunk] chunk

/-- How a series of records ends: DONE with the words that fill its record, or FAIL. -/
inductive Close where
  | done (pad : List UInt32)
  | fail (msg : Bytes)
  deriving DecidableEq, Repr

def Close.bytes : Close → Bytes
  | .done pad => record .done pad []
  | .fail msg => failRecord msg

/-- The device's answer to an operation. -/
inductive Reply where
  | stat (st : StatV1)
  | statV2 (st : StatV2)
  | failed (msg : Bytes)
  | list (entries : List DirEntry) (close : Close)
  | listV2 (entries : List DirEntryV2) (close : Close)
  | data (chunks : List Bytes) (close : Close)
  deriving DecidableEq, Repr

namespace Reply

def bytes : Reply → Bytes
  | .stat st => record .stat st.words []
  | .statV2 st => record .sta2 st.words []
  | .failed msg => failRecord msg
  | .list entries close => entries.flatMap dentRecord ++ close.bytes
  | .listV2 entries close => entries.flatMap dnt2Record ++ close.bytes
  | .data chunks close => chunks.flatMap dataRecord ++ close.bytes

/-- The reply is one to the operation. -/
def Answers : Reply → Op → Prop
  | .stat _, .stat _ | .failed _, .stat _ | .statV2 _, .statV2 _ | .failed _, .statV2 _ => True
  | .list _ _, .list _ | .listV2 _ _, .listV2 _ | .data _ _, .recv _ | .data _ _, .recvV2 _ _ => True
  | _, _ => False

/-- The value of a series of records, or what its FAIL says, as much of it as the buffer holds. -/
def closing {α : Type} (cap : ℕ) (value : α) : Close → Except Error α
  | .done _ => .ok value
  | .fail msg => .error (.sync (.failed (msg.take cap)))

/-- What the operation is to return. -/
def result (cap : ℕ) : Reply → Except Error Value
  | .stat st => .ok (.stat st)
  | .statV2 st => if st.error ≠ 0 then .error (.sync (.remoteErrno st.error)) else .ok (.statV2 st)
  | .failed msg => .error (.sync (.failed (msg.take cap)))
  | .list entries close => closing cap (.list entries) close
  | .listV2 entries close => closing cap (.listV2 entries) close
  | .data chunks close => closing cap (.data chunks.flatten) close

end Reply

/-- A FAIL has a length that its word holds; DONE is as long as the records it ends. -/
def Close.Fits (cap size : ℕ) : Close → Prop
  | .done pad => 4 + 4 * pad.length = size ∧ size ≤ cap
  | .fail msg => msg.length < 2 ^ 32

/-- A length fits its word, and with its header the buffer. -/
def Fits (cap size : ℕ) (bytes : Bytes) : Prop := bytes.length < 2 ^ 32 ∧ size + bytes.length ≤ cap

/-- The reply is well formed, and the buffer holds the largest record, name and chunk with its header in it. -/
def Reply.Fits (cap : ℕ) : Reply → Prop
  | .stat _ => statV1Size ≤ cap
  | .statV2 _ => statV2Size ≤ cap
  | .failed msg => msg.length < 2 ^ 32
  | .list entries close => (∀ e ∈ entries, dentV1Size ≤ cap ∧ Sync.Fits cap 0 e.name) ∧ close.Fits cap dentV1Size
  | .listV2 entries close => (∀ e ∈ entries, dentV2Size ≤ cap ∧ Sync.Fits cap 0 e.name) ∧ close.Fits cap dentV2Size
  | .data chunks close => (∀ c ∈ chunks, Sync.Fits cap headerSize c) ∧ close.Fits cap headerSize

theorem lenWord_toNat {bytes : Bytes} (h : bytes.length < 2 ^ 32) : (lenWord bytes).toNat = bytes.length := by
  rw [lenWord, UInt32.toNat_ofNat', Nat.mod_eq_of_lt h]

@[simp] theorem length_record (id : SyncId) (ws : List UInt32) (bytes : Bytes) :
    (record id ws bytes).length = 4 + 4 * ws.length + bytes.length := by
  simp only [record, List.length_append, SyncId.length_asBytes, length_words]
  omega

/-- Word `i` of the record at the front of what is pending. -/
theorem u32At_record (id : SyncId) (ws : List UInt32) (bytes rest : Bytes) (i : ℕ) (h : i < ws.length) :
    u32At (record id ws bytes ++ rest) (4 + 4 * i) = ws[i] := by
  have := u32At_words id.asBytes (bytes ++ rest) ws i h
  rwa [SyncId.length_asBytes, ← List.append_assoc (words ws), ← List.append_assoc] at this

theorem take_record (id : SyncId) (ws : List UInt32) (bytes rest : Bytes) :
    (record id ws bytes ++ rest).take 4 = id.asBytes := by
  rw [record, List.append_assoc, List.take_left' (SyncId.length_asBytes id)]

/-- Behind the words of a record are its bytes. -/
theorem drop_record {id : SyncId} {ws : List UInt32} {n : ℕ} (bytes rest : Bytes) (h : 4 + 4 * ws.length = n) :
    (record id ws bytes ++ rest).drop n = bytes ++ rest := by
  have hlen : (id.asBytes ++ words ws).length = n := by
    rw [List.length_append, SyncId.length_asBytes, length_words, h]
  rw [record, ← List.append_assoc, List.append_assoc, List.drop_left' hlen]

/-- The parser reads back the words of a stat. -/
theorem parse_words (id : SyncId) (st : StatV2) (ws : List UInt32) (bytes rest : Bytes) {n : ℕ} (hn : statV2Size ≤ n) :
    parseStatV2Body (((record id (st.words ++ ws) bytes ++ rest).take n).drop 4) = st := by
  have hword : ∀ i, i < 17 → ∀ w, st.words[i]? = some w →
      u32At (((record id (st.words ++ ws) bytes ++ rest).take n).drop 4) (4 * i) = w := by
    intro i hi w hw
    unfold statV2Size at hn
    have hlen : st.words.length = 17 := rfl
    have hi' : i < (st.words ++ ws).length := by
      rw [List.length_append]
      omega
    rw [u32At_drop, u32At_take (by omega), u32At_record id _ bytes rest i hi']
    obtain ⟨h1, h2⟩ := List.getElem?_eq_some_iff.mp hw
    rw [List.getElem_append_left h1, h2]
  have hjoin : ∀ i, i + 1 < 17 → ∀ x, st.words[i]? = some (low x) → st.words[i + 1]? = some (high x) →
      u64At (((record id (st.words ++ ws) bytes ++ rest).take n).drop 4) (4 * i) = x := by
    intro i hi x hlo hhi
    rw [u64At, hword i (by omega) _ hlo, show 4 * i + 4 = 4 * (i + 1) by omega, hword (i + 1) hi _ hhi, join_words]
  obtain ⟨error, dev, ino, mode, nlink, uid, gid, size, atime, mtime, ctime⟩ := st
  simp only [parseStatV2Body, i64At, StatV2.mk.injEq]
  refine ⟨hword 0 (by omega) _ rfl, hjoin 1 (by omega) _ rfl rfl, hjoin 3 (by omega) _ rfl rfl,
    hword 5 (by omega) _ rfl, hword 6 (by omega) _ rfl, hword 7 (by omega) _ rfl, hword 8 (by omega) _ rfl,
    hjoin 9 (by omega) _ rfl rfl, ?_, ?_, ?_⟩
  · rw [hjoin 11 (by omega) atime.toUInt64 rfl rfl]
    rfl
  · rw [hjoin 13 (by omega) mtime.toUInt64 rfl rfl]
    rfl
  · rw [hjoin 15 (by omega) ctime.toUInt64 rfl rfl]
    rfl

/-! ## The pieces of an operation -/

section Pieces

variable {α β : Type} {cap k k' n : ℕ} {p p' rest : Bytes}

/-- What a piece does with the session it looks at. -/
theorem runs_state {f : SyncSession → SyncM β} {r : Except Error β}
    (h : ∀ s : SyncSession, s.Sees cap k p → ∃ s', f s s = (r, s') ∧ s'.Sees cap k' p') :
    Runs (state >>= f) cap k p r k' p' := fun s hs => h s hs

theorem runs_map {m : SyncM α} {r : Except Error α} (f : α → β) (h : Runs m cap k p r k' p') :
    Runs (f <$> m) cap k p (r.map f) k' p' := by
  cases r with
  | ok a => exact h.bind (.pure (f a))
  | error e => exact h.bind_error

theorem runs_checkPath {path : Bytes} (h : 0 ∉ path) : Runs (checkPath path) cap k p (.ok ()) k p := by
  rw [checkPath, if_neg h]
  exact .pure ()

theorem runs_check {r : Except Error Unit} (h : r = .ok ()) : Runs (check r) cap k p (.ok ()) k p := by
  rw [h]
  exact .pure ()

theorem runs_forM (l : List Bytes) : Runs (l.forM channelWrite) cap k p (.ok PUnit.unit) k p := by
  induction l with
  | nil => exact .pure _
  | cons bytes l ih => exact (Runs.channelWrite bytes).bind ih

theorem runs_writeMessage (id : SyncId) (arg : UInt32) (parts : List Bytes) :
    Runs (writeMessage id arg parts) cap k p (.ok ()) k p := by
  rw [writeMessage_whole]
  refine Runs.compact.bind (runs_state fun s hs => ?_)
  split_ifs with hfit
  · exact Runs.channelWrite (id.asBytes ++ toLeBytes arg ++ parts.flatten) _ (sees_scribble hs hfit)
  · exact ((Runs.channelWrite _).bind (runs_forM _)) s hs

theorem runs_writeRequest (id : SyncId) (parts : List Bytes) : Runs (writeRequest id parts) cap k p (.ok ()) k p :=
  runs_writeMessage _ _ _

theorem runs_rounds : Runs rounds cap k p (.ok (p.length + 1)) k p :=
  runs_state fun s hs => ⟨s, by rw [hs.pending]; rfl, hs⟩

theorem runs_peekU32 {offset : ℕ} {w : UInt32} (h : offset + 4 ≤ k) (hw : u32At p offset = w) :
    Runs (peekU32 offset) cap k p (.ok w) k p := by
  refine (Runs.peek h rfl).bind ?_
  rw [u32At_take le_rfl, hw]
  exact .pure w

theorem runs_skip (hcap : 0 < cap) (fuel left : ℕ) (hfuel : left ≤ fuel) (hp : left ≤ p.length) :
    Runs (skip fuel left) cap k p (.ok ()) 0 (p.drop left) := by
  induction fuel generalizing left k p with
  | zero =>
    obtain rfl : left = 0 := by omega
    rw [skip, List.drop_zero]
    exact (Runs.pure ()).less (Nat.zero_le _)
  | succ fuel ih =>
    cases left with
    | zero =>
      rw [skip, List.drop_zero]
      exact (Runs.pure ()).less (Nat.zero_le _)
    | succ left =>
      refine runs_state fun s hs => ?_
      rw [show s.rx.capacity = cap from hs.capacity]
      have hchunk : min (left + 1) cap ≤ left + 1 := Nat.min_le_left _ _
      have hrest := ih (k := 0) (p := p.drop (min (left + 1) cap)) (left + 1 - min (left + 1) cap) (by omega)
        (by rw [List.length_drop]; omega)
      rw [List.drop_drop, show min (left + 1) cap + (left + 1 - min (left + 1) cap) = left + 1 by omega] at hrest
      have hall : Runs (do
          fillAtLeast (min (left + 1) cap)
          advance (min (left + 1) cap)
          skip fuel (left + 1 - min (left + 1) cap)) cap k p (.ok ()) 0 (p.drop (left + 1)) :=
        (Runs.fillAtLeast (Nat.min_le_right (left + 1) cap) (hchunk.trans hp)).bind
          ((Runs.advance le_rfl rfl).bind (hrest.from_less (Nat.zero_le _)))
      exact hall s hs

/-- A FAIL is read to its end, and as much of its message kept as the buffer holds. -/
theorem runs_readFailBody {msg : Bytes} (hcap : 0 < cap) (hmsg : msg.length < 2 ^ 32) (hk : headerSize ≤ k) :
    Runs readFailBody cap k (failRecord msg ++ rest) (.ok (msg.take cap)) 0 rest := by
  have hlen : u32At (failRecord msg ++ rest) 4 = lenWord msg := u32At_record .fail [lenWord msg] msg rest 0 Nat.one_pos
  have hdrop : (failRecord msg ++ rest).drop headerSize = msg ++ rest := drop_record msg rest rfl
  refine (runs_peekU32 hk hlen).bind ((Runs.advance hk hdrop).bind ?_)
  refine runs_state fun s hs => ?_
  rw [show s.rx.capacity = cap from hs.capacity, lenWord_toNat hmsg]
  have hkept : min msg.length cap ≤ (msg ++ rest).length := by
    rw [List.length_append]
    omega
  have hmsg' : (msg ++ rest).take (min msg.length cap) = msg.take cap := by
    rw [List.take_append_of_le_length (Nat.min_le_left _ _), List.take_eq_take_iff]
    omega
  have hskip := runs_skip (k := 0) (p := (msg ++ rest).drop (min msg.length cap)) hcap (msg.length - min msg.length cap)
    (msg.length - min msg.length cap) le_rfl (by rw [List.length_drop, List.length_append]; omega)
  rw [List.drop_drop, show min msg.length cap + (msg.length - min msg.length cap) = msg.length by omega,
    List.drop_left] at hskip
  have hbody : ∀ {k1 : ℕ}, min msg.length cap ≤ k1 → Runs (do
      let msg' ← take (min msg.length cap)
      skip (msg.length - min msg.length cap) (msg.length - min msg.length cap)
      pure msg') cap k1 (msg ++ rest) (.ok (msg.take cap)) 0 rest := by
    intro k1 hk1
    exact (Runs.take hk1 hmsg' rfl).bind ((hskip.from_less (Nat.zero_le _)).bind (.pure _))
  dsimp only
  split_ifs with hpos
  · exact ((Runs.fillAtLeast (Nat.min_le_right _ _) hkept).bind (hbody le_rfl)) s hs
  · exact hbody (by omega) s hs

theorem runs_readNextId {allowed : List SyncId} {id : SyncId} {ws : List UInt32} {bytes : Bytes}
    (hcap : headerSize ≤ cap) (hid : id ≠ .fail) (hmem : id ∈ allowed)
    (hlen : headerSize ≤ (record id ws bytes ++ rest).length) :
    Runs (readNextId allowed) cap k (record id ws bytes ++ rest) (.ok id) headerSize (record id ws bytes ++ rest) := by
  refine (Runs.fillAtLeast hcap hlen).bind ?_
  refine (Runs.peek (by decide) (take_record id ws bytes rest)).bind ?_
  rw [SyncId.fromBytes_asBytes]
  cases id with
  | fail => exact absurd rfl hid
  | _ =>
    dsimp only
    rw [if_pos hmem]
    exact .pure _

theorem runs_readNextId_fail {allowed : List SyncId} {msg : Bytes} (hcap : headerSize ≤ cap)
    (hmsg : msg.length < 2 ^ 32) :
    Runs (readNextId allowed) cap k (failRecord msg ++ rest) (.error (.sync (.failed (msg.take cap)))) 0 rest := by
  have hlen : headerSize ≤ (failRecord msg ++ rest).length := by
    rw [List.length_append, failRecord, length_record]
    unfold headerSize
    simp only [List.length_singleton]
    omega
  refine (Runs.fillAtLeast hcap hlen).bind ?_
  refine (Runs.peek (by decide) (take_record .fail [lenWord msg] msg rest)).bind ?_
  rw [SyncId.fromBytes_asBytes]
  dsimp only
  refine (runs_readFailBody ?_ hmsg le_rfl).bind (.fail _)
  unfold headerSize at hcap
  omega

end Pieces

/-! ## The operations -/

section Operations

variable {cap k : ℕ} {rest path : Bytes} {advertises : Feature → Bool}

theorem runs_stat (st : StatV1) (hpath : 0 ∉ path) (hcap : statV1Size ≤ cap) :
    Runs (stat path) cap k (record .stat st.words [] ++ rest) (.ok st) 0 rest := by
  unfold statV1Size at hcap
  have hlen : (record .stat st.words [] ++ rest).length = 16 + rest.length := by
    rw [List.length_append, length_record]
    rfl
  have hword : ∀ i, i < 3 → ∀ w, st.words[i]? = some w →
      Runs (peekU32 (4 + 4 * i)) cap statV1Size (record .stat st.words [] ++ rest) (.ok w) statV1Size
        (record .stat st.words [] ++ rest) := by
    intro i hi w hw
    obtain ⟨h1, h2⟩ := List.getElem?_eq_some_iff.mp hw
    exact runs_peekU32 (by unfold statV1Size; omega) ((u32At_record _ _ _ _ _ h1).trans h2)
  have hend : Runs (do
      advance statV1Size
      pure (⟨st.mode, st.size, st.mtime⟩ : StatV1)) cap statV1Size (record .stat st.words [] ++ rest) (.ok st) 0 rest := by
    have hdrop : (record .stat st.words [] ++ rest).drop statV1Size = rest := drop_record [] rest rfl
    exact (Runs.advance le_rfl hdrop).bind (.pure st)
  have hid : Runs (readNextId [.stat]) cap k (record .stat st.words [] ++ rest) (.ok .stat) headerSize
      (record .stat st.words [] ++ rest) :=
    runs_readNextId (by unfold headerSize; omega) (by decide) (by decide) (by rw [hlen]; unfold headerSize; omega)
  refine (runs_checkPath hpath).bind (Runs.compact.bind ((runs_writeRequest _ _).bind (hid.bind ?_)))
  refine (Runs.fillAtLeast hcap (by rw [hlen]; omega)).bind ?_
  exact (hword 0 (by omega) _ rfl).bind ((hword 1 (by omega) _ rfl).bind ((hword 2 (by omega) _ rfl).bind hend))

theorem runs_statV2 (st : StatV2) (hpath : 0 ∉ path) (hfeature : requireFeature advertises .statV2 = .ok ())
    (hcap : statV2Size ≤ cap) :
    Runs (statV2 advertises path) cap k (record .sta2 st.words [] ++ rest)
      (if st.error ≠ 0 then .error (.sync (.remoteErrno st.error)) else .ok st) 0 rest := by
  have hlen : (record .sta2 st.words [] ++ rest).length = 72 + rest.length := by
    rw [List.length_append, length_record]
    rfl
  have hparse : parseStatV2Body (((record .sta2 st.words [] ++ rest).take statV2Size).drop 4) = st := by
    have := parse_words .sta2 st [] [] rest (le_refl statV2Size)
    rwa [List.append_nil] at this
  have hid : Runs (readNextId [.sta2]) cap k (record .sta2 st.words [] ++ rest) (.ok .sta2) headerSize
      (record .sta2 st.words [] ++ rest) :=
    runs_readNextId (by unfold headerSize; unfold statV2Size at hcap; omega) (by decide) (by decide)
      (by rw [hlen]; unfold headerSize; omega)
  refine (runs_checkPath hpath).bind ((runs_check hfeature).bind ?_)
  refine Runs.compact.bind ((runs_writeRequest _ _).bind (hid.bind ?_))
  refine (Runs.fillAtLeast hcap (by rw [hlen]; unfold statV2Size; omega)).bind ((Runs.peek le_rfl rfl).bind ?_)
  have hdrop : (record .sta2 st.words [] ++ rest).drop statV2Size = rest := drop_record [] rest rfl
  rw [hparse]
  refine (Runs.advance le_rfl hdrop).bind ?_
  split_ifs
  · exact .fail _
  · exact .pure _

/-- FAIL in the place of the record. -/
theorem runs_failed {α : Type} {id : SyncId} {msg : Bytes} {f : SyncId → SyncM α} (hcap : headerSize ≤ cap)
    (hmsg : msg.length < 2 ^ 32) :
    Runs (do
      compact
      writeRequest id [path]
      let next ← readNextId [id]
      f next) cap k (failRecord msg ++ rest) (.error (.sync (.failed (msg.take cap)))) 0 rest :=
  Runs.compact.bind ((runs_writeRequest _ _).bind (runs_readNextId_fail hcap hmsg).bind_error)

/-! ### Series of records -/

/-- A series of records has no more of them than bytes. -/
theorem length_le_flatMap {ε : Type} (enc : ε → Bytes) (henc : ∀ e, 0 < (enc e).length) (l : List ε) :
    l.length ≤ (l.flatMap enc).length := by
  induction l with
  | nil => exact le_rfl
  | cons e l ih =>
    have := henc e
    rw [List.flatMap_cons, List.length_append, List.length_cons]
    omega

/-- The directory entries of one version: how an entry is laid out and how it is read back. -/
structure Layout (ε : Type) where
  size : ℕ
  id : SyncId
  namelen : Bytes → ℕ
  entry : Bytes → Bytes → ε
  words : ε → List UInt32
  name : ε → Bytes
  header_le : headerSize ≤ size
  id_ne : id ≠ .fail ∧ id ≠ .done
  length_words : ∀ e, 4 + 4 * (words e).length = size
  namelen_eq : ∀ e rest, (name e).length < 2 ^ 32 →
    namelen ((record id (words e) (name e) ++ rest).take size) = (name e).length
  entry_eq : ∀ e rest, entry ((record id (words e) (name e) ++ rest).take size) (name e) = e

namespace Layout

variable {ε : Type} (l : Layout ε)

def record (e : ε) : Bytes := Sync.record l.id (l.words e) (l.name e)

def bytes (entries : List ε) (close : Close) : Bytes := entries.flatMap l.record ++ close.bytes

theorem runs_loop {entries : List ε} {close : Close} (hcap : headerSize ≤ cap)
    (hfits : ∀ e ∈ entries, l.size ≤ cap ∧ Fits cap 0 (l.name e)) (hclose : close.Fits cap l.size) (fuel : ℕ)
    (hfuel : entries.length < fuel) (acc : List ε) :
    Runs (listLoop l.size l.id l.namelen l.entry fuel acc) cap k (l.bytes entries close ++ rest)
      (Reply.closing cap (acc ++ entries) close) 0 rest := by
  have hhead := l.header_le
  induction fuel generalizing entries acc k with
  | zero => exact absurd hfuel (Nat.not_lt_zero _)
  | succ fuel ih =>
    cases entries with
    | nil =>
      rw [bytes, List.flatMap_nil, List.nil_append, List.append_nil]
      cases close with
      | fail msg => exact (runs_readNextId_fail hcap hclose).bind_error
      | done pad =>
        obtain ⟨hpad, hsize⟩ := hclose
        have hlen : l.size ≤ (Sync.record .done pad [] ++ rest).length := by
          rw [List.length_append, length_record]
          omega
        have hid : Runs (readNextId [l.id, .done]) cap k (Sync.record .done pad [] ++ rest) (.ok .done) headerSize
            (Sync.record .done pad [] ++ rest) := runs_readNextId hcap (by decide) (by simp) (hhead.trans hlen)
        refine hid.bind ((Runs.fillAtLeast hsize hlen).bind ?_)
        rw [if_pos rfl]
        exact ((Runs.advance le_rfl (drop_record [] rest hpad)).bind (.pure acc)).less (Nat.zero_le _)
    | cons e entries =>
      obtain ⟨hsize, hword, hname⟩ := hfits e List.mem_cons_self
      rw [Nat.zero_add] at hname
      have hsplit : l.bytes (e :: entries) close ++ rest =
          Sync.record l.id (l.words e) (l.name e) ++ (l.bytes entries close ++ rest) := by
        simp only [bytes, List.flatMap_cons, List.append_assoc]
        rfl
      have hwords := l.length_words e
      have hlen : l.size ≤ (Sync.record l.id (l.words e) (l.name e) ++ (l.bytes entries close ++ rest)).length := by
        rw [List.length_append, length_record]
        omega
      have hnext := ih (k := 0) (fun e' he' => hfits e' (List.mem_cons_of_mem e he')) (by simpa using hfuel) (acc ++ [e])
      rw [List.append_assoc, List.singleton_append] at hnext
      rw [hsplit]
      refine (runs_readNextId hcap l.id_ne.1 List.mem_cons_self (hhead.trans hlen)).bind
        ((Runs.fillAtLeast hsize hlen).bind ?_)
      rw [if_neg l.id_ne.2]
      refine (Runs.peek le_rfl rfl).bind ((Runs.advance le_rfl (drop_record _ _ hwords)).bind ?_)
      rw [l.namelen_eq e _ hword]
      refine (Runs.fillAtLeast hname (by rw [List.length_append]; omega)).bind
        ((Runs.take le_rfl List.take_left List.drop_left).bind ?_)
      rw [l.entry_eq]
      exact hnext.from_less (Nat.zero_le _)

/-- A listing: the request, and the loop with enough rounds. -/
theorem runs_list {request : SyncId} {entries : List ε} {close : Close} (hcap : headerSize ≤ cap)
    (hfits : ∀ e ∈ entries, l.size ≤ cap ∧ Fits cap 0 (l.name e)) (hclose : close.Fits cap l.size) :
    Runs (do
      compact
      writeRequest request [path]
      listLoop l.size l.id l.namelen l.entry (← rounds) []) cap k (l.bytes entries close ++ rest)
      (Reply.closing cap entries close) 0 rest := by
  refine Runs.compact.bind ((runs_writeRequest _ _).bind (runs_rounds.bind ?_))
  refine l.runs_loop hcap hfits hclose _ ?_ []
  have hrecords := length_le_flatMap l.record
    (fun e => by have := l.length_words e; rw [record, length_record]; omega) entries
  rw [List.length_append, bytes, List.length_append]
  omega

end Layout

/-- `DENT` -/
def dentLayout : Layout DirEntry where
  size := dentV1Size
  id := .dent
  namelen := dentNamelen
  entry := dentEntry
  words e := [e.mode, e.size, e.mtime, lenWord e.name]
  name e := e.name
  header_le := by decide
  id_ne := ⟨nofun, nofun⟩
  length_words _ := rfl
  namelen_eq e rest h := by
    rw [dentNamelen, u32At_take (by decide), u32At_record _ _ _ _ 3 (by simp)]
    exact lenWord_toNat h
  entry_eq e rest := by
    simp only [dentEntry]
    rw [u32At_take (by decide), u32At_take (by decide), u32At_take (by decide), u32At_record _ _ _ _ 0 (by simp),
      u32At_record _ _ _ _ 1 (by simp), u32At_record _ _ _ _ 2 (by simp)]
    rfl

/-- `DNT2` -/
def dnt2Layout : Layout DirEntryV2 where
  size := dentV2Size
  id := .dnt2
  namelen := dnt2Namelen
  entry := dnt2Entry
  words e := e.stat.words ++ [lenWord e.name]
  name e := e.name
  header_le := by decide
  id_ne := ⟨nofun, nofun⟩
  length_words _ := rfl
  namelen_eq e rest h := by
    have hi : 17 < (e.stat.words ++ [lenWord e.name]).length := by
      rw [List.length_append]
      exact Nat.lt_succ_self 17
    rw [dnt2Namelen, u32At_take (by decide), u32At_record _ _ _ _ 17 hi]
    exact lenWord_toNat h
  entry_eq e rest := by
    rw [dnt2Entry, List.take_take, show min statV2Size dentV2Size = statV2Size from rfl, parse_words _ _ _ _ _ le_rfl]

section Recv

variable [Usize]

theorem runs_recvNext {chunk : Bytes} (hcap : cap ≤ usizeMax) (hfits : Fits cap headerSize chunk) :
    Runs recvNext cap k (dataRecord chunk ++ rest) (.ok (some chunk)) 0 rest := by
  obtain ⟨hword, hfit⟩ := hfits
  have hlen : (dataRecord chunk ++ rest).length = headerSize + chunk.length + rest.length := by
    rw [List.length_append, dataRecord, length_record]
    rfl
  have hdrop : (dataRecord chunk ++ rest).drop headerSize = chunk ++ rest := drop_record chunk rest rfl
  have hword4 : u32At (dataRecord chunk ++ rest) 4 = lenWord chunk :=
    u32At_record .data [lenWord chunk] chunk rest 0 Nat.one_pos
  have hid : Runs (readNextId [.data, .done]) cap k (dataRecord chunk ++ rest) (.ok .data) headerSize
      (dataRecord chunk ++ rest) :=
    runs_readNextId (by omega) (by decide) (by decide) (by rw [← dataRecord, hlen]; omega)
  refine Runs.compact.bind (hid.bind ?_)
  rw [if_neg (by decide)]
  refine (runs_peekU32 le_rfl hword4).bind ?_
  rw [lenWord_toNat hword, if_neg (by omega)]
  refine (Runs.fillAtLeast hfit (by rw [hlen]; omega)).bind
    ((Runs.advance (Nat.le_add_right _ _) hdrop).bind ((Runs.take (by omega) List.take_left List.drop_left).bind ?_))
  exact (Runs.pure _).less (Nat.zero_le _)

theorem runs_recvLoop {chunks : List Bytes} {close : Close} (hcap : headerSize ≤ cap) (husize : cap ≤ usizeMax)
    (hfits : ∀ c ∈ chunks, Fits cap headerSize c) (hclose : close.Fits cap headerSize) (fuel : ℕ)
    (hfuel : chunks.length < fuel) (acc : Bytes) :
    Runs (recvLoop fuel acc) cap k (chunks.flatMap dataRecord ++ close.bytes ++ rest)
      (Reply.closing cap (acc ++ chunks.flatten) close) 0 rest := by
  induction fuel generalizing chunks acc k with
  | zero => exact absurd hfuel (Nat.not_lt_zero _)
  | succ fuel ih =>
    cases chunks with
    | nil =>
      rw [List.flatMap_nil, List.nil_append, List.flatten_nil, List.append_nil]
      cases close with
      | fail msg => exact (Runs.compact.bind (runs_readNextId_fail hcap hclose).bind_error).bind_error
      | done pad =>
        obtain ⟨hpad, -⟩ := hclose
        have hlen : headerSize ≤ (record .done pad [] ++ rest).length := by
          rw [List.length_append, length_record]
          omega
        have hnone : Runs recvNext cap k (record .done pad [] ++ rest) (.ok none) 0 rest := by
          have hid : Runs (readNextId [.data, .done]) cap k (record .done pad [] ++ rest) (.ok .done) headerSize
              (record .done pad [] ++ rest) := runs_readNextId hcap (by decide) (by decide) hlen
          refine Runs.compact.bind (hid.bind ?_)
          rw [if_pos rfl]
          exact (Runs.advance le_rfl (drop_record [] rest hpad)).bind (.pure none)
        exact hnone.bind (.pure acc)
    | cons c chunks =>
      have hnext := ih (k := 0) (fun c' hc' => hfits c' (List.mem_cons_of_mem c hc')) (by simpa using hfuel) (acc ++ c)
      rw [List.flatMap_cons, List.append_assoc, List.append_assoc, ← List.append_assoc (chunks.flatMap dataRecord),
        List.flatten_cons, ← List.append_assoc acc]
      exact (runs_recvNext husize (hfits c List.mem_cons_self)).bind hnext

omit [Usize] in
theorem length_lt_chunks {chunks : List Bytes} {close : Close} :
    chunks.length < (chunks.flatMap dataRecord ++ close.bytes ++ rest).length + 1 := by
  have := length_le_flatMap dataRecord (fun c => by rw [dataRecord, length_record]; omega) chunks
  rw [List.length_append, List.length_append]
  omega

theorem runs_recv {chunks : List Bytes} {close : Close} (hpath : 0 ∉ path) (hcap : headerSize ≤ cap)
    (husize : cap ≤ usizeMax) (hfits : ∀ c ∈ chunks, Fits cap headerSize c) (hclose : close.Fits cap headerSize) :
    Runs (recv path) cap k (chunks.flatMap dataRecord ++ close.bytes ++ rest)
      (Reply.closing cap chunks.flatten close) 0 rest := by
  refine (runs_checkPath hpath).bind (Runs.compact.bind ((runs_writeRequest _ _).bind (runs_rounds.bind ?_)))
  exact runs_recvLoop hcap husize hfits hclose _ length_lt_chunks []

theorem runs_recvV2 {flags : UInt32} {chunks : List Bytes} {close : Close} (hpath : 0 ∉ path)
    (hflags : requireRecvV2 advertises flags = .ok ()) (hcap : headerSize ≤ cap) (husize : cap ≤ usizeMax)
    (hfits : ∀ c ∈ chunks, Fits cap headerSize c) (hclose : close.Fits cap headerSize) :
    Runs (recvV2 advertises path flags) cap k (chunks.flatMap dataRecord ++ close.bytes ++ rest)
      (Reply.closing cap chunks.flatten close) 0 rest := by
  refine (runs_checkPath hpath).bind ((runs_check hflags).bind ?_)
  refine (runs_writeMessage _ _ _).bind (runs_rounds.bind ?_)
  exact runs_recvLoop hcap husize hfits hclose _ length_lt_chunks []

/-- **One operation and its reply.** -/
theorem op_runs {op : Op} {reply : Reply} (hans : reply.Answers op) (hpath : 0 ∉ op.path)
    (hrequires : op.requires advertises = .ok ()) (hcap : headerSize ≤ cap) (husize : cap ≤ usizeMax)
    (hfits : reply.Fits cap) :
    Runs (op.run advertises) cap k (reply.bytes ++ rest) (reply.result cap) 0 rest := by
  have hclosing : ∀ {α : Type} {m : SyncM α} {p : Bytes} (f : α → Value) (a : α) (close : Close),
      Runs m cap k p (Reply.closing cap a close) 0 rest →
      Runs (f <$> m) cap k p (Reply.closing cap (f a) close) 0 rest := by
    intro α m p f a close h
    have hmap := runs_map f h
    cases close <;> exact hmap
  cases op with
  | stat path =>
    cases reply with
    | stat st => exact runs_map _ (runs_stat st hpath hfits)
    | failed msg =>
      refine runs_map Value.stat (r := .error _) ((runs_checkPath hpath).bind ?_)
      exact runs_failed hcap hfits
    | _ => cases hans
  | statV2 path =>
    cases reply with
    | statV2 st =>
      have hresult : (Reply.statV2 st).result cap = (if st.error ≠ 0 then .error (.sync (.remoteErrno st.error))
          else .ok st : Except Error StatV2).map Value.statV2 := by
        rw [apply_ite (Except.map Value.statV2)]
        rfl
      rw [hresult]
      exact runs_map Value.statV2 (runs_statV2 st hpath hrequires hfits)
    | failed msg =>
      refine runs_map Value.statV2 (r := .error _) ((runs_checkPath hpath).bind ((runs_check hrequires).bind ?_))
      exact runs_failed hcap hfits
    | _ => cases hans
  | list path =>
    cases reply with
    | list entries close =>
      refine hclosing Value.list entries close ((runs_checkPath hpath).bind ?_)
      exact dentLayout.runs_list hcap hfits.1 hfits.2
    | _ => cases hans
  | listV2 path =>
    cases reply with
    | listV2 entries close =>
      refine hclosing Value.listV2 entries close ((runs_checkPath hpath).bind ((runs_check hrequires).bind ?_))
      exact dnt2Layout.runs_list hcap hfits.1 hfits.2
    | _ => cases hans
  | recv path =>
    cases reply with
    | data chunks close =>
      exact hclosing Value.data chunks.flatten close (runs_recv hpath hcap husize hfits.1 hfits.2)
    | _ => cases hans
  | recvV2 path flags =>
    cases reply with
    | data chunks close =>
      exact hclosing Value.data chunks.flatten close (runs_recvV2 hpath hrequires hcap husize hfits.1 hfits.2)
    | _ => cases hans

/-- A fresh session over a buffer, in front of a channel that will deliver `stream` cut as `cuts` says. -/
def SyncSession.new (buf : Bytes) (stream : Bytes) (cuts : List ℕ) : SyncSession := ⟨⟨buf, 0, 0⟩, stream, cuts, [], []⟩

/-- **A session stays aligned**: whatever the cuts and the bytes that follow, each operation returns what its reply
says, and the next one starts at the first byte behind that. -/
theorem session_aligned (advertises : Feature → Bool) (buf : Bytes) (cuts : List ℕ) (calls : List (Op × Reply))
    (rest : Bytes) (hcap : headerSize ≤ buf.length) (husize : buf.length ≤ usizeMax)
    (hcalls : ∀ c ∈ calls, c.2.Answers c.1 ∧ 0 ∉ c.1.path ∧ c.1.requires advertises = .ok () ∧ c.2.Fits buf.length) :
    ∃ s', runOps advertises (calls.map Prod.fst) (SyncSession.new buf (calls.flatMap (fun c => c.2.bytes) ++ rest) cuts) =
        (calls.map (fun c => c.2.result buf.length), s') ∧ s'.pending = rest := by
  have hall : ∀ (calls : List (Op × Reply)) (s : SyncSession),
      (∀ c ∈ calls, c.2.Answers c.1 ∧ 0 ∉ c.1.path ∧ c.1.requires advertises = .ok () ∧ c.2.Fits buf.length) →
      s.Sees buf.length 0 (calls.flatMap (fun c => c.2.bytes) ++ rest) →
      ∃ s', runOps advertises (calls.map Prod.fst) s = (calls.map (fun c => c.2.result buf.length), s') ∧ s'.pending = rest := by
    intro calls
    induction calls with
    | nil => exact fun s _ hs => ⟨s, rfl, hs.pending⟩
    | cons c calls ih =>
      intro s hcalls hs
      obtain ⟨hans, hpath, hrequires, hfits⟩ := hcalls c List.mem_cons_self
      rw [List.flatMap_cons, List.append_assoc] at hs
      obtain ⟨s1, h1, hs1⟩ := op_runs hans hpath hrequires hcap husize hfits s hs
      obtain ⟨s2, h2, hs2⟩ := ih s1 (fun c' hc' => hcalls c' (List.mem_cons_of_mem c hc')) hs1
      refine ⟨s2, ?_, hs2⟩
      simp only [List.map_cons, runOps, h1, h2]
  refine hall calls _ hcalls ⟨⟨le_rfl, Nat.zero_le _⟩, rfl, ?_, Nat.zero_le _, nofun⟩
  simp [SyncSession.pending, SyncSession.new, RecvBuf.unread]

end Recv

end Operations

/-! ## A small session -/

/-- A stat, a listing that fails after one entry, and a pull. -/
def sampleCalls : List (Op × Reply) :=
  [(.stat [47], .stat ⟨0o100644, 5, 7⟩),
    (.list [47], .list [⟨[97, 98], 1, 2, 3⟩] (.fail (List.replicate 30 33))),
    (.recvV2 [47, 97] 0, .data [[1, 2, 3], []] (.done [0]))]

/-- A buffer of 24 bytes, and reads of one byte, none and five at first. -/
theorem session_aligned_sample :
    ∃ s', @runOps usize64 (· = .sendrecvV2) (sampleCalls.map Prod.fst)
        (SyncSession.new (List.replicate 24 0) (sampleCalls.flatMap (fun c => c.2.bytes) ++ [9]) [1, 0, 5]) =
      ([.ok (.stat ⟨0o100644, 5, 7⟩), .error (.sync (.failed (List.replicate 24 33))), .ok (.data [1, 2, 3])], s') ∧
      s'.pending = [9] :=
  @session_aligned usize64 (· = .sendrecvV2) (List.replicate 24 0) [1, 0, 5] sampleCalls [9] (by decide) (by decide) (by
    intro c hc
    simp only [sampleCalls, List.mem_cons, List.not_mem_nil, or_false] at hc
    rcases hc with rfl | rfl | rfl
    · exact ⟨trivial, by decide, rfl, by simp [Reply.Fits, statV1Size]⟩
    · exact ⟨trivial, by decide, rfl, by simp [Reply.Fits, Fits, Close.Fits, dentV1Size]⟩
    · exact ⟨trivial, by decide, rfl, by simp [Reply.Fits, Fits, Close.Fits, headerSize]⟩)

end LibAdb.Sync
