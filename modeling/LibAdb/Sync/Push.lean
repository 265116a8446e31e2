import LibAdb.Lib.Numerals
import LibAdb.Sync.Session

/-!
# LibAdb.Sync.Push — a push, and what the device reads

`base/decimal.rs` and the `send*` calls of `sync.rs`.  `Sends` says which bytes a piece of code writes to a channel whose
writes succeed, however the message is put together; `Push.read` is the device's reader: a request, the `DATA` records
behind it, and `DONE` with the time.  Reading back what `send` and `send_v2` write gives what the caller said
(`push_means_what_was_said`).
-/

namespace LibAdb

open Numerals

/-! ## Decimal numbers -/

/-- The loop of `format_u32`, from the end of the array on: `pos` places are left, `out` stands behind them. -/
def formatLoop : ℕ → ℕ → Bytes → Bytes
  | 0, _, out => out
  | pos + 1, n, out => if n = 0 then out else formatLoop pos (n / 10) (UInt8.ofNat (48 + n % 10) :: out)

/-- `format_u32`; the array has ten places. -/
def formatU32 (n : UInt32) : Bytes := if n = 0 then [48] else formatLoop 10 n.toNat []

/-- A number in decimal, as a device reads it. -/
def readDecimal (digits : Bytes) : Option UInt32 :=
  if digits ≠ [] ∧ digits.all (isDigit 10) ∧ numeral 10 0 digits < 2 ^ 32 then some (UInt32.ofNat (numeral 10 0 digits))
  else none

theorem digit_lowest (n : ℕ) : digit 10 (UInt8.ofNat (48 + n % 10)) = some (n % 10) := by
  have hbyte : (UInt8.ofNat (48 + n % 10)).toNat = 48 + n % 10 := by
    rw [UInt8.toNat_ofNat']
    omega
  rw [digit, hbyte, if_pos (by omega), Nat.add_sub_cancel_left, Option.filter_some, if_pos]
  exact decide_eq_true (Nat.mod_lt n (by decide))

/-- The digits in front of `out` are those of `n`. -/
theorem numeral_formatLoop {pos n : ℕ} (out : Bytes) (h : n < 10 ^ pos) :
    numeral 10 0 (formatLoop pos n out) = numeral 10 n out := by
  induction pos generalizing n out with
  | zero =>
    obtain rfl : n = 0 := by simpa using h
    rfl
  | succ pos ih =>
    unfold formatLoop
    split_ifs with hn
    · rw [hn]
    · have hdiv : n / 10 < 10 ^ pos := by
        rw [pow_succ'] at h
        exact Nat.div_lt_of_lt_mul h
      rw [ih _ hdiv]
      rw [numeral, List.foldl_cons, digit_lowest, Option.getD_some, Nat.div_add_mod']
      rfl

theorem formatLoop_digits {pos n : ℕ} {out : Bytes} (h : ∀ b ∈ out, isDigit 10 b = true) :
    ∀ b ∈ formatLoop pos n out, isDigit 10 b = true := by
  induction pos generalizing n out with
  | zero => exact h
  | succ pos ih =>
    unfold formatLoop
    split_ifs
    · exact h
    · refine ih fun b hb => ?_
      rcases List.mem_cons.mp hb with rfl | hb
      · rw [isDigit, digit_lowest]
        rfl
      · exact h b hb

theorem length_le_formatLoop (pos n : ℕ) (out : Bytes) : out.length ≤ (formatLoop pos n out).length := by
  induction pos generalizing n out with
  | zero => exact le_rfl
  | succ pos ih =>
    unfold formatLoop
    split_ifs
    · exact le_rfl
    · exact (Nat.le_succ _).trans (ih (n / 10) (UInt8.ofNat (48 + n % 10) :: out))

theorem length_formatLoop_le (pos n : ℕ) (out : Bytes) : (formatLoop pos n out).length ≤ pos + out.length := by
  induction pos generalizing n out with
  | zero => exact (Nat.zero_add _).ge
  | succ pos ih =>
    unfold formatLoop
    split_ifs
    · omega
    · have := ih (n / 10) (UInt8.ofNat (48 + n % 10) :: out)
      rw [List.length_cons] at this
      omega

theorem length_formatU32_le (n : UInt32) : (formatU32 n).length ≤ 10 := by
  unfold formatU32
  split_ifs
  · decide
  · exact length_formatLoop_le 10 n.toNat []

theorem formatU32_digits (n : UInt32) : ∀ b ∈ formatU32 n, isDigit 10 b = true := by
  unfold formatU32
  split_ifs
  · exact List.all_eq_true.mp rfl
  · exact formatLoop_digits fun b hb => absurd hb List.not_mem_nil

/-- **Ten places are enough**: the digits are read back as the number. -/
theorem readDecimal_formatU32 (n : UInt32) : readDecimal (formatU32 n) = some n := by
  have hlt := n.toNat_lt
  have hvalue : numeral 10 0 (formatU32 n) = n.toNat := by
    unfold formatU32
    split_ifs with h0
    · rw [h0]
      rfl
    · exact numeral_formatLoop [] (hlt.trans (by decide))
  have hne : formatU32 n ≠ [] := by
    unfold formatU32
    split_ifs with h0
    · exact List.cons_ne_nil _ _
    · have hpos : n.toNat ≠ 0 := fun h => h0 (UInt32.toNat.inj h)
      rw [formatLoop, if_neg hpos]
      exact List.ne_nil_of_length_pos (length_le_formatLoop 9 (n.toNat / 10) [UInt8.ofNat (48 + n.toNat % 10)])
  unfold readDecimal
  rw [if_pos ⟨hne, List.all_eq_true.mpr (formatU32_digits n), by rw [hvalue]; exact hlt⟩, hvalue, UInt32.ofNat_toNat]

namespace Sync

open SyncM

/-! ## Pushing -/

/-- `SYNC_DATA_MAX` -/
def syncDataMax : ℕ := 64 * 1024

/-- `send_start` -/
def sendStart (path : Bytes) (mode : UInt32) : SyncM Unit := do
  checkPath path
  writeRequest .send [path, [comma], formatU32 mode]

/-- `send_v2_start` -/
def sendV2Start (advertises : Feature → Bool) (path : Bytes) (mode flags : UInt32) : SyncM Unit := do
  checkPath path
  check (requireSendrecvV2 advertises flags)
  writeMessage .snd2 (UInt32.ofNat path.length) [path, SyncId.snd2.asBytes, toLeBytes mode, toLeBytes flags]

/-- `slice::chunks`; there are no more chunks than bytes. -/
def chunksLoop (size : ℕ) : ℕ → Bytes → List Bytes
  | 0, _ => []
  | fuel + 1, data => if data = [] then [] else data.take size :: chunksLoop size fuel (data.drop size)

def chunks (size : ℕ) (data : Bytes) : List Bytes := chunksLoop size data.length data

/-- `send_data` -/
def sendData (data : Bytes) : SyncM Unit := (chunks syncDataMax data).forM fun chunk => writeRequest .data [chunk]

/-- `send_done` -/
def sendDone (mtime : UInt32) : SyncM Unit := do
  writeHeader .done mtime
  compact
  let _ ← readNextId [.okay]
  advance headerSize

/-- `send` -/
def send (path : Bytes) (mode mtime : UInt32) (data : Bytes) : SyncM Unit := do
  sendStart path mode
  sendData data
  sendDone mtime

/-- `send_v2` -/
def sendV2 (advertises : Feature → Bool) (path : Bytes) (mode mtime flags : UInt32) (data : Bytes) : SyncM Unit := do
  sendV2Start advertises path mode flags
  sendData data
  sendDone mtime

/-! ## The device's side -/

/-- A push, as the device has read it: `SEND` carries no flags. -/
structure Push where
  path : Bytes
  mode : UInt32
  flags : Option UInt32
  chunks : List Bytes
  mtime : UInt32
  deriving DecidableEq, Repr

/-- The argument of the record in front, and what comes behind it. -/
def readRecord (bytes : Bytes) : Option (Bytes × Bytes) :=
  let len := (u32At bytes 4).toNat
  if bytes.length < headerSize + len then none
  else some ((bytes.drop headerSize).take len, bytes.drop (headerSize + len))

/-- `DATA` records up to `DONE`. -/
def readChunks : ℕ → Bytes → Option (List Bytes × UInt32 × Bytes)
  | 0, _ => none
  | fuel + 1, bytes =>
    if bytes.take 4 = SyncId.data.asBytes then do
      let (chunk, rest) ← readRecord bytes
      let (chunks, mtime, rest) ← readChunks fuel rest
      pure (chunk :: chunks, mtime, rest)
    else if bytes.take 4 = SyncId.done.asBytes ∧ headerSize ≤ bytes.length then
      some ([], u32At bytes 4, bytes.drop headerSize)
    else none

/-- The path, the mode and the flags of a request. -/
def readRequest (bytes : Bytes) : Option (Bytes × UInt32 × Option UInt32 × Bytes) :=
  if bytes.take 4 = SyncId.send.asBytes then do
    let (arg, rest) ← readRecord bytes
    let (path, digits) ← rsplitOnce comma arg
    let mode ← readDecimal digits
    pure (path, mode, none, rest)
  else if bytes.take 4 = SyncId.snd2.asBytes then do
    let (path, second) ← readRecord bytes
    if second.take 4 = SyncId.snd2.asBytes ∧ 12 ≤ second.length then
      pure (path, u32At second 4, some (u32At second 8), second.drop 12)
    else none
  else none

/-- What the device makes of the bytes, and what it has not read. -/
def Push.read (bytes : Bytes) : Option (Push × Bytes) := do
  let (path, mode, flags, rest) ← readRequest bytes
  let (chunks, mtime, rest) ← readChunks (rest.length + 1) rest
  pure (⟨path, mode, flags, chunks, mtime⟩, rest)

/-! ## What is written -/

section Writing

variable {α β : Type} {bytes more : Bytes}

/-- No write fails. -/
def Healthy (s : SyncSession) : Prop := ∀ f ∈ s.faults, f = none

/-- On a channel whose writes succeed, the code succeeds and has written `bytes`. -/
def Sends (m : SyncM α) (bytes : Bytes) : Prop :=
  ∀ s : SyncSession, Healthy s →
    ∃ a s', m s = (.ok a, s') ∧ s'.written.flatten = s.written.flatten ++ bytes ∧ Healthy s'

/-- The code writes nothing, whatever it returns. -/
def Silent (m : SyncM α) : Prop := ∀ s : SyncSession, (m s).2.written = s.written

theorem Sends.bind {m : SyncM α} {f : α → SyncM β} (hm : Sends m bytes) (hf : ∀ a, Sends (f a) more) :
    Sends (m >>= f) (bytes ++ more) := by
  intro s hs
  obtain ⟨a, s1, h1, hw1, hs1⟩ := hm s hs
  obtain ⟨b, s2, h2, hw2, hs2⟩ := hf a s1 hs1
  refine ⟨b, s2, ?_, ?_, hs2⟩
  · rw [bind_of_ok h1 f, h2]
  · rw [hw2, hw1, List.append_assoc]

/-- What only looks at the session, or moves bytes about in its buffer. -/
theorem sends_nothing {m : SyncM α} (h : ∀ s, ∃ a rx, m s = (.ok a, { s with rx := rx })) : Sends m [] := by
  intro s hs
  obtain ⟨a, rx, hm⟩ := h s
  exact ⟨a, { s with rx := rx }, hm, (List.append_nil _).symm, hs⟩

theorem sends_channelWrite (bytes : Bytes) : Sends (channelWrite bytes) bytes := by
  intro s hs
  have hok : s.faults.head?.join = none := by
    cases hf : s.faults with
    | nil => rfl
    | cons f fs =>
      have hnone : f = none := hs f (by rw [hf]; exact List.mem_cons_self)
      rw [hnone]
      rfl
  refine ⟨(), { s with faults := s.faults.tail, written := s.written ++ [bytes] }, ?_, ?_, ?_⟩
  · unfold channelWrite
    rw [hok]
  · show (s.written ++ [bytes]).flatten = _
    rw [List.flatten_append, List.flatten_singleton]
  · exact fun f hf => hs f (List.mem_of_mem_tail hf)

theorem sends_forM {γ : Type} {f : γ → SyncM PUnit} {text : γ → Bytes} (h : ∀ c, Sends (f c) (text c)) (l : List γ) :
    Sends (l.forM f) (l.flatMap text) := by
  induction l with
  | nil => exact sends_nothing fun s => ⟨PUnit.unit, s.rx, rfl⟩
  | cons c l ih =>
    rw [List.flatMap_cons]
    exact (h c).bind fun _ => ih

/-- A part that is empty adds nothing. -/
theorem flatten_filter_ne_nil (parts : List Bytes) : (parts.filter (· ≠ [])).flatten = parts.flatten := by
  induction parts with
  | nil => rfl
  | cons p parts ih =>
    by_cases hp : p = []
    · rw [List.filter_cons_of_neg (by simpa using hp), ih, hp, List.flatten_cons, List.nil_append]
    · rw [List.filter_cons_of_pos (by simpa using hp), List.flatten_cons, List.flatten_cons, ih]

theorem sends_state {f : SyncSession → SyncM α} (h : ∀ s, Sends (f s) bytes) : Sends (state >>= f) bytes :=
  fun s hs => h s s hs

/-- **A message is its header and its parts**, in one write or in several. -/
theorem sends_writeMessage (id : SyncId) (arg : UInt32) (parts : List Bytes) :
    Sends (writeMessage id arg parts) (id.asBytes ++ toLeBytes arg ++ parts.flatten) := by
  have hcompact : Sends compact [] := sends_nothing fun s => ⟨(), s.rx.compact, rfl⟩
  rw [writeMessage_whole]
  refine hcompact.bind fun _ => sends_state fun s => ?_
  split_ifs
  · have hscribble : Sends (scribble 0 (id.asBytes ++ toLeBytes arg ++ parts.flatten)) [] :=
      sends_nothing fun s => ⟨(), _, rfl⟩
    exact hscribble.bind fun _ => sends_channelWrite _
  · have hparts := sends_forM sends_channelWrite (parts.filter (· ≠ []))
    rw [List.flatMap_id', flatten_filter_ne_nil] at hparts
    exact (sends_channelWrite _).bind fun _ => hparts

theorem sends_writeRequest (id : SyncId) (parts : List Bytes) :
    Sends (writeRequest id parts)
      (id.asBytes ++ toLeBytes (UInt32.ofNat parts.flatten.length) ++ parts.flatten) := sends_writeMessage _ _ _

/-- The code writes `bytes`, whatever it returns. -/
def Writes (m : SyncM α) (bytes : Bytes) : Prop :=
  ∀ s : SyncSession, Healthy s → (m s).2.written.flatten = s.written.flatten ++ bytes

theorem Silent.writes {m : SyncM α} (h : Silent m) : Writes m [] := fun s _ => by rw [h s, List.append_nil]

/-- What comes behind code that succeeds may fail. -/
theorem Sends.then {m : SyncM α} {f : α → SyncM β} (hm : Sends m bytes) (hf : ∀ a, Writes (f a) more) :
    Writes (m >>= f) (bytes ++ more) := by
  intro s hs
  obtain ⟨a, s1, h1, hw1, hs1⟩ := hm s hs
  rw [bind_of_ok h1 f, hf a s1 hs1, hw1, List.append_assoc]

theorem Silent.bind {m : SyncM α} {f : α → SyncM β} (hm : Silent m) (hf : ∀ a, Silent (f a)) : Silent (m >>= f) := by
  intro s
  have hms := hm s
  cases h : m s with
  | mk r s1 =>
    rw [h] at hms
    cases r with
    | ok a => rw [bind_of_ok h f, hf a s1, hms]
    | error e => rw [bind_of_error h f, hms]

theorem silent_fillLoop (n fuel : ℕ) : Silent (fillLoop n fuel) := by
  induction fuel with
  | zero => exact fun s => rfl
  | succ fuel ih =>
    intro s
    unfold fillLoop
    dsimp only
    by_cases hfull : s.rx.capacity ≤ s.rx.tail
    all_goals simp only [hfull, if_true, if_false]
    all_goals split_ifs
    all_goals first | rfl | exact ih _

theorem silent_fillAtLeast (n : ℕ) : Silent (fillAtLeast n) := by
  intro s
  unfold fillAtLeast
  split_ifs
  · rfl
  · exact silent_fillLoop n _ s

theorem silent_skip (fuel left : ℕ) : Silent (skip fuel left) := by
  induction fuel generalizing left with
  | zero =>
    cases left with
    | zero => exact fun s => rfl
    | succ left => exact fun s => rfl
  | succ fuel ih =>
    cases left with
    | zero => exact fun s => rfl
    | succ left =>
      unfold skip
      refine Silent.bind (fun s => rfl) fun s0 => ?_
      refine (silent_fillAtLeast _).bind fun _ => ?_
      exact Silent.bind (fun s => rfl) fun _ => ih _

theorem silent_readFailBody : Silent readFailBody := by
  unfold readFailBody
  refine Silent.bind (fun s => rfl) fun msgLen => Silent.bind (fun s => rfl) fun _ => ?_
  refine Silent.bind (fun s => rfl) fun s0 => ?_
  dsimp only
  split_ifs
  · refine (silent_fillAtLeast _).bind fun _ => Silent.bind (fun s => rfl) fun msg => ?_
    exact (silent_skip _ _).bind fun _ s => rfl
  · refine Silent.bind (fun s => rfl) fun msg => ?_
    exact (silent_skip _ _).bind fun _ s => rfl

theorem silent_readNextId (allowed : List SyncId) : Silent (readNextId allowed) := by
  unfold readNextId
  refine (silent_fillAtLeast _).bind fun _ => Silent.bind (fun s => rfl) fun raw => ?_
  split
  · exact silent_readFailBody.bind fun _ s => rfl
  · split_ifs
    · exact fun s => rfl
    · exact fun s => rfl
  · exact fun s => rfl

end Writing

/-! ## Reading it back -/

/-- The bytes of a record. -/
def recordBytes (id : SyncId) (arg : UInt32) (body : Bytes) : Bytes := id.asBytes ++ toLeBytes arg ++ body

section Reading

variable (id : SyncId) (arg : UInt32) (body : Bytes)

theorem recordBytes_id : (recordBytes id arg body).take 4 = id.asBytes := by
  rw [recordBytes, List.append_assoc, ← SyncId.length_asBytes id, List.take_left]

theorem recordBytes_arg : u32At (recordBytes id arg body) 4 = arg := by
  have := u32At_append_right id.asBytes (toLeBytes arg ++ body) 0
  rwa [ofLeBytes_toLeBytes, SyncId.length_asBytes, ← List.append_assoc] at this

theorem recordBytes_body : (recordBytes id arg body).drop headerSize = body := by
  have hlen : (id.asBytes ++ toLeBytes arg).length = headerSize := by
    rw [List.length_append, SyncId.length_asBytes, length_toLeBytes]
    rfl
  rw [recordBytes, ← hlen, List.drop_left]

theorem length_recordBytes : (recordBytes id arg body).length = headerSize + body.length := by
  rw [recordBytes, List.length_append, List.length_append, SyncId.length_asBytes, length_toLeBytes]
  rfl

end Reading

/-- A record with its length is read as its argument. -/
theorem readRecord_recordBytes (id : SyncId) {arg : Bytes} (rest : Bytes) (h : arg.length < 2 ^ 32) :
    readRecord (recordBytes id (UInt32.ofNat arg.length) (arg ++ rest)) = some (arg, rest) := by
  have hlen : (UInt32.ofNat arg.length).toNat = arg.length := by
    rw [UInt32.toNat_ofNat', Nat.mod_eq_of_lt h]
  unfold readRecord
  dsimp only
  rw [recordBytes_arg, hlen, length_recordBytes, List.length_append, if_neg (by omega), ← List.drop_drop,
    recordBytes_body,
    List.take_left, List.drop_left]

/-- The records of some chunks. -/
def dataRecords (cs : List Bytes) : Bytes := cs.flatMap fun c => recordBytes .data (UInt32.ofNat c.length) c

theorem length_le_dataRecords (cs : List Bytes) : cs.length ≤ (dataRecords cs).length := by
  induction cs with
  | nil => exact Nat.zero_le _
  | cons c cs ih =>
    have hcons : dataRecords (c :: cs) = recordBytes .data (UInt32.ofNat c.length) c ++ dataRecords cs :=
      List.flatMap_cons
    rw [hcons, List.length_append, length_recordBytes, List.length_cons]
    unfold headerSize
    omega

theorem readChunks_records {cs : List Bytes} (hcs : ∀ c ∈ cs, c.length < 2 ^ 32) (mtime : UInt32) (rest : Bytes)
    {fuel : ℕ} (hfuel : cs.length < fuel) :
    readChunks fuel (dataRecords cs ++ recordBytes .done mtime rest) = some (cs, mtime, rest) := by
  induction fuel generalizing cs with
  | zero => exact absurd hfuel (Nat.not_lt_zero _)
  | succ fuel ih =>
    cases cs with
    | nil =>
      have hdone : (recordBytes .done mtime rest).take 4 = SyncId.done.asBytes := recordBytes_id _ _ _
      show readChunks (fuel + 1) (recordBytes .done mtime rest) = _
      rw [readChunks, hdone, if_neg (by decide), if_pos ⟨rfl, by rw [length_recordBytes]; omega⟩, recordBytes_arg,
        recordBytes_body]
    | cons c cs =>
      have hcons : dataRecords (c :: cs) ++ recordBytes .done mtime rest =
          recordBytes .data (UInt32.ofNat c.length) (c ++ (dataRecords cs ++ recordBytes .done mtime rest)) := by
        simp only [dataRecords, List.flatMap_cons, recordBytes, List.append_assoc]
      rw [hcons, readChunks, recordBytes_id, if_pos rfl, readRecord_recordBytes _ _ (hcs c List.mem_cons_self)]
      have hrest := ih (fun d hd => hcs d (List.mem_cons_of_mem _ hd)) (Nat.lt_of_succ_lt_succ hfuel)
      simp only [Option.bind_eq_bind, Option.bind_some, hrest]
      rfl

/-- The chunks are the data, and none is empty or too long. -/
theorem chunksLoop_spec {size fuel : ℕ} (hsize : 0 < size) (data : Bytes) (hfuel : data.length ≤ fuel) :
    (chunksLoop size fuel data).flatten = data ∧ ∀ c ∈ chunksLoop size fuel data, 1 ≤ c.length ∧ c.length ≤ size := by
  induction fuel generalizing data with
  | zero =>
    obtain rfl : data = [] := List.length_eq_zero_iff.mp (by omega)
    exact ⟨rfl, fun c hc => absurd hc List.not_mem_nil⟩
  | succ fuel ih =>
    unfold chunksLoop
    split_ifs with hdata
    · exact ⟨hdata.symm, fun c hc => absurd hc List.not_mem_nil⟩
    · have hpos := List.length_pos_iff.mpr hdata
      obtain ⟨hflat, hsizes⟩ := ih (data.drop size) (by rw [List.length_drop]; omega)
      refine ⟨by rw [List.flatten_cons, hflat, List.take_append_drop], fun c hc => ?_⟩
      rcases List.mem_cons.mp hc with rfl | hc
      · rw [List.length_take]
        omega
      · exact hsizes c hc

theorem chunks_spec (data : Bytes) :
    (chunks syncDataMax data).flatten = data ∧
      ∀ c ∈ chunks syncDataMax data, 1 ≤ c.length ∧ c.length ≤ syncDataMax :=
  chunksLoop_spec (by decide) data le_rfl

/-- What follows a request. -/
def pushTail (data : Bytes) (mtime : UInt32) : Bytes :=
  dataRecords (chunks syncDataMax data) ++ recordBytes .done mtime []

/-- The device reads the tail of a push, whatever comes behind it. -/
theorem readChunks_pushTail (data : Bytes) (mtime : UInt32) (rest : Bytes) :
    readChunks ((pushTail data mtime ++ rest).length + 1) (pushTail data mtime ++ rest) =
      some (chunks syncDataMax data, mtime, rest) := by
  have htail : pushTail data mtime ++ rest = dataRecords (chunks syncDataMax data) ++ recordBytes .done mtime rest := by
    simp only [pushTail, recordBytes, List.append_assoc, List.nil_append]
  have hlong := length_le_dataRecords (chunks syncDataMax data)
  rw [htail]
  refine readChunks_records (fun c hc => ?_) mtime rest ?_
  · exact lt_of_le_of_lt ((chunks_spec data).2 c hc).2 (by decide)
  · rw [List.length_append]
    omega

/-- What `send_data` and `send_done` write behind a request, whatever the answer. -/
theorem writes_push {α : Type} {start : SyncM α} {bytes : Bytes} (hstart : Sends start bytes) (data : Bytes)
    (mtime : UInt32) :
    Writes (start >>= fun _ => sendData data >>= fun _ => sendDone mtime) (bytes ++ pushTail data mtime) := by
  have hdata : Sends (sendData data) (dataRecords (chunks syncDataMax data)) := by
    refine sends_forM (fun c => ?_) _
    have hrequest := sends_writeRequest .data [c]
    rwa [List.flatten_singleton] at hrequest
  have hheader : Sends (writeHeader .done mtime) (recordBytes .done mtime []) := by
    have hwrite := sends_channelWrite (SyncId.done.asBytes ++ toLeBytes mtime)
    rwa [recordBytes, List.append_nil]
  have hanswer : Silent (compact >>= fun _ => readNextId [.okay] >>= fun _ => advance headerSize) :=
    Silent.bind (fun s => rfl) fun _ => (silent_readNextId _).bind fun _ s => rfl
  have hdone : Writes (sendDone mtime) (recordBytes .done mtime []) := by
    have := hheader.then fun _ => hanswer.writes
    rwa [List.append_nil] at this
  exact hstart.then fun _ => hdata.then fun _ => hdone

/-- A request the device can read, and the records behind it. -/
theorem read_push {bytes path : Bytes} {mode mtime : UInt32} {flags : Option UInt32} (data rest : Bytes)
    (h : ∀ rest, readRequest (bytes ++ rest) = some (path, mode, flags, rest)) :
    Push.read (bytes ++ pushTail data mtime ++ rest) =
      some (⟨path, mode, flags, chunks syncDataMax data, mtime⟩, rest) := by
  rw [Push.read, List.append_assoc, h]
  simp only [Option.bind_eq_bind, Option.bind_some, readChunks_pushTail]
  rfl

/-- The request of `send`. -/
theorem readRequest_send {path : Bytes} (hlen : path.length < 2 ^ 31) (mode : UInt32) (rest : Bytes) :
    readRequest (recordBytes .send (UInt32.ofNat (path ++ comma :: formatU32 mode).length) (path ++ comma :: formatU32 mode) ++
      rest) = some (path, mode, none, rest) := by
  have hdigits := formatU32_digits mode
  have hcomma : comma ∉ formatU32 mode := fun h => absurd (hdigits _ h) (by decide)
  have harg : (path ++ comma :: formatU32 mode).length < 2 ^ 32 := by
    have hten := length_formatU32_le mode
    rw [List.length_append, List.length_cons]
    omega
  have hrecord : recordBytes .send (UInt32.ofNat (path ++ comma :: formatU32 mode).length) (path ++ comma :: formatU32 mode) ++
      rest = recordBytes .send (UInt32.ofNat (path ++ comma :: formatU32 mode).length)
        ((path ++ comma :: formatU32 mode) ++ rest) := List.append_assoc _ _ _
  rw [hrecord, readRequest, recordBytes_id, if_pos rfl, readRecord_recordBytes _ _ harg]
  have hsplit : rsplitOnce comma (path ++ comma :: formatU32 mode) = some (path, formatU32 mode) :=
    rsplitOnce_eq_some.mpr ⟨hcomma, rfl⟩
  simp only [Option.bind_eq_bind, Option.bind_some, hsplit, readDecimal_formatU32]
  rfl

/-- The request of `send_v2`. -/
theorem readRequest_sendV2 {path : Bytes} (hlen : path.length < 2 ^ 31) (mode flags : UInt32) (rest : Bytes) :
    readRequest (recordBytes .snd2 (UInt32.ofNat path.length)
      (path ++ recordBytes .snd2 mode (toLeBytes flags)) ++ rest) = some (path, mode, some flags, rest) := by
  have hrecord : recordBytes .snd2 (UInt32.ofNat path.length) (path ++ recordBytes .snd2 mode (toLeBytes flags)) ++ rest =
      recordBytes .snd2 (UInt32.ofNat path.length) (path ++ recordBytes .snd2 mode (toLeBytes flags ++ rest)) := by
    simp only [recordBytes, List.append_assoc]
  have hflags : u32At (recordBytes .snd2 mode (toLeBytes flags ++ rest)) 8 = flags := by
    have := u32At_append_right (SyncId.snd2.asBytes ++ toLeBytes mode) (toLeBytes flags ++ rest) 0
    rwa [ofLeBytes_toLeBytes] at this
  have hdrop : (recordBytes .snd2 mode (toLeBytes flags ++ rest)).drop 12 = rest := by
    rw [show 12 = headerSize + 4 from rfl, ← List.drop_drop, recordBytes_body, ← length_toLeBytes flags, List.drop_left]
  have hlong : 12 ≤ (recordBytes .snd2 mode (toLeBytes flags ++ rest)).length := by
    rw [length_recordBytes, List.length_append, length_toLeBytes]
    unfold headerSize
    omega
  rw [hrecord, readRequest, recordBytes_id, if_neg (by decide), if_pos rfl, readRecord_recordBytes _ _ (by omega)]
  simp only [Option.bind_eq_bind, Option.bind_some, recordBytes_id, hlong, and_self, if_true, recordBytes_arg, hflags,
    hdrop]
  rfl

/-- **A push means on the device what the caller said.** -/
theorem push_means_what_was_said (path : Bytes) (mode mtime : UInt32) (data : Bytes) (hnul : 0 ∉ path)
    (hlen : path.length < 2 ^ 31) (s : SyncSession) (hs : Healthy s) (rest : Bytes) :
    (∃ written push, (send path mode mtime data s).2.written.flatten = s.written.flatten ++ written ∧
      Push.read (written ++ rest) = some (push, rest) ∧ push.path = path ∧ push.mode = mode ∧ push.flags = none ∧
      push.chunks.flatten = data ∧ push.mtime = mtime ∧ ∀ c ∈ push.chunks, 1 ≤ c.length ∧ c.length ≤ 65536) ∧
    ∀ (advertises : Feature → Bool) (flags : UInt32), requireSendrecvV2 advertises flags = .ok () →
      ∃ written push,
        (sendV2 advertises path mode mtime flags data s).2.written.flatten = s.written.flatten ++ written ∧
        Push.read (written ++ rest) = some (push, rest) ∧ push.path = path ∧ push.mode = mode ∧
        push.flags = some flags ∧ push.chunks.flatten = data ∧ push.mtime = mtime ∧
        ∀ c ∈ push.chunks, 1 ≤ c.length ∧ c.length ≤ 65536 := by
  obtain ⟨hflat, hsizes⟩ := chunks_spec data
  have hpath : Sends (checkPath path) [] := by
    rw [checkPath, if_neg hnul]
    exact sends_nothing fun s => ⟨(), s.rx, rfl⟩
  refine ⟨?_, fun advertises flags hflags => ?_⟩
  · have hstart : Sends (sendStart path mode) (recordBytes .send (UInt32.ofNat (path ++ comma :: formatU32 mode).length)
        (path ++ comma :: formatU32 mode)) := by
      have hrequest := sends_writeRequest .send [path, [comma], formatU32 mode]
      rw [List.flatten_cons, List.flatten_cons, List.flatten_singleton, List.singleton_append] at hrequest
      exact hpath.bind fun _ => hrequest
    exact ⟨_, _, writes_push hstart data mtime s hs, read_push data rest (readRequest_send hlen mode), rfl, rfl, rfl, hflat,
      rfl, hsizes⟩
  · have hstart : Sends (sendV2Start advertises path mode flags)
        (recordBytes .snd2 (UInt32.ofNat path.length) (path ++ recordBytes .snd2 mode (toLeBytes flags))) := by
      have hcheck : Sends (check (requireSendrecvV2 advertises flags)) [] :=
        sends_nothing fun s => ⟨(), s.rx, by rw [check, hflags]⟩
      have hmessage := sends_writeMessage .snd2 (UInt32.ofNat path.length)
        [path, SyncId.snd2.asBytes, toLeBytes mode, toLeBytes flags]
      simp only [List.flatten_cons, List.flatten_nil, List.append_nil] at hmessage
      rw [recordBytes, recordBytes, List.append_assoc SyncId.snd2.asBytes (toLeBytes mode)]
      exact hpath.bind fun _ => hcheck.bind fun _ => hmessage
    exact ⟨_, _, writes_push hstart data mtime s hs, read_push data rest (readRequest_sendV2 hlen mode flags), rfl, rfl,
      rfl, hflat, rfl, hsizes⟩

/-- A path with a comma and a number in it, over a small buffer and a channel that does not answer. -/
theorem push_means_what_was_said_comma :
    ∃ written push,
      (send (ascii "a,7") 33188 5 [1, 2, 3] ⟨⟨List.replicate 16 0, 0, 0⟩, [], [], [], []⟩).2.written.flatten = written ∧
      Push.read written = some (push, []) ∧ push.path = ascii "a,7" ∧ push.mode = 33188 ∧
      push.chunks.flatten = [1, 2, 3] ∧ push.mtime = 5 := by
  obtain ⟨⟨written, push, hwritten, hread, hpath, hmode, -, hdata, hmtime, -⟩, -⟩ :=
    push_means_what_was_said (ascii "a,7") 33188 5 [1, 2, 3] (by decide) (by decide)
      ⟨⟨List.replicate 16 0, 0, 0⟩, [], [], [], []⟩ (fun f hf => absurd hf List.not_mem_nil) []
  rw [List.append_nil] at hread
  exact ⟨written, push, hwritten, hread, hpath, hmode, hdata, hmtime⟩

end Sync

end LibAdb
