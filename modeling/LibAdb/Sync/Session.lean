import LibAdb.Base.Banner
import LibAdb.Sync.RecvBuf

/-!
# LibAdb.Sync.Session — the operations of a sync session

`sync.rs` and `sync/format.rs`: the ids and records of the protocol, the requests, and `stat`, `stat_v2`, `list`,
`list_v2`, `recv` and `recv_v2` of `SyncSession`.  Each operation first makes its checks, of the path, of the device's
features and of the flags; `Op.requires` is the part of them that depends on the device.  `writeMessage_whole` says what
putting a message together in the window comes to.
-/

namespace LibAdb.Sync

open SyncM Slices

/-! ## Ids -/

inductive SyncId where
  | stat | sta2 | list | lis2 | send | snd2 | recv | rcv2 | data | done | okay | fail | dent | dnt2 | quit
  deriving DecidableEq, Repr

namespace SyncId

def all : List SyncId :=
  [.stat, .sta2, .list, .lis2, .send, .snd2, .recv, .rcv2, .data, .done, .okay, .fail, .dent, .dnt2, .quit]

def letters (a b c d : Char) : Bytes := [a, b, c, d].map fun x => UInt8.ofNat x.toNat

def asBytes : SyncId → Bytes
  | .stat => letters 'S' 'T' 'A' 'T'
  | .sta2 => letters 'S' 'T' 'A' '2'
  | .list => letters 'L' 'I' 'S' 'T'
  | .lis2 => letters 'L' 'I' 'S' '2'
  | .send => letters 'S' 'E' 'N' 'D'
  | .snd2 => letters 'S' 'N' 'D' '2'
  | .recv => letters 'R' 'E' 'C' 'V'
  | .rcv2 => letters 'R' 'C' 'V' '2'
  | .data => letters 'D' 'A' 'T' 'A'
  | .done => letters 'D' 'O' 'N' 'E'
  | .okay => letters 'O' 'K' 'A' 'Y'
  | .fail => letters 'F' 'A' 'I' 'L'
  | .dent => letters 'D' 'E' 'N' 'T'
  | .dnt2 => letters 'D' 'N' 'T' '2'
  | .quit => letters 'Q' 'U' 'I' 'T'

def fromBytes (bytes : Bytes) : Option SyncId := all.find? fun id => id.asBytes = bytes

@[simp] theorem length_asBytes (id : SyncId) : id.asBytes.length = 4 := by
  cases id <;> rfl

/-- An id comes back as itself. -/
theorem fromBytes_asBytes (id : SyncId) : fromBytes id.asBytes = some id := by
  cases id <;> decide

end SyncId

/-! ## Records -/

def headerSize : ℕ := 8
def statV1Size : ℕ := 16
def statV2Size : ℕ := 72
def dentV1Size : ℕ := 20
def dentV2Size : ℕ := 76

def u64At (buf : Bytes) (i : ℕ) : UInt64 :=
  UInt64.ofNat ((u32At buf i).toNat + 2 ^ 32 * (u32At buf (i + 4)).toNat)

def i64At (buf : Bytes) (i : ℕ) : Int64 := (u64At buf i).toInt64

structure StatV1 where
  mode : UInt32
  size : UInt32
  mtime : UInt32
  deriving DecidableEq, Repr

structure StatV2 where
  error : UInt32
  dev : UInt64
  ino : UInt64
  mode : UInt32
  nlink : UInt32
  uid : UInt32
  gid : UInt32
  size : UInt64
  atime : Int64
  mtime : Int64
  ctime : Int64
  deriving DecidableEq, Repr

structure DirEntry where
  name : Bytes
  mode : UInt32
  size : UInt32
  mtime : UInt32
  deriving DecidableEq, Repr

structure DirEntryV2 where
  name : Bytes
  stat : StatV2
  deriving DecidableEq, Repr

/-- `parse_stat_v2_body` -/
def parseStatV2Body (b : Bytes) : StatV2 where
  error := u32At b 0
  dev := u64At b 4
  ino := u64At b 12
  mode := u32At b 20
  nlink := u32At b 24
  uid := u32At b 28
  gid := u32At b 32
  size := u64At b 36
  atime := i64At b 44
  mtime := i64At b 52
  ctime := i64At b 60

/-! ## Requests -/

def checkPath (path : Bytes) : SyncM Unit := if 0 ∈ path then fail (.sync .invalidPath) else pure ()

/-- `SyncFlags` -/
def brotli : UInt32 := 1
def lz4 : UInt32 := 2
def zstd : UInt32 := 4
def dryRun : UInt32 := 0x80000000

/-- `SyncFlags::contains` -/
def containsFlags (bits flags : UInt32) : Bool := bits &&& flags = flags

/-- `FLAG_FEATURES` -/
def flagFeatures : List (UInt32 × Feature) :=
  [(brotli, .sendrecvV2Brotli), (lz4, .sendrecvV2Lz4), (zstd, .sendrecvV2Zstd), (dryRun, .sendrecvV2DryRunSend)]

/-- `COMPRESSION` -/
def compression : List UInt32 := [brotli, lz4, zstd]

/-- `require_sendrecv_v2` -/
def requireSendrecvV2 (advertises : Feature → Bool) (flags : UInt32) : Except Error Unit :=
  if 1 < (compression.filter (containsFlags flags)).length then .error (.sync (.invalidFlags flags))
  else do
    requireFeature advertises .sendrecvV2
    flagFeatures.forM fun (flag, feature) =>
      if containsFlags flags flag then requireFeature advertises feature else .ok ()

/-- The checks of `recv_v2_start` behind the one of the path. -/
def requireRecvV2 (advertises : Feature → Bool) (flags : UInt32) : Except Error Unit :=
  if containsFlags flags dryRun then .error (.sync (.invalidFlags flags)) else requireSendrecvV2 advertises flags

/-- `write_header` -/
def writeHeader (id : SyncId) (arg : UInt32) : SyncM Unit := channelWrite (id.asBytes ++ toLeBytes arg)

/-- The parts one behind the other in the window, from `off` on. -/
def assemble : ℕ → List Bytes → SyncM Unit
  | _, [] => pure ()
  | off, part :: parts => do
    scribble off part
    assemble (off + part.length) parts

/-- `write_message`: in one piece out of the window, if it fits there. -/
def writeMessage (id : SyncId) (arg : UInt32) (parts : List Bytes) : SyncM Unit := do
  let total := headerSize + (parts.map List.length).sum
  compact
  let s ← state
  if total ≤ s.rx.capacity - s.rx.tail then
    scribble 0 id.asBytes
    scribble 4 (toLeBytes arg)
    assemble headerSize parts
    let s ← state
    channelWrite (slice s.rx.buf s.rx.tail (s.rx.tail + total))
  else
    writeHeader id arg
    (parts.filter (· ≠ [])).forM channelWrite

/-- `write_request` -/
def writeRequest (id : SyncId) (parts : List Bytes) : SyncM Unit :=
  writeMessage id (UInt32.ofNat parts.flatten.length) parts

section Window

variable {s : SyncSession}

theorem scribble_scribble (h : s.rx.tail ≤ s.rx.buf.length) (front part : Bytes) :
    scribble front.length part (scribble 0 front s).2 = scribble 0 (front ++ part) s := by
  have hbuf := splice_splice (d := front) (e := part) h
  exact congrArg (fun buf => (Except.ok (), ({ s with rx := { s.rx with buf := buf } } : SyncSession))) hbuf

theorem assemble_scribble (h : s.rx.tail ≤ s.rx.buf.length) (front : Bytes) (parts : List Bytes) :
    assemble front.length parts (scribble 0 front s).2 = scribble 0 (front ++ parts.flatten) s := by
  induction parts generalizing front with
  | nil =>
    rw [List.flatten_nil, List.append_nil]
    rfl
  | cons part parts ih =>
    have hnext := ih (front ++ part)
    rw [← scribble_scribble h, List.length_append, List.append_assoc] at hnext
    exact hnext

theorem state_congr {α : Type} {f g : SyncSession → SyncM α} (h : ∀ s, f s s = g s s) :
    (state >>= f) = (state >>= g) := funext h

/-- **What stands in the window is the message**, whichever way it got there. -/
theorem writeMessage_whole (id : SyncId) (arg : UInt32) (parts : List Bytes) :
    let message := id.asBytes ++ toLeBytes arg ++ parts.flatten
    writeMessage id arg parts = (do
      compact
      let s ← state
      if message.length ≤ s.rx.capacity - s.rx.tail then
        scribble 0 message
        channelWrite message
      else
        writeHeader id arg
        (parts.filter (· ≠ [])).forM channelWrite) := by
  intro message
  have hlen : message.length = headerSize + (parts.map List.length).sum := by
    simp only [message, headerSize, List.length_append, SyncId.length_asBytes, length_toLeBytes, List.length_flatten]
  refine congrArg (fun m => compact >>= fun _ => m) (state_congr fun s => ?_)
  rw [hlen]
  split_ifs with hfit
  · have htail : s.rx.tail ≤ s.rx.buf.length := by
      unfold headerSize RecvBuf.capacity at hfit
      omega
    have hheader := scribble_scribble htail id.asBytes (toLeBytes arg)
    have hall := assemble_scribble htail (id.asBytes ++ toLeBytes arg) parts
    rw [SyncId.length_asBytes] at hheader
    rw [List.length_append, SyncId.length_asBytes, length_toLeBytes, ← hheader] at hall
    refine (@bind_of_ok _ _ _ _ (scribble 0 message s).2 _ hall _).trans ?_
    refine congrArg (fun bytes => channelWrite bytes (scribble 0 message s).2) ?_
    rw [← hlen]
    exact slice_splice_self htail
  · rfl

end Window

/-! ## Replies -/

def peekU32 (offset : ℕ) : SyncM UInt32 := do
  let bytes ← peek (offset + 4)
  pure (u32At bytes offset)

/-- The loop of `read_fail_body`, over what does not fit the buffer; every round takes at least a byte. -/
def skip : ℕ → ℕ → SyncM Unit
  | _, 0 => pure ()
  | 0, _ => fail .channelClosed
  | fuel + 1, left => do
    let s ← state
    fillAtLeast (min left s.rx.capacity)
    advance (min left s.rx.capacity)
    skip fuel (left - min left s.rx.capacity)

/-- `read_fail_body` -/
def readFailBody : SyncM Bytes := do
  let msgLen ← peekU32 4
  advance headerSize
  let s ← state
  let kept := min msgLen.toNat s.rx.capacity
  if 0 < kept then fillAtLeast kept
  let msg ← take kept
  skip (msgLen.toNat - kept) (msgLen.toNat - kept)
  pure msg

/-- `read_next_id` -/
def readNextId (allowed : List SyncId) : SyncM SyncId := do
  fillAtLeast headerSize
  let raw ← peek 4
  match SyncId.fromBytes raw with
  | some .fail =>
    let msg ← readFailBody
    fail (.sync (.failed msg))
  | some id => if id ∈ allowed then pure id else fail (.sync (.unexpectedId raw))
  | none => fail (.sync (.unexpectedId raw))

/-! ## Operations -/

/-- `stat` -/
def stat (path : Bytes) : SyncM StatV1 := do
  checkPath path
  compact
  writeRequest .stat [path]
  let _ ← readNextId [.stat]
  fillAtLeast statV1Size
  let mode ← peekU32 4
  let size ← peekU32 8
  let mtime ← peekU32 12
  advance statV1Size
  pure ⟨mode, size, mtime⟩

/-- `stat_v2` -/
def statV2 (advertises : Feature → Bool) (path : Bytes) : SyncM StatV2 := do
  checkPath path
  check (requireFeature advertises .statV2)
  compact
  writeRequest .sta2 [path]
  let _ ← readNextId [.sta2]
  fillAtLeast statV2Size
  let record ← peek statV2Size
  let stat := parseStatV2Body (record.drop 4)
  advance statV2Size
  if stat.error ≠ 0 then fail (.sync (.remoteErrno stat.error)) else pure stat

/-- The loop of `list` and `list_v2`: records of `size` bytes under `id`, each with the length of the name behind it.
There are no more records than there are bytes. -/
def listLoop {ε : Type} (size : ℕ) (id : SyncId) (namelen : Bytes → ℕ) (entry : Bytes → Bytes → ε) :
    ℕ → List ε → SyncM (List ε)
  | 0, _ => fail .channelClosed
  | fuel + 1, entries => do
    let next ← readNextId [id, .done]
    fillAtLeast size
    if next = .done then
      advance size
      pure entries
    else
      let record ← peek size
      advance size
      fillAtLeast (namelen record)
      let name ← take (namelen record)
      listLoop size id namelen entry fuel (entries ++ [entry record name])

/-- As many rounds as there can be records. -/
def rounds : SyncM ℕ := do
  let s ← state
  pure (s.pending.length + 1)

def dentNamelen (record : Bytes) : ℕ := (u32At record 16).toNat

def dentEntry (record name : Bytes) : DirEntry := ⟨name, u32At record 4, u32At record 8, u32At record 12⟩

def dnt2Namelen (record : Bytes) : ℕ := (u32At record 72).toNat

def dnt2Entry (record name : Bytes) : DirEntryV2 := ⟨name, parseStatV2Body ((record.take statV2Size).drop 4)⟩

/-- `list` -/
def list (path : Bytes) : SyncM (List DirEntry) := do
  checkPath path
  compact
  writeRequest .list [path]
  listLoop dentV1Size .dent dentNamelen dentEntry (← rounds) []

/-- `list_v2` -/
def listV2 (advertises : Feature → Bool) (path : Bytes) : SyncM (List DirEntryV2) := do
  checkPath path
  check (requireFeature advertises .lsV2)
  compact
  writeRequest .lis2 [path]
  listLoop dentV2Size .dnt2 dnt2Namelen dnt2Entry (← rounds) []

variable [Usize]

/-- `recv_next` -/
def recvNext : SyncM (Option Bytes) := do
  compact
  let next ← readNextId [.data, .done]
  if next = .done then
    advance headerSize
    pure none
  else
    let dataLen ← peekU32 4
    if usizeMax < headerSize + dataLen.toNat then fail .receiveBufferFull
    else
      fillAtLeast (headerSize + dataLen.toNat)
      advance headerSize
      let chunk ← take dataLen.toNat
      pure (some chunk)

/-- The loop of `recv` and `recv_v2`. -/
def recvLoop : ℕ → Bytes → SyncM Bytes
  | 0, _ => fail .channelClosed
  | fuel + 1, data => do
    match ← recvNext with
    | some chunk => recvLoop fuel (data ++ chunk)
    | none => pure data

/-- `recv` -/
def recv (path : Bytes) : SyncM Bytes := do
  checkPath path
  compact
  writeRequest .recv [path]
  recvLoop (← rounds) []

/-- `recv_v2` -/
def recvV2 (advertises : Feature → Bool) (path : Bytes) (flags : UInt32) : SyncM Bytes := do
  checkPath path
  check (requireRecvV2 advertises flags)
  writeMessage .rcv2 (UInt32.ofNat path.length) [path, SyncId.rcv2.asBytes, toLeBytes flags]
  recvLoop (← rounds) []

/-- An operation. -/
inductive Op where
  | stat (path : Bytes)
  | statV2 (path : Bytes)
  | list (path : Bytes)
  | listV2 (path : Bytes)
  | recv (path : Bytes)
  | recvV2 (path : Bytes) (flags : UInt32)
  deriving DecidableEq, Repr

def Op.path : Op → Bytes
  | .stat path | .statV2 path | .list path | .listV2 path | .recv path | .recvV2 path _ => path

/-- What an operation asks of the device before anything is sent. -/
def Op.requires (advertises : Feature → Bool) : Op → Except Error Unit
  | .statV2 _ => requireFeature advertises .statV2
  | .listV2 _ => requireFeature advertises .lsV2
  | .recvV2 _ flags => requireRecvV2 advertises flags
  | .stat _ | .list _ | .recv _ => .ok ()

/-- What an operation returns. -/
inductive Value where
  | stat (stat : StatV1)
  | statV2 (stat : StatV2)
  | list (entries : List DirEntry)
  | listV2 (entries : List DirEntryV2)
  | data (data : Bytes)
  deriving DecidableEq, Repr

def Op.run (advertises : Feature → Bool) : Op → SyncM Value
  | .stat path => .stat <$> Sync.stat path
  | .statV2 path => .statV2 <$> Sync.statV2 advertises path
  | .list path => .list <$> Sync.list path
  | .listV2 path => .listV2 <$> Sync.listV2 advertises path
  | .recv path => .data <$> Sync.recv path
  | .recvV2 path flags => .data <$> Sync.recvV2 advertises path flags

/-- A sequence of operations: what each returned, and the session after them. -/
def runOps (advertises : Feature → Bool) : List Op → SyncSession → List (Except Error Value) × SyncSession
  | [], s => ([], s)
  | op :: ops, s =>
    let (r, s) := op.run advertises s
    let (rs, s) := runOps advertises ops s
    (r :: rs, s)

end LibAdb.Sync
