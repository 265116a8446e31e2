import LibAdb.Base.Codec
import LibAdb.Lib.Slices

/-!
# LibAdb.Logcat.Format — one entry of the binary log format

`parse_entry` of `logcat/format.rs`, with the types it fills in.  It looks at the front of what has arrived and either
rejects the header, asks for more, or gives an entry and its length.

* `parseEntry_append`: once it has an answer, bytes behind it change nothing;
* `parseEntry_none_lt`: what it asks more of is shorter than the longest entry.
-/

namespace LibAdb.Logcat

open Slices

inductive Priority where
  | unknown
  | default
  | verbose
  | debug
  | info
  | warn
  | error
  | fatal
  | silent
  | other (byte : Byte)
  deriving DecidableEq, Repr

/-- `From<u8> for Priority` -/
def Priority.ofByte (byte : Byte) : Priority :=
  match byte.toNat with
  | 0 => .unknown
  | 1 => .default
  | 2 => .verbose
  | 3 => .debug
  | 4 => .info
  | 5 => .warn
  | 6 => .error
  | 7 => .fatal
  | 8 => .silent
  | _ => .other byte

inductive LogId where
  | main
  | radio
  | events
  | system
  | crash
  | stats
  | security
  | kernel
  | unknown (number : UInt32)
  deriving DecidableEq, Repr

/-- `From<u32> for LogId` -/
def LogId.ofNumber (number : UInt32) : LogId :=
  match number.toNat with
  | 0 => .main
  | 1 => .radio
  | 2 => .events
  | 3 => .system
  | 4 => .crash
  | 5 => .stats
  | 6 => .security
  | 7 => .kernel
  | _ => .unknown number

/-- `is_text` -/
def LogId.isText : LogId → Bool
  | .main | .radio | .system | .crash | .kernel => true
  | .events | .stats | .security | .unknown _ => false

structure LogEntry where
  pid : UInt32
  tid : UInt32
  sec : UInt32
  nsec : UInt32
  uid : UInt32
  logId : LogId
  priority : Priority
  tag : Bytes
  message : Bytes
  deriving DecidableEq, Repr

def headerV3Size : ℕ := 24

def headerV4Size : ℕ := 28

def loggerEntryMaxLen : ℕ := 5 * 1024

/-- The little-endian half word at offset `i`. -/
def u16At (buf : Bytes) (i : ℕ) : ℕ := (buf.getD i 0).toNat + 256 * (buf.getD (i + 1) 0).toNat

theorem u16At_append {buf : Bytes} {i : ℕ} (rest : Bytes) (h : i + 2 ≤ buf.length) :
    u16At (buf ++ rest) i = u16At buf i := by
  unfold u16At
  rw [List.getD_append _ _ _ _ (by omega), List.getD_append _ _ _ _ (by omega)]

/-- Priority, tag and message of a payload. -/
def splitPayload (logId : LogId) (payload : Bytes) : Priority × Bytes × Bytes :=
  match payload with
  | [] => (.unknown, [], [])
  | first :: rest =>
    if logId.isText = false then (.unknown, [], payload)
    else
      let tagEnd := rest.findIdx (· == 0)
      let message := rest.drop (min (tagEnd + 1) rest.length)
      (.ofByte first, rest.take tagEnd, if message.getLast? = some 0 then message.dropLast else message)

/-- The entry whose header is `hdrSize` bytes and which ends at `total`. -/
def readEntryAt (buf : Bytes) (hdrSize total : ℕ) : LogEntry :=
  let logId := LogId.ofNumber (u32At buf 20)
  let parts := splitPayload logId (slice buf hdrSize total)
  { pid := u32At buf 4
    tid := u32At buf 8
    sec := u32At buf 12
    nsec := u32At buf 16
    uid := if headerV4Size ≤ hdrSize then u32At buf 24 else 0
    logId := logId
    priority := parts.1
    tag := parts.2.1
    message := parts.2.2 }

/-- `parse_entry` -/
def parseEntry (buf : Bytes) : Except LogcatError (Option (LogEntry × ℕ)) :=
  if buf.length < 4 then .ok none
  else
    let payloadLen := u16At buf 0
    let hdrSize := u16At buf 2
    let total := hdrSize + payloadLen
    if hdrSize < headerV3Size ∨ loggerEntryMaxLen < total then .error .invalidHeader
    else if buf.length < total then .ok none
    else .ok (some (readEntryAt buf hdrSize total, total))

variable {buf : Bytes}

theorem readEntryAt_append (rest : Bytes) {hdrSize total : ℕ} (hhdr : headerV3Size ≤ hdrSize) (hle : hdrSize ≤ total)
    (hlen : total ≤ buf.length) : readEntryAt (buf ++ rest) hdrSize total = readEntryAt buf hdrSize total := by
  unfold headerV3Size at hhdr
  have hslice : slice (buf ++ rest) hdrSize total = slice buf hdrSize total := by
    rw [slice, slice, List.take_append_of_le_length hlen]
  have huid : (if headerV4Size ≤ hdrSize then u32At (buf ++ rest) 24 else 0) =
      if headerV4Size ≤ hdrSize then u32At buf 24 else 0 := by
    split_ifs with hv4
    · unfold headerV4Size at hv4
      exact u32At_append rest (by omega)
    · rfl
  unfold readEntryAt
  rw [hslice, huid, u32At_append rest (by omega), u32At_append rest (by omega), u32At_append rest (by omega),
    u32At_append rest (by omega), u32At_append rest (by omega)]

/-- The four ways through `parse_entry`. -/
inductive Parsed (buf : Bytes) : Except LogcatError (Option (LogEntry × ℕ)) → Prop
  | short (h : buf.length < 4) : Parsed buf (.ok none)
  | rejected (h : 4 ≤ buf.length)
      (hbad : u16At buf 2 < headerV3Size ∨ loggerEntryMaxLen < u16At buf 2 + u16At buf 0) :
      Parsed buf (.error .invalidHeader)
  | partly (h : 4 ≤ buf.length) (hmax : u16At buf 2 + u16At buf 0 ≤ loggerEntryMaxLen)
      (hlen : buf.length < u16At buf 2 + u16At buf 0) : Parsed buf (.ok none)
  | whole (h : 4 ≤ buf.length) (hhdr : headerV3Size ≤ u16At buf 2)
      (hmax : u16At buf 2 + u16At buf 0 ≤ loggerEntryMaxLen) (hlen : u16At buf 2 + u16At buf 0 ≤ buf.length) :
      Parsed buf (.ok (some (readEntryAt buf (u16At buf 2) (u16At buf 2 + u16At buf 0), u16At buf 2 + u16At buf 0)))

theorem parseEntry_parsed (buf : Bytes) : Parsed buf (parseEntry buf) := by
  unfold parseEntry
  simp only
  split_ifs with h4 hbad htot
  · exact .short h4
  · exact .rejected (by omega) hbad
  · exact .partly (by omega) (by omega) htot
  · exact .whole (by omega) (by omega) (by omega) (by omega)

/-- **An answer stays.**  Bytes behind what `parse_entry` answered on change nothing. -/
theorem parseEntry_append (rest : Bytes) (h : parseEntry buf ≠ .ok none) :
    parseEntry (buf ++ rest) = parseEntry buf := by
  have hlen : (buf ++ rest).length = buf.length + rest.length := List.length_append
  have hp := parseEntry_parsed buf
  generalize hr : parseEntry buf = r at hp h
  unfold parseEntry
  cases hp with
  | short | partly => exact absurd rfl h
  | rejected h4 hbad =>
    rw [if_neg (by omega), u16At_append rest (by omega), u16At_append rest (by omega), if_pos hbad]
  | whole h4 hhdr hmax htot =>
    rw [if_neg (by omega), u16At_append rest (by omega), u16At_append rest (by omega), if_neg (by omega),
      if_neg (by omega), readEntryAt_append rest hhdr (Nat.le_add_right _ _) htot]

/-- An entry's length is within what it was parsed from. -/
theorem parseEntry_some_le {e : LogEntry} {n : ℕ} (h : parseEntry buf = .ok (some (e, n))) : n ≤ buf.length := by
  have hp := parseEntry_parsed buf
  rw [h] at hp
  cases hp with
  | whole h4 hhdr hmax htot => exact htot

/-- What `parse_entry` asks more of is shorter than the longest entry. -/
theorem parseEntry_none_lt (h : parseEntry buf = .ok none) : buf.length < loggerEntryMaxLen := by
  have hp := parseEntry_parsed buf
  rw [h] at hp
  cases hp with
  | short h4 => exact h4.trans (by decide)
  | partly h4 hmax hlen => exact hlen.trans_le hmax

end LibAdb.Logcat
