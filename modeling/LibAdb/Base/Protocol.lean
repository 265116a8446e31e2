import Mathlib.Data.List.Basic
import Mathlib.Tactic

/-!
# LibAdb.Base.Protocol — words, ids, packets and errors

The data every other module speaks about: `base/protocol/*`, `base/ids.rs`, `base/channel.rs` (`ChannelId`) and
the part of `error.rs` that the connection code returns.

* `usize` is a natural number; where its width is visible in the code (a saturating sum, a cast, `usize::MAX`)
  the definition takes it from `Usize`, so the results hold on both supported widths.
* `u32` is `UInt32`; the sums the code makes with `wrapping_add` wrap here too.
* The transport's error type is only ever asked for its `kind`, so an I/O error is that kind.
-/

namespace LibAdb

/-! ## Machine words -/

/-- The width of `usize`: a 32-bit bare-metal target or a 64-bit host. -/
class Usize where
  bits : ℕ
  supported : bits = 32 ∨ bits = 64

/-- The 64-bit host. -/
abbrev usize64 : Usize := ⟨64, Or.inr rfl⟩

/-- The 32-bit target. -/
abbrev usize32 : Usize := ⟨32, Or.inl rfl⟩

/-- `usize::MAX` -/
def usizeMax [Usize] : ℕ := 2 ^ Usize.bits - 1

/-- `usize::saturating_add` -/
def satAdd [Usize] (a b : ℕ) : ℕ := min (a + b) usizeMax

theorem u32Max_le_usizeMax [h : Usize] : 2 ^ 32 - 1 ≤ usizeMax := by
  unfold usizeMax
  rcases h.supported with hb | hb
  · rw [hb]
  · rw [hb]; norm_num

theorem satAdd_le [Usize] (a b : ℕ) : satAdd a b ≤ a + b := Nat.min_le_left _ _

/-- `i64` arithmetic of a release build: two's complement wrap-around. -/
def wrapI64 (x : ℤ) : ℤ := Int.bmod x (2 ^ 64)

theorem wrapI64_of_range {x : ℤ} (hlo : -2 ^ 63 ≤ x) (hhi : x < 2 ^ 63) : wrapI64 x = x := by
  unfold wrapI64
  apply Int.bmod_eq_of_le <;> omega

/-- Wrapping round only ever loses credit. -/
theorem wrapI64_le {x : ℤ} (h : -2 ^ 63 ≤ x) : wrapI64 x ≤ x ∧ -2 ^ 63 ≤ wrapI64 x := by
  simp only [wrapI64, Int.bmod]
  split_ifs <;> omega

abbrev Byte := UInt8

abbrev Bytes := List UInt8

/-- `u32::from_le_bytes` -/
def ofLeBytes (b0 b1 b2 b3 : Byte) : UInt32 :=
  UInt32.ofNat (b0.toNat + 2 ^ 8 * b1.toNat + 2 ^ 16 * b2.toNat + 2 ^ 24 * b3.toNat)

/-- `u32::to_le_bytes` -/
def toLeBytes (n : UInt32) : Bytes :=
  [UInt8.ofNat n.toNat, UInt8.ofNat (n.toNat / 2 ^ 8), UInt8.ofNat (n.toNat / 2 ^ 16),
    UInt8.ofNat (n.toNat / 2 ^ 24)]

@[simp] theorem length_toLeBytes (n : UInt32) : (toLeBytes n).length = 4 := rfl

/-! ## Ids -/

/-- This host's end of a channel. -/
structure LocalId where
  raw : UInt32
  deriving DecidableEq, Repr

/-- The device's end of a channel. -/
structure RemoteId where
  raw : UInt32
  deriving DecidableEq, Repr

structure ChannelIds where
  localId : LocalId
  remote : RemoteId
  deriving DecidableEq, Repr

/-- The handle an application holds: a slot index and the id the slot had when it was filled. -/
structure ChannelId where
  slot : ℕ
  localId : LocalId
  deriving DecidableEq, Repr

/-! ## Commands -/

inductive Command where
  | sync
  | connect
  | «open»
  | ready
  | close
  | write
  | auth
  | startTls
  deriving DecidableEq, Repr

/-- A command is the four letters of its name, read little-endian. -/
def fourLetters (a b c d : Char) : UInt32 :=
  ofLeBytes (UInt8.ofNat a.toNat) (UInt8.ofNat b.toNat) (UInt8.ofNat c.toNat) (UInt8.ofNat d.toNat)

/-- `From<Command> for u32` -/
def Command.toU32 : Command → UInt32
  | .sync => fourLetters 'S' 'Y' 'N' 'C'
  | .connect => fourLetters 'C' 'N' 'X' 'N'
  | .«open» => fourLetters 'O' 'P' 'E' 'N'
  | .ready => fourLetters 'O' 'K' 'A' 'Y'
  | .close => fourLetters 'C' 'L' 'S' 'E'
  | .write => fourLetters 'W' 'R' 'T' 'E'
  | .auth => fourLetters 'A' 'U' 'T' 'H'
  | .startTls => fourLetters 'S' 'T' 'L' 'S'

/-- `TryFrom<u32> for Command` -/
def Command.tryFrom (v : UInt32) : Option Command :=
  if v = Command.toU32 .sync then some .sync
  else if v = Command.toU32 .connect then some .connect
  else if v = Command.toU32 .«open» then some .«open»
  else if v = Command.toU32 .ready then some .ready
  else if v = Command.toU32 .close then some .close
  else if v = Command.toU32 .write then some .write
  else if v = Command.toU32 .auth then some .auth
  else if v = Command.toU32 .startTls then some .startTls
  else none

def Command.magic (c : Command) : UInt32 := c.toU32 ^^^ 0xFFFFFFFF

/-! ## Packets -/

/-- `MAX_PAYLOAD`: 1 MiB. -/
def maxPayloadConst : ℕ := 1024 * 1024

/-- `MESSAGE_SIZE`: the six little-endian words of a header. -/
def messageSize : ℕ := 24

/-- `ADB_VERSION` -/
def adbVersion : UInt32 := 0x01000001

/-- `ADB_VERSION_SKIP_CHECKSUM` -/
def adbVersionSkipChecksum : UInt32 := 0x01000001

structure Packet where
  command : Command
  arg0 : UInt32
  arg1 : UInt32
  data : Bytes
  deriving DecidableEq, Repr

/-- `Packet::close` -/
def Packet.close (ids : ChannelIds) : Packet := ⟨.close, ids.localId.raw, ids.remote.raw, []⟩

/-- `Packet::refuse`: CLSE with no local id, the answer to an OPEN that is not taken. -/
def Packet.refuse (remote : RemoteId) : Packet := ⟨.close, 0, remote.raw, []⟩

/-- `ChannelIds::closed_by` -/
def ChannelIds.closedBy (ids : ChannelIds) (pkt : Packet) : Bool :=
  pkt.command == .close &&
    (pkt.arg1 == ids.localId.raw || (pkt.arg1 == 0 && pkt.arg0 == ids.remote.raw))

/-- `payload_checksum`: the wrapping sum of the bytes. -/
def payloadChecksum (payload : Bytes) : UInt32 := payload.foldl (fun sum b => sum + b.toUInt32) 0

/-- Whether an outgoing packet carries a payload checksum. -/
inductive Checksum where
  | compute
  | skip
  deriving DecidableEq, Repr

def Checksum.forVersion (version : UInt32) : Checksum :=
  if version ≥ adbVersionSkipChecksum then .skip else .compute

def Checksum.of : Checksum → Bytes → UInt32
  | .skip, _ => 0
  | .compute, payload => payloadChecksum payload

/-! ## Features -/

/-- `Feature` -/
inductive Feature where
  | abb
  | abbExec
  | apex
  | appInfo
  | cmd
  | delayedAck
  | devicetrackerProtoFormat
  | devraw
  | fixedPushMkdir
  | fixedPushSymlinkTimestamp
  | lsV2
  | openscreenMdns
  | remountShell
  | sendrecvV2
  | sendrecvV2Brotli
  | sendrecvV2DryRunSend
  | sendrecvV2Lz4
  | sendrecvV2Zstd
  | shellV2
  | statV2
  | trackApp
  deriving DecidableEq, Repr

/-! ## Errors -/

inductive ProtocolError where
  | invalidCommand (code : UInt32)
  | invalidMagic
  | invalidChecksum
  | payloadTooLarge
  | shortReadyPayload
  | unexpectedCommand (command : Command)
  | invalidAuthToken (len : ℕ)
  | tlsRequired
  | dataAfterStls
  | invalidBannerUtf8
  | invalidBannerPrefix
  | invalidBannerKeyValue
  | tooManyBannerProperties
  | shortExitPayload
  | unexpectedShellFrame (id : Byte)
  | invalidDestination
  deriving DecidableEq, Repr

inductive AuthError where
  | signFailed (text : String)
  | rejected
  | keyNotTrusted
  | tlsKeyNotTrusted
  | tlsClosedBeforeConnect
  deriving DecidableEq, Repr

inductive LogcatError where
  | invalidHeader
  | exited (code : Byte) (stderr : Bytes)
  | closedWithoutExit
  | truncatedEntry
  deriving DecidableEq, Repr

inductive SyncError where
  | failed (msg : Bytes)
  | unexpectedId (raw : Bytes)
  | remoteErrno (errno : UInt32)
  | invalidPath
  | invalidFlags (bits : UInt32)
  deriving DecidableEq, Repr

inductive DecodeError where
  | invalidLengthPrefix
  | invalidProtobuf
  | invalidUtf8
  deriving DecidableEq, Repr

/-- `embedded_io::ErrorKind`: the four kinds that mean the device is gone, and every other one. -/
inductive ErrorKind where
  | connectionReset
  | connectionAborted
  | brokenPipe
  | notConnected
  | other (code : ℕ)
  deriving DecidableEq, Repr

inductive Error where
  | io (kind : ErrorKind)
  | protocol (e : ProtocolError)
  | channelClosed
  | noFreeChannels
  | unexpectedEof
  | channelRxOverflow
  | desynchronized
  | disconnected
  | auth (e : AuthError)
  | receiveBufferFull
  | logcat (e : LogcatError)
  | sync (e : SyncError)
  | decode (e : DecodeError)
  | missingFeature (feature : Feature)
  deriving DecidableEq, Repr

def ErrorKind.gone : ErrorKind → Bool
  | .other _ => false
  | _ => true

/-- `connection_gone` -/
def connectionGone : Error → Bool
  | .io kind => kind.gone
  | _ => false

/-- `ends_connection` -/
def endsConnection : Error → Bool
  | .unexpectedEof => true
  | .protocol e => e != .invalidChecksum
  | e => connectionGone e

end LibAdb
