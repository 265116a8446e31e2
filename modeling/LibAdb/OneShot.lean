import LibAdb.Base.ReadToEnd
import LibAdb.Cmd
import LibAdb.Lib.Traced
import LibAdb.Logcat.Reading
import LibAdb.Reverse
import LibAdb.Shell.Destination
import LibAdb.Sync.Push

/-!
# LibAdb.OneShot — calls that open a channel, use it and close it

The one-shot calls over any `Session`: `shell::v2::exec`, `logcat::dump` and `exec_text`, `abb::exec`, `cmd::exec`,
`exec::exec` and the calls of `reverse.rs`, which open their channel; `Shell::collect` and `SyncSession::quit`, which
are given one; and `open_interactive`, which keeps it unless it fails.  A session is a state machine of any kind: what
it answers may depend on all that went before.

Every operation on a channel is logged, and the log is what the session was made to do (`Session.Does`).  A call that
returns has logged no channel at all, or an open that failed, or `opened`, reads and writes of that channel, and last
`closed` (`Tidy`); what it returns it has before it closes, so another answer to the close changes nothing (`Agree`).

The loops of the source are bounded by `rounds` here, and a call that uses them up has not returned; neither has one
that was dropped, or that panicked over a buffer shorter than a header.
-/

namespace LibAdb.OneShot

open Traced Traced.Comp Destination Reverse Shell ShellV2 Slices

/-! ## Sessions -/

/-- An operation on a channel that returned. -/
inductive Op where
  | opened (ch : ChannelId)
  | refused
  | read (ch : ChannelId)
  | wrote (ch : ChannelId)
  | closed (ch : ChannelId)
  deriving DecidableEq, Repr

abbrev CallM (σ α : Type) : Type := Comp σ Op Error α

/-- `Session`, all but its `close_channel`; `none` is a call dropped there. -/
structure Link (σ : Type) where
  advertises : σ → Feature → Bool
  openChannel : Bytes → σ → Option (Except Error ChannelId × σ)
  /-- With the length of the buffer. -/
  readChannel : ChannelId → ℕ → σ → Option (Except Error Bytes × σ)
  writeChannel : ChannelId → Bytes → σ → Option (Except Error Unit × σ)

structure Session (σ : Type) extends Link σ where
  closeChannel : ChannelId → σ → Option (Except Error Unit × σ)

variable {σ α β : Type}

/-- What the session does for an entry of the log. -/
inductive Session.Does (S : Session σ) : Op → σ → σ → Prop
  | opened {dest : Bytes} {ch : ChannelId} {s s' : σ} (h : S.openChannel dest s = some (.ok ch, s')) :
      S.Does (.opened ch) s s'
  | refused {dest : Bytes} {e : Error} {s s' : σ} (h : S.openChannel dest s = some (.error e, s')) : S.Does .refused s s'
  | read {ch : ChannelId} {room : ℕ} {r : Except Error Bytes} {s s' : σ}
      (h : S.readChannel ch room s = some (r, s')) : S.Does (.read ch) s s'
  | wrote {ch : ChannelId} {data : Bytes} {r : Except Error Unit} {s s' : σ}
      (h : S.writeChannel ch data s = some (r, s')) : S.Does (.wrote ch) s s'
  | closed {ch : ChannelId} {r : Except Error Unit} {s s' : σ} (h : S.closeChannel ch s = some (r, s')) :
      S.Does (.closed ch) s s'

section Operations

variable (L : Link σ) (S : Session σ) (ch : ChannelId)

/-- `Session::open` -/
def «open» (destination : Bytes) : CallM σ ChannelId :=
  perform (L.openChannel destination) fun r => r.toOption.elim .refused .opened

/-- `Channel::read`; a session never gives more than the buffer holds. -/
def read (room : ℕ) : CallM σ Bytes := do
  let bytes ← perform (L.readChannel ch room) fun _ => .read ch
  pure (bytes.take room)

/-- `Channel::write` -/
def write (data : Bytes) : CallM σ Unit := perform (L.writeChannel ch data) fun _ => .wrote ch

/-- `Channel::close` -/
def close : CallM σ Unit := perform (S.closeChannel ch) fun _ => .closed ch

/-- `Session::require_feature` -/
def require (feature : Feature) : CallM σ Unit := do
  let advertises ← look L.advertises
  lift (requireFeature advertises feature)

/-- `let _ = channel.close().await;` between what a call came to and its return. -/
def thenClose (m : CallM σ α) : CallM σ α := do
  let result ← attempt m
  let _ ← attempt (close S ch)
  lift result

end Operations

/-! ## Shells -/

/-- `Frame` -/
inductive Frame where
  | stdout (payload : Bytes)
  | stderr (payload : Bytes)
  | exit (code : Byte)
  | other (id : Byte) (payload : Bytes)
  deriving DecidableEq, Repr

/-- `make_frame` -/
def makeFrame : RawItem → Except ProtocolError Frame
  | (.ok .stdout, payload) => .ok (.stdout payload)
  | (.ok .stderr, payload) => .ok (.stderr payload)
  | (.ok .exit, []) => .error .shortExitPayload
  | (.ok .exit, code :: _) => .ok (.exit code)
  | (other, payload) => .ok (.other (FrameId.byteOf other) payload)

/-- `WindowSize` -/
structure WindowSize where
  rows : UInt16
  cols : UInt16
  deriving DecidableEq, Repr

/-- `WindowSize::encode` -/
def WindowSize.encode (size : WindowSize) : Bytes :=
  formatU32 size.rows.toUInt32 ++ ascii "x" ++ formatU32 size.cols.toUInt32 ++ ascii ",0x0" ++ [0]

/-- `CommandOutput` -/
structure CommandOutput where
  stdout : Bytes
  stderr : Bytes
  exitCode : Byte
  deriving DecidableEq, Repr

section Shells

variable (L : Link σ) (S : Session σ) (ch : ChannelId)

/-- `Shell::new`, which asserts that a header fits. -/
def newShell (rx : Bytes) : CallM σ ShellV2.Shell :=
  if rx.length < ShellV2.headerSize then stopped else pure ⟨rx, .new⟩

/-- `send_frame`, and the session it leaves. -/
def sendFrame (shell : ShellV2.Shell) (id : FrameId) (payload : Bytes) : CallM σ (Except Error Unit × ShellV2.Shell) :=
  if 2 ^ 32 ≤ payload.length then pure (.error (.protocol .payloadTooLarge), shell)
  else
    let hdr := id.toByte :: toLeBytes (UInt32.ofNat payload.length)
    let total := ShellV2.headerSize + payload.length
    let c := shell.decoder.compact shell.rx
    let start := c.1.tail
    if total ≤ c.2.length - start then do
      let rx := splice c.2 start (hdr ++ payload)
      let sent ← attempt (write L ch (slice rx start (start + total)))
      pure (sent, ⟨rx, c.1⟩)
    else do
      let sent ← attempt do
        write L ch hdr
        if payload = [] then pure () else write L ch payload
      pure (sent, ⟨c.2, c.1⟩)

/-- `match sent { Err(ChannelClosed) => Ok(()), sent => sent }` -/
def unlessClosed : Except Error Unit → Except Error Unit
  | .error .channelClosed => .ok ()
  | sent => sent

/-- `close_stdin` -/
def closeStdin (shell : ShellV2.Shell) : CallM σ (Except Error Unit × ShellV2.Shell) := do
  let (sent, shell) ← sendFrame L ch shell .closeStdin []
  pure (unlessClosed sent, shell)

/-- `set_window_size` -/
def setWindowSize (shell : ShellV2.Shell) (size : WindowSize) : CallM σ (Except Error Unit × ShellV2.Shell) :=
  sendFrame L ch shell .windowSizeChange size.encode

section Reading

variable [Usize]

/-- `try_next_frame` -/
def tryNextFrame (shell : ShellV2.Shell) : Except Error (Option Frame) × ShellV2.Shell :=
  match shell.decoder.tryNextRawRef shell.rx with
  | (.error e, d) => (.error (.protocol e), ⟨shell.rx, d⟩)
  | (.ok none, d) => (.ok none, ⟨shell.rx, d⟩)
  | (.ok (some item), d) => (((makeFrame item).map some).mapError .protocol, ⟨shell.rx, d⟩)

/-- `read_frame` -/
def readFrame : ℕ → ShellV2.Shell → CallM σ (Frame × ShellV2.Shell)
  | 0, _ => stopped
  | rounds + 1, shell => do
    let next := tryNextFrame shell
    match ← lift next.1 with
    | some frame => pure (frame, next.2)
    | none =>
      let shell ← lift next.2.ensureWritable
      let bytes ← read L ch (shell.rx.length - shell.decoder.tail)
      readFrame rounds ⟨splice shell.rx shell.decoder.tail bytes, shell.decoder.commit bytes.length⟩

/-- The loop of `collect`. -/
def collectLoop (rounds : ℕ) : ℕ → ShellV2.Shell → CommandOutput → CallM σ CommandOutput
  | 0, _, _ => stopped
  | frames + 1, shell, out => do
    let (frame, shell) ← readFrame L ch rounds shell
    match frame with
    | .stdout b => collectLoop rounds frames shell { out with stdout := out.stdout ++ b }
    | .stderr b => collectLoop rounds frames shell { out with stderr := out.stderr ++ b }
    | .exit code => pure { out with exitCode := code }
    | .other _ _ => collectLoop rounds frames shell out

/-- `Shell::collect` -/
def collect (shell : ShellV2.Shell) (rounds : ℕ) : CallM σ CommandOutput :=
  thenClose S ch (collectLoop S.toLink ch rounds rounds shell ⟨[], [], 0⟩)

/-- `run_to_exit` -/
def runToExit (shell : ShellV2.Shell) (rounds : ℕ) : CallM σ CommandOutput := do
  let (sent, shell) ← closeStdin S.toLink ch shell
  match sent with
  | .error e => thenClose S ch (fail e)
  | .ok () => collect S ch shell rounds

end Reading

/-- What `open` and `open_interactive` begin with. -/
def openMode (mode : ShellMode) (command rx : Bytes) : CallM σ (ChannelId × ShellV2.Shell) := do
  require L .shellV2
  let dest ← lift ((destination mode command).mapError .protocol)
  let ch ← «open» L dest
  let shell ← newShell rx
  pure (ch, shell)

/-- `shell::v2::open` -/
def openShell (command rx : Bytes) : CallM σ (ChannelId × ShellV2.Shell) := openMode L .raw command rx

/-- The window size goes to the device, if there is one; if it cannot, the shell is closed. -/
def announce (shell : ShellV2.Shell) : Option WindowSize → CallM σ (ChannelId × ShellV2.Shell)
  | none => pure (ch, shell)
  | some size => do
    let (sent, shell) ← setWindowSize S.toLink ch shell size
    match sent with
    | .error e => thenClose S ch (fail e)
    | .ok () => pure (ch, shell)

/-- `open_interactive` -/
def openInteractive (command : Bytes) (term : Option Bytes) (windowSize : Option WindowSize) (rx : Bytes) :
    CallM σ (ChannelId × ShellV2.Shell) := do
  let (ch, shell) ← openMode S.toLink (.pty term) command rx
  announce S ch shell windowSize

variable [Usize]

/-- `shell::v2::exec` -/
def execShell (command rx : Bytes) (rounds : ℕ) : CallM σ CommandOutput := do
  let (ch, shell) ← openShell S.toLink command rx
  runToExit S ch shell rounds

/-- `open_argv`, and the buffer it wrote the destination to. -/
def openArgv (program : Bytes) (args : List Bytes) (buf : Bytes) : CallM σ (ChannelId × Bytes) := do
  require L .shellV2
  let d ← lift ((writeDestination buf [ascii "shell,v2,raw:", program] args).mapError DestinationError.toError)
  let ch ← «open» L (d.buf.take d.len)
  pure (ch, d.buf)

/-- `Shell::new(open_argv(..).await?, rx).run_to_exit()` -/
def execArgv (program : Bytes) (args : List Bytes) (rx : Bytes) (rounds : ℕ) : CallM σ CommandOutput := do
  let (ch, rx) ← openArgv S.toLink program args rx
  let shell ← newShell rx
  runToExit S ch shell rounds

end Shells

/-! ## Logcat -/

section Logs

variable (L : Link σ) (S : Session σ) (ch : ChannelId)

/-- `self.channel.read(&mut self.buf[self.tail..])` -/
def readTail (l : Logcat) : CallM σ (Except Error Unit × Logcat) := do
  match ← attempt (read L ch (l.buf.length - l.tail)) with
  | .error e => pure (.error e, l)
  | .ok bytes => pure (.ok (), { l with buf := splice l.buf l.tail bytes, tail := l.tail + bytes.length })

/-- `fill` -/
def fill (l : Logcat) : CallM σ (Except Error Unit × Logcat) :=
  if l.tail = l.buf.length then
    if l.compact.tail = l.compact.buf.length then pure (.error .receiveBufferFull, l.compact)
    else readTail L ch l.compact
  else readTail L ch l

/-- `read_entry`; the turns of its loop are those of `Logcat.turn`, and its bytes come from the session. -/
def readEntry : ℕ → Logcat → CallM σ (Except Error Logcat.LogEntry × Logcat)
  | 0, _ => stopped
  | rounds + 1, l =>
    match l.turn with
    | (.returns (.entry e), l) => pure (.ok e, l)
    | (.returns (.failed e), l) => pure (.error e, l)
    | (.returns .dropped, _) => stopped
    | (.again, l) => readEntry rounds l
    | (.fill, l) => do
      match ← fill L ch l with
      | (.ok (), l) => readEntry rounds l
      | (.error .channelClosed, l) => readEntry rounds { l with ended := .closedWithoutExit }
      | (.error e, l) => pure (.error e, l)

/-- The loop of `dump`. -/
def dumpLoop (rounds : ℕ) : ℕ → Logcat → List Logcat.LogEntry → CallM σ (List Logcat.LogEntry)
  | 0, _, _ => stopped
  | calls + 1, l, entries => do
    match ← readEntry L ch rounds l with
    | (.ok entry, l) => dumpLoop rounds calls l (entries ++ [entry])
    | (.error .channelClosed, _) => pure entries
    | (.error e, _) => fail e

/-- `Logcat::new`, which asserts that a header fits. -/
def newLogcat (buf : Bytes) : CallM σ Logcat :=
  if buf.length < ShellV2.headerSize then stopped else pure (.new [] [] buf)

variable [Usize]

/-- `logcat::dump` -/
def dump (args : List Bytes) (buf : Bytes) (rounds : ℕ) : CallM σ (List Logcat.LogEntry) := do
  let (ch, buf) ← openArgv S.toLink (ascii "logcat -B -d") args buf
  let logcat ← newLogcat buf
  thenClose S ch (dumpLoop S.toLink ch rounds rounds logcat [])

/-- `logcat::exec_text` -/
def execText (args : List Bytes) (rx : Bytes) (rounds : ℕ) : CallM σ CommandOutput :=
  execArgv S (ascii "logcat") args rx rounds

end Logs

/-! ## Reading to the end -/

section ReadToEnd

variable (L : Link σ) (S : Session σ) (ch : ChannelId)

/-- The loop of `read_to_vec`; `rx` is the length of the buffer. -/
def readToVecLoop (rx cap : ℕ) : ℕ → Bytes → CallM σ (Except Capped Bytes)
  | 0, _ => stopped
  | reads + 1, out => do
    match ← attempt (read L ch rx) with
    | .ok bytes =>
      if cap - out.length < bytes.length then pure (.error .capped) else readToVecLoop rx cap reads (out ++ bytes)
    | .error .channelClosed => pure (.ok out)
    | .error e => fail e

/-- `read_to_vec` -/
def readToVec (rx cap reads : ℕ) : CallM σ (Except Capped Bytes) :=
  thenClose S ch (readToVecLoop S.toLink ch rx cap reads [])

/-- The loop of `read_to_end`, and how it breaks, with the buffer as it is then. -/
def readToEndLoop : ℕ → Bytes → ℕ → CallM σ (Except Error ℕ × Bytes)
  | 0, _, _ => stopped
  | reads + 1, buf, tail => do
    let full := tail = buf.length
    match ← attempt (read L ch (if full then 1 else buf.length - tail)) with
    | .ok bytes =>
      if full ∧ 0 < bytes.length then pure (.error .receiveBufferFull, buf)
      else readToEndLoop reads (if full then buf else splice buf tail bytes) (tail + bytes.length)
    | .error .channelClosed => pure (.ok tail, buf)
    | .error e => pure (.error e, buf)

/-- `read_to_end` -/
def readToEnd (buf : Bytes) (reads : ℕ) : CallM σ (Except Error ℕ × Bytes) :=
  thenClose S ch (readToEndLoop S.toLink ch reads buf 0)

variable [Usize]

/-- `abb::open_exec` -/
def openExec (args : List Bytes) : CallM σ ChannelId := do
  let advertises ← look L.advertises
  let dest ← lift (Abb.openExec advertises args)
  «open» L dest

/-- `abb::exec` -/
def execAbb (args : List Bytes) (rx : Bytes) (rounds : ℕ) : CallM σ Bytes := do
  let ch ← openExec S.toLink args
  let out ← readToVec S ch rx.length usizeMax rounds
  lift (out.mapError fun _ => .receiveBufferFull)

/-- `cmd::exec` -/
def execCmd (args : List Bytes) (rx : Bytes) (rounds : ℕ) : CallM σ Bytes := do
  let advertises ← look S.advertises
  if advertises .abbExec && !Cmd.needsShell args then execAbb S args rx rounds
  else
    let out ← execArgv S Cmd.program args rx rounds
    lift (.ok out.stdout)

/-- `exec::exec`, with the buffer the output is in. -/
def exec (command buf : Bytes) (rounds : ℕ) : CallM σ (Except Error ℕ × Bytes) := do
  let d ← lift ((writeDestination buf [ascii "exec:", command] []).mapError DestinationError.toError)
  let ch ← «open» S.toLink (d.buf.take d.len)
  readToEnd S ch d.buf rounds

end ReadToEnd

/-! ## The reverse service

`Err(Error::Reverse(e))` is `.ok (.error e)` here. -/

section Reversing

variable (S : Session σ)

/-- `REPLY_CAP` -/
def replyCap : ℕ := 64 * 1024

/-- `check_specs` -/
def checkSpecs (specs : List Bytes) : Except Error Unit :=
  if specs.any (0 ∈ ·) then .error (.protocol .invalidDestination) else .ok ()

/-- `exchange` -/
def exchange (dest : Bytes) (rounds : ℕ) : CallM σ (Except ReverseError Bytes) := do
  let ch ← «open» S.toLink dest
  let reply ← readToVec S ch 512 replyCap rounds
  lift (.ok (reply.mapError fun _ => .unexpectedReply))

variable [Usize]

/-- `establish` -/
def establish (deviceSpec hostSpec : Bytes) (rounds : ℕ) : CallM σ (Except ReverseError (Option UInt32)) := do
  lift (checkSpecs [deviceSpec, hostSpec])
  let reply ← exchange S (ascii "reverse:forward:" ++ deviceSpec ++ ascii ";" ++ hostSpec ++ [0]) rounds
  lift (.ok ((reply.bind parseStatus).bind parsePort))

/-- `remove` -/
def remove (deviceSpec : Bytes) (rounds : ℕ) : CallM σ (Except ReverseError Unit) := do
  lift (checkSpecs [deviceSpec])
  let reply ← exchange S (ascii "reverse:killforward:" ++ deviceSpec ++ [0]) rounds
  lift (.ok ((reply.bind parseStatus).map fun _ => ()))

/-- `remove_all` -/
def removeAll (rounds : ℕ) : CallM σ (Except ReverseError Unit) := do
  let reply ← exchange S (ascii "reverse:killforward-all" ++ [0]) rounds
  lift (.ok ((reply.bind parseStatus).map fun _ => ()))

/-- What `list_raw` makes of a reply. -/
def listBlock (reply : Bytes) : Except ReverseError Bytes :=
  if reply.take 4 = ascii "FAIL" then .error (failMessage (reply.drop 4))
  else (hex4Block reply).elim (.error .unexpectedReply) .ok

/-- `list_raw` -/
def listRaw (rounds : ℕ) : CallM σ (Except ReverseError Bytes) := do
  let reply ← exchange S (ascii "reverse:list-forward" ++ [0]) rounds
  lift (.ok (reply.bind listBlock))

/-- `list` -/
def list (rounds : ℕ) : CallM σ (Except ReverseError (List Rule)) := do
  let listing ← listRaw S rounds
  lift (.ok (listing.bind parseListing))

end Reversing

/-! ## Sync -/

/-- `Result::and` -/
def andThen (sent closed : Except Error Unit) : Except Error Unit := sent.bind fun _ => closed

/-- `SyncSession::quit` -/
def quit (S : Session σ) (ch : ChannelId) : CallM σ Unit := do
  let sent ← attempt (write S.toLink ch (Sync.SyncId.quit.asBytes ++ toLeBytes 0))
  let closed ← attempt (close S ch)
  lift (andThen (unlessClosed sent) closed)

/-! ## What a call does on its channel -/

namespace Op

/-- A read or a write on `ch`. -/
def Uses (ch : ChannelId) (op : Op) : Prop := op = .read ch ∨ op = .wrote ch

end Op

def AllUse (ch : ChannelId) (ops : List Op) : Prop := ∀ op ∈ ops, op.Uses ch

/-- Reads and writes on `ch`, and then its close. -/
def ClosedAfter (ch : ChannelId) (ops : List Op) : Prop := ∃ used, AllUse ch used ∧ ops = used ++ [.closed ch]

/-- What a call that opens a channel may do: fail before it, fail to open it, or open it and close it in the end. -/
inductive Tidy : List Op → Prop
  | unopened : Tidy []
  | refused : Tidy [.refused]
  | closed (ch : ChannelId) {ops : List Op} (h : ClosedAfter ch ops) : Tidy (.opened ch :: ops)

theorem AllUse.append {ch : ChannelId} {ops ops' : List Op} (h : AllUse ch ops) (h' : AllUse ch ops') :
    AllUse ch (ops ++ ops') :=
  fun op hop => (List.mem_append.mp hop).elim (h op) (h' op)

theorem AllUse.nil (ch : ChannelId) : AllUse ch [] := fun _ h => nomatch h

theorem ClosedAfter.after {ch : ChannelId} {ops ops' : List Op} (h : AllUse ch ops) (h' : ClosedAfter ch ops') :
    ClosedAfter ch (ops ++ ops') := by
  obtain ⟨used, hused, rfl⟩ := h'
  exact ⟨ops ++ used, h.append hused, (List.append_assoc _ _ _).symm⟩

/-! ### The pieces of a call -/

/-- Only reads from and writes to `ch`. -/
abbrev Using (S : Session σ) (ch : ChannelId) (m : CallM σ α) : Prop := Logs S.Does m fun _ ops => AllUse ch ops

/-- And it has no error of its own. -/
abbrev Sure (S : Session σ) (ch : ChannelId) (m : CallM σ α) : Prop := Logs S.Does m fun r ops => (∃ a, r = .ok a) ∧ AllUse ch ops

/-- It closes `ch` in the end. -/
abbrev Closing (S : Session σ) (ch : ChannelId) (m : CallM σ α) : Prop := Logs S.Does m fun _ ops => ClosedAfter ch ops

abbrev Tidies (S : Session σ) (m : CallM σ α) : Prop := Logs S.Does m fun _ ops => Tidy ops

/-- It is silent. -/
abbrev Silent (S : Session σ) (m : CallM σ α) : Prop := Logs S.Does m fun _ ops => ops = []

/-- It opens a channel, or fails before that or there. -/
inductive Opened (chan : α → ChannelId) : Except Error α → List Op → Prop
  | failed (e : Error) : Opened chan (.error e) []
  | refused (e : Error) : Opened chan (.error e) [.refused]
  | opened (a : α) : Opened chan (.ok a) [.opened (chan a)]

abbrev Opens (S : Session σ) (chan : α → ChannelId) (m : CallM σ α) : Prop := Logs S.Does m (Opened chan)

section Rules

variable {S : Session σ} {ch : ChannelId} {m : CallM σ α} {f : α → CallM σ β}

theorem Using.bind (hm : Using S ch m) (hf : ∀ a, Using S ch (f a)) : Using S ch (m >>= f) :=
  Logs.bind hm hf (fun _ _ h => h) fun _ _ _ _ h h' => h.append h'

theorem Using.pure (a : α) : Using S ch (pure a : CallM σ α) := Logs.pure (AllUse.nil ch)

theorem Using.lift (r : Except Error α) : Using S ch (lift r : CallM σ α) := Logs.lift (AllUse.nil ch)

theorem Using.attempt (hm : Using S ch m) : Sure S ch (attempt m) :=
  Logs.attempt (hm.mono fun r _ h => ⟨⟨r, rfl⟩, h⟩)

theorem Sure.using (hm : Sure S ch m) : Using S ch m := hm.mono fun _ _ h => h.2

theorem Sure.pure (a : α) : Sure S ch (pure a : CallM σ α) := Logs.pure ⟨⟨a, rfl⟩, AllUse.nil ch⟩

theorem Sure.bind (hm : Sure S ch m) (hf : ∀ a, Sure S ch (f a)) : Sure S ch (m >>= f) := by
  refine Logs.bind hm hf ?_ fun _ _ _ _ h h' => ⟨h'.1, h.2.append h'.2⟩
  rintro e ops ⟨⟨a, ha⟩, -⟩
  cases ha

/-- A piece without errors, and then one that closes. -/
theorem Sure.closing (hm : Sure S ch m) (hf : ∀ a, Closing S ch (f a)) : Closing S ch (m >>= f) := by
  refine Logs.bind hm hf ?_ fun _ _ _ _ h h' => ClosedAfter.after h.2 h'
  rintro e ops ⟨⟨a, ha⟩, -⟩
  cases ha

theorem Silent.lift (r : Except Error α) : Silent S (Comp.lift r : CallM σ α) := Logs.lift rfl

theorem Silent.look (g : σ → α) : Silent S (Comp.look g : CallM σ α) := Logs.look fun _ => rfl

theorem Silent.tidies (hm : Silent S m) (hf : ∀ a, Tidies S (f a)) : Tidies S (m >>= f) :=
  Logs.bind hm hf (fun _ _ h => h ▸ .unopened) fun _ _ _ _ h h' => by
    rw [h, List.nil_append]
    exact h'

theorem Silent.opens {chan : β → ChannelId} (hm : Silent S m) (hf : ∀ a, Opens S chan (f a)) : Opens S chan (m >>= f) :=
  Logs.bind hm hf (fun _ _ h => h ▸ .failed _) fun _ _ _ _ h h' => by
    rw [h, List.nil_append]
    exact h'

/-- The channel goes on to be part of a handle. -/
theorem Opens.bind {chan : α → ChannelId} {chan' : β → ChannelId} (hm : Opens S chan m)
    (hf : ∀ a, Logs S.Does (f a) fun r ops => (∃ b, r = .ok b ∧ chan' b = chan a) ∧ ops = []) : Opens S chan' (m >>= f) := by
  refine Logs.bind hm hf ?_ ?_
  · rintro e ops (_ | _)
    · exact .failed e
    · exact .refused e
  · rintro a r ops ops' ⟨⟩ ⟨⟨b, rfl, hb⟩, rfl⟩
    rw [List.append_nil, ← hb]
    exact .opened b

/-- The channel that was opened is closed in the end. -/
theorem Opens.tidies {chan : α → ChannelId} (hm : Opens S chan m) (hf : ∀ a, Closing S (chan a) (f a)) :
    Tidies S (m >>= f) := by
  refine Logs.bind hm hf ?_ ?_
  · rintro e ops (_ | _)
    · exact .unopened
    · exact .refused
  · rintro a r ops ops' ⟨⟩ hclosed
    exact .closed (chan a) hclosed

end Rules

section Operations

variable (S : Session σ) (ch : ChannelId)

theorem using_read (room : ℕ) : Using S ch (read S.toLink ch room) :=
  Using.bind (Logs.perform (fun _ _ _ => .read) fun _ => by simp [AllUse, Op.Uses]) fun _ => Using.pure _

theorem using_write (data : Bytes) : Using S ch (write S.toLink ch data) :=
  Logs.perform (fun _ _ _ => .wrote) fun _ => by simp [AllUse, Op.Uses]

theorem opens_open (dest : Bytes) : Opens S id («open» S.toLink dest) := by
  refine Logs.perform ?_ ?_
  · rintro (e | ch) s s' h
    · exact .refused h
    · exact .opened h
  · rintro (e | ch)
    · exact .refused e
    · exact .opened ch

theorem silent_require (feature : Feature) : Silent S (require S.toLink feature) :=
  Logs.bind (Silent.look _) (fun _ => Silent.lift _) (fun _ _ h => h) fun _ _ _ _ h h' => by rw [h, h', List.append_nil]

/-- The close is the last thing, and comes once; what `m` returned is returned. -/
theorem logs_thenClose {m : CallM σ α} {P : Except Error α → Prop} (h : Logs S.Does m fun r ops => P r ∧ AllUse ch ops) :
    Logs S.Does (thenClose S ch m) fun r ops => P r ∧ ClosedAfter ch ops := by
  have hm : Logs S.Does (attempt m) fun r ops => ∃ a, r = .ok a ∧ P a ∧ AllUse ch ops :=
    Logs.attempt (h.mono fun r _ hr => ⟨r, rfl, hr⟩)
  have hclose : Logs S.Does (attempt (close S ch)) fun r ops => (∃ a, r = .ok a) ∧ ops = [.closed ch] :=
    Logs.attempt (Logs.perform (fun _ _ _ => .closed) fun r => ⟨⟨r, rfl⟩, rfl⟩)
  have hlast : ∀ result : Except Error α, Logs S.Does (attempt (close S ch) >>= fun _ => Comp.lift result)
      fun r ops => r = result ∧ ops = [.closed ch] := by
    intro result
    have hlift : Logs S.Does (Comp.lift result : CallM σ α) fun r ops => r = result ∧ ops = [] := Logs.lift ⟨rfl, rfl⟩
    refine hclose.bind (fun _ => hlift) ?_ ?_
    · rintro e ops ⟨⟨a, ha⟩, -⟩
      cases ha
    · rintro a r ops ops' ⟨-, rfl⟩ ⟨rfl, rfl⟩
      exact ⟨rfl, rfl⟩
  refine hm.bind hlast ?_ ?_
  · rintro e ops ⟨a, ha, -⟩
    cases ha
  · rintro a r ops ops' ⟨b, hb, hP, huse⟩ ⟨rfl, rfl⟩
    cases hb
    exact ⟨hP, ops, huse, rfl⟩

theorem closing_thenClose {m : CallM σ α} (h : Using S ch m) : Closing S ch (thenClose S ch m) :=
  (logs_thenClose S ch (h.mono fun _ _ hops => ⟨trivial, hops⟩)).mono fun _ _ hr => hr.2

/-- What is returned is there before the close. -/
theorem agree_thenClose (m : CallM σ α) (close' : ChannelId → σ → Option (Except Error Unit × σ)) :
    Agree (thenClose S ch m) (thenClose { S with closeChannel := close' } ch m) := by
  refine Agree.bind fun result => ?_
  have hret : ∀ (T : Session σ) w r w', (attempt (close T ch) >>= fun _ => Comp.lift result) w = some (r, w') →
      r = result := by
    intro T w r w' h
    rcases bind_returns h with ⟨e, hrun, -⟩ | ⟨a, w1, -, hrest⟩
    · obtain ⟨a, ha, -⟩ := attempt_returns hrun
      cases ha
    · cases hrest
      rfl
  intro w r w1 r' w2 h h'
  rw [hret _ _ _ _ h, hret _ _ _ _ h']

end Operations

/-! ### Shells -/

section Shells

variable (S : Session σ) (ch : ChannelId) (close' : ChannelId → σ → Option (Except Error Unit × σ))

theorem sure_newShell (rx : Bytes) : Sure S ch (newShell rx : CallM σ ShellV2.Shell) := by
  unfold newShell
  split_ifs
  · exact Logs.stopped
  · exact Sure.pure _

theorem sure_sendFrame (shell : ShellV2.Shell) (id : FrameId) (payload : Bytes) :
    Sure S ch (sendFrame S.toLink ch shell id payload) := by
  unfold sendFrame
  dsimp only
  split_ifs
  · exact Sure.pure _
  · exact (using_write S ch _).attempt.bind fun _ => Sure.pure _
  · refine Sure.bind (Using.attempt ((using_write S ch _).bind fun _ => Using.pure _)) fun _ => Sure.pure _
  · refine Sure.bind (Using.attempt ((using_write S ch _).bind fun _ => using_write S ch _)) fun _ => Sure.pure _

theorem sure_closeStdin (shell : ShellV2.Shell) : Sure S ch (closeStdin S.toLink ch shell) :=
  (sure_sendFrame S ch shell _ _).bind fun _ => Sure.pure _

theorem sure_setWindowSize (shell : ShellV2.Shell) (size : WindowSize) : Sure S ch (setWindowSize S.toLink ch shell size) :=
  sure_sendFrame S ch shell _ _

theorem opens_openMode (mode : ShellMode) (command rx : Bytes) : Opens S Prod.fst (openMode S.toLink mode command rx) := by
  refine (silent_require S _).opens fun _ => (Silent.lift _).opens fun dest => (opens_open S dest).bind fun ch => ?_
  unfold newShell
  split_ifs
  · exact Logs.stopped
  · exact Logs.pure ⟨⟨_, rfl, rfl⟩, rfl⟩

/-- `open_interactive` returns the channel open, with what it wrote there, or closed. -/
inductive Kept : Except Error (ChannelId × ShellV2.Shell) → List Op → Prop
  | failed (e : Error) {ops : List Op} (h : Tidy ops) : Kept (.error e) ops
  | kept (handle : ChannelId × ShellV2.Shell) {used : List Op} (h : AllUse handle.1 used) :
      Kept (.ok handle) (.opened handle.1 :: used)

/-- Which of the two, from the open on. -/
def KeptAfter (ch : ChannelId) (r : Except Error (ChannelId × ShellV2.Shell)) (ops : List Op) : Prop :=
  (∃ e, r = .error e ∧ ClosedAfter ch ops) ∨ ∃ shell, r = .ok (ch, shell) ∧ AllUse ch ops

theorem keptAfter_announce (shell : ShellV2.Shell) (windowSize : Option WindowSize) :
    Logs S.Does (announce S ch shell windowSize) (KeptAfter ch) := by
  rcases windowSize with _ | size
  · exact Logs.pure (.inr ⟨shell, rfl, AllUse.nil ch⟩)
  refine Logs.bind (Q := fun _ => KeptAfter ch) (sure_setWindowSize S ch shell size) ?_ ?_ ?_
  · rintro ⟨e | _, shell⟩
    · have hfail : Logs S.Does (fail e : CallM σ (ChannelId × ShellV2.Shell)) fun r ops => r = .error e ∧ AllUse ch ops :=
        Logs.lift ⟨rfl, AllUse.nil ch⟩
      exact (logs_thenClose S ch hfail).mono fun _ _ h => .inl ⟨e, h⟩
    · exact Logs.pure (.inr ⟨shell, rfl, AllUse.nil ch⟩)
  · rintro e ops ⟨⟨a, ha⟩, -⟩
    cases ha
  · rintro a r ops ops' ⟨-, huse⟩ (⟨e, rfl, hclosed⟩ | ⟨shell, rfl, huse'⟩)
    · exact .inl ⟨e, rfl, .after huse hclosed⟩
    · exact .inr ⟨shell, rfl, huse.append huse'⟩

theorem kept_openInteractive (command : Bytes) (term : Option Bytes) (windowSize : Option WindowSize) (rx : Bytes) :
    Logs S.Does (openInteractive S command term windowSize rx) Kept := by
  refine Logs.bind (opens_openMode S (.pty term) command rx)
    (fun handle => keptAfter_announce S handle.1 handle.2 windowSize) ?_ ?_
  · rintro e ops (_ | _)
    · exact .failed e .unopened
    · exact .failed e .refused
  · rintro handle r ops ops' ⟨⟩ (⟨e, rfl, hclosed⟩ | ⟨shell, rfl, huse⟩)
    · exact .failed e (.closed handle.1 hclosed)
    · exact .kept (handle.1, shell) huse

theorem agree_openInteractive (command : Bytes) (term : Option Bytes) (windowSize : Option WindowSize) (rx : Bytes) :
    Agree (openInteractive S command term windowSize rx)
      (openInteractive { S with closeChannel := close' } command term windowSize rx) := by
  refine Agree.bind ?_
  rintro ⟨ch, shell⟩
  rcases windowSize with _ | size
  · exact Agree.refl _
  · refine Agree.bind ?_
    rintro ⟨e | _, shell⟩
    · exact agree_thenClose S ch _ close'
    · exact Agree.refl _

section Reading

variable [Usize]

theorem using_readFrame (rounds : ℕ) (shell : ShellV2.Shell) : Using S ch (readFrame S.toLink ch rounds shell) := by
  induction rounds generalizing shell with
  | zero => exact Logs.stopped
  | succ rounds ih =>
    rw [readFrame]
    refine (Using.lift _).bind fun next => ?_
    rcases next with _ | frame
    · exact (Using.lift _).bind fun shell => (using_read S ch _).bind fun bytes => ih _
    · exact Using.pure _

theorem using_collectLoop (rounds frames : ℕ) (shell : ShellV2.Shell) (out : CommandOutput) :
    Using S ch (collectLoop S.toLink ch rounds frames shell out) := by
  induction frames generalizing shell out with
  | zero => exact Logs.stopped
  | succ frames ih =>
    rw [collectLoop]
    refine (using_readFrame S ch rounds shell).bind ?_
    rintro ⟨frame, shell⟩
    cases frame with
    | stdout b => exact ih _ _
    | stderr b => exact ih _ _
    | exit code => exact Using.pure _
    | other id payload => exact ih _ _

theorem closing_collect (shell : ShellV2.Shell) (rounds : ℕ) : Closing S ch (collect S ch shell rounds) :=
  closing_thenClose S ch (using_collectLoop _ ch rounds rounds shell _)

theorem closing_runToExit (shell : ShellV2.Shell) (rounds : ℕ) : Closing S ch (runToExit S ch shell rounds) := by
  refine (sure_closeStdin _ ch shell).closing ?_
  rintro ⟨_ | _, shell⟩
  · exact closing_thenClose S ch (Using.lift _)
  · exact closing_collect S ch shell rounds

theorem agree_runToExit (shell : ShellV2.Shell) (rounds : ℕ) :
    Agree (runToExit S ch shell rounds) (runToExit { S with closeChannel := close' } ch shell rounds) := by
  refine Agree.bind ?_
  rintro ⟨_ | _, shell⟩
  · exact agree_thenClose S ch _ close'
  · exact agree_thenClose S ch _ close'

theorem opens_openArgv (program : Bytes) (args : List Bytes) (buf : Bytes) :
    Opens S Prod.fst (openArgv S.toLink program args buf) :=
  (silent_require S _).opens fun _ => (Silent.lift _).opens fun _ => (opens_open S _).bind fun _ =>
    Logs.pure ⟨⟨_, rfl, rfl⟩, rfl⟩

theorem tidies_execArgv (program : Bytes) (args : List Bytes) (rx : Bytes) (rounds : ℕ) :
    Tidies S (execArgv S program args rx rounds) :=
  (opens_openArgv _ program args rx).tidies fun _ => (sure_newShell _ _ _).closing fun _ => closing_runToExit S _ _ _

theorem agree_execArgv (program : Bytes) (args : List Bytes) (rx : Bytes) (rounds : ℕ) :
    Agree (execArgv S program args rx rounds)
      (execArgv { S with closeChannel := close' } program args rx rounds) :=
  Agree.bind fun _ => Agree.bind fun _ => agree_runToExit S _ close' _ _

end Reading

end Shells

/-! ### Logcat -/

section Logcats

variable (S : Session σ) (ch : ChannelId)

theorem sure_readTail (l : Logcat) : Sure S ch (readTail S.toLink ch l) := by
  refine (using_read S ch _).attempt.bind ?_
  rintro (_ | _)
  · exact Sure.pure _
  · exact Sure.pure _

theorem sure_fill (l : Logcat) : Sure S ch (fill S.toLink ch l) := by
  unfold fill
  split_ifs
  · exact Sure.pure _
  · exact sure_readTail S ch _
  · exact sure_readTail S ch _

theorem sure_readEntry (rounds : ℕ) (l : Logcat) : Sure S ch (readEntry S.toLink ch rounds l) := by
  induction rounds generalizing l with
  | zero => exact Logs.stopped
  | succ rounds ih =>
    rw [readEntry]
    split
    · exact Sure.pure _
    · exact Sure.pure _
    · exact Logs.stopped
    · exact ih _
    · refine (sure_fill S ch _).bind fun filled => ?_
      split
      · exact ih _
      · exact ih _
      · exact Sure.pure _

theorem using_dumpLoop (rounds calls : ℕ) (l : Logcat) (entries : List Logcat.LogEntry) :
    Using S ch (dumpLoop S.toLink ch rounds calls l entries) := by
  induction calls generalizing l entries with
  | zero => exact Logs.stopped
  | succ calls ih =>
    rw [dumpLoop]
    refine (sure_readEntry S ch rounds l).using.bind fun answer => ?_
    split
    · exact ih _ _
    · exact Using.pure _
    · exact Using.lift _

theorem sure_newLogcat (buf : Bytes) : Sure S ch (newLogcat buf : CallM σ Logcat) := by
  unfold newLogcat
  split_ifs
  · exact Logs.stopped
  · exact Sure.pure _

end Logcats

/-! ### Reading to the end -/

section ReadToEnd

variable (S : Session σ) (ch : ChannelId) (close' : ChannelId → σ → Option (Except Error Unit × σ))

theorem using_readToVecLoop (rx cap reads : ℕ) (out : Bytes) : Using S ch (readToVecLoop S.toLink ch rx cap reads out) := by
  induction reads generalizing out with
  | zero => exact Logs.stopped
  | succ reads ih =>
    rw [readToVecLoop]
    refine (using_read S ch rx).attempt.using.bind fun answer => ?_
    split
    · split_ifs
      · exact Using.pure _
      · exact ih _
    · exact Using.pure _
    · exact Using.lift _

theorem using_readToEndLoop (reads : ℕ) (buf : Bytes) (tail : ℕ) : Using S ch (readToEndLoop S.toLink ch reads buf tail) := by
  induction reads generalizing buf tail with
  | zero => exact Logs.stopped
  | succ reads ih =>
    rw [readToEndLoop]
    refine (using_read S ch _).attempt.using.bind fun answer => ?_
    split
    · split_ifs
      · exact Using.pure _
      · exact ih _ _
      · exact ih _ _
    · exact Using.pure _
    · exact Using.pure _

theorem closing_readToVec (rx cap reads : ℕ) : Closing S ch (readToVec S ch rx cap reads) :=
  closing_thenClose S ch (using_readToVecLoop _ ch rx cap reads [])

theorem opens_openExec (args : List Bytes) : Opens S id (openExec S.toLink args) :=
  (Silent.look _).opens fun _ => (Silent.lift _).opens fun dest => opens_open S dest

variable [Usize]

theorem tidies_execAbb (args : List Bytes) (rx : Bytes) (rounds : ℕ) : Tidies S (execAbb S args rx rounds) :=
  (opens_openExec _ args).tidies fun ch => (closing_readToVec S ch _ _ rounds).bind_lift _

theorem agree_execAbb (args : List Bytes) (rx : Bytes) (rounds : ℕ) :
    Agree (execAbb S args rx rounds) (execAbb { S with closeChannel := close' } args rx rounds) :=
  Agree.bind fun ch => (agree_thenClose S ch _ close').bind_lift _

end ReadToEnd

section Reversing

variable (S : Session σ) (close' : ChannelId → σ → Option (Except Error Unit × σ))

theorem tidies_exchange (dest : Bytes) (rounds : ℕ) : Tidies S (exchange S dest rounds) :=
  (opens_open _ dest).tidies fun ch => (closing_readToVec S ch _ _ rounds).bind_lift _

theorem agree_exchange (dest : Bytes) (rounds : ℕ) :
    Agree (exchange S dest rounds) (exchange { S with closeChannel := close' } dest rounds) :=
  Agree.bind fun ch => (agree_thenClose S ch _ close').bind_lift _

end Reversing

/-! ## The calls -/

/-- A call that makes the session do what `P` says of its channel, and returns the same whatever becomes of the close. -/
structure ClosesOnce (P : Except Error α → List Op → Prop) (m : Session σ → CallM σ α) : Prop where
  logs : ∀ S, Logs S.Does (m S) P
  agree : ∀ S close', Agree (m S) (m { S with closeChannel := close' })

section Reversing

variable {m : Session σ → CallM σ α}

theorem ClosesOnce.bind_lift (h : ClosesOnce (fun _ => Tidy) m) (g : α → Except Error β) :
    ClosesOnce (fun _ => Tidy) fun S => m S >>= fun a => Comp.lift (g a) :=
  ⟨fun S => (h.logs S).bind_lift g, fun S close' => (h.agree S close').bind_lift g⟩

/-- A check comes first. -/
theorem ClosesOnce.after_check (h : ClosesOnce (fun _ => Tidy) m) (r : Except Error β) :
    ClosesOnce (fun _ => Tidy) fun S => Comp.lift r >>= fun _ => m S :=
  ⟨fun S => (Silent.lift r).tidies fun _ => h.logs S, fun S close' => Agree.bind fun _ => h.agree S close'⟩

theorem closesOnce_exchange (dest : Bytes) (rounds : ℕ) :
    ClosesOnce (fun _ => Tidy) fun S : Session σ => exchange S dest rounds :=
  ⟨fun S => tidies_exchange S dest rounds, fun S close' => agree_exchange S close' dest rounds⟩

end Reversing

theorem closing_quit (S : Session σ) (ch : ChannelId) : Closing S ch (quit S ch) := by
  have hclose : Closing S ch (attempt (close S ch)) :=
    Logs.attempt (Logs.perform (fun _ _ _ => .closed) fun _ => ⟨[], AllUse.nil ch, rfl⟩)
  exact (using_write _ ch _).attempt.closing fun sent => hclose.bind_lift _

/-- What `quit` makes of its two answers. -/
theorem quit_returns {S : Session σ} {ch : ChannelId} {w w' : Logged σ Op} {r : Except Error Unit}
    (h : quit S ch w = some (r, w')) :
    ∃ sent env closed, S.writeChannel ch (Sync.SyncId.quit.asBytes ++ toLeBytes 0) w.env = some (sent, env) ∧
      S.closeChannel ch env = some (closed, w'.env) ∧ r = andThen (unlessClosed sent) closed := by
  rcases bind_returns h with ⟨e, hrun, -⟩ | ⟨sent, w1, hwrite, hrest⟩
  · obtain ⟨a, ha, -⟩ := attempt_returns hrun
    cases ha
  rcases bind_returns hrest with ⟨e, hrun, -⟩ | ⟨closed, w2, hclose, hlift⟩
  · obtain ⟨a, ha, -⟩ := attempt_returns hrun
    cases ha
  cases hlift
  obtain ⟨a, ha, hwrite⟩ := attempt_returns hwrite
  cases ha
  obtain ⟨b, hb, hclose⟩ := attempt_returns hclose
  cases hb
  exact ⟨sent, w1.env, closed, (perform_returns hwrite).1, (perform_returns hclose).1, rfl⟩

theorem andThen_of_sent {sent closed : Except Error Unit} (h : sent = .ok () ∨ sent = .error .channelClosed) :
    andThen (unlessClosed sent) closed = closed := by
  rcases h with rfl | rfl <;> rfl

theorem andThen_of_unsent {e : Error} {closed : Except Error Unit} (h : e ≠ .channelClosed) :
    andThen (unlessClosed (.error e)) closed = .error e := by
  unfold unlessClosed
  split
  · next heq => exact absurd (Except.error.inj heq) h
  · rfl

/-- **One-shot calls close their channel** once and last, whatever the session answers, and return what they had before:
all but `quit`, which returns what the close did unless its QUIT failed.  `open_interactive` closes if it fails. -/
theorem one_shots_close_once [Usize] (σ : Type) (rounds : ℕ) :
    (∀ command rx, ClosesOnce (fun _ => Tidy) fun S : Session σ => execShell S command rx rounds) ∧
    (∀ ch shell, ClosesOnce (fun _ => ClosedAfter ch) fun S : Session σ => collect S ch shell rounds) ∧
    (∀ command term windowSize rx,
      ClosesOnce Kept fun S : Session σ => openInteractive S command term windowSize rx) ∧
    (∀ args buf, ClosesOnce (fun _ => Tidy) fun S : Session σ => dump S args buf rounds) ∧
    (∀ args rx, ClosesOnce (fun _ => Tidy) fun S : Session σ => execText S args rx rounds) ∧
    (∀ args rx, ClosesOnce (fun _ => Tidy) fun S : Session σ => execAbb S args rx rounds) ∧
    (∀ args rx, ClosesOnce (fun _ => Tidy) fun S : Session σ => execCmd S args rx rounds) ∧
    (∀ command buf, ClosesOnce (fun _ => Tidy) fun S : Session σ => exec S command buf rounds) ∧
    (∀ deviceSpec hostSpec,
      ClosesOnce (fun _ => Tidy) fun S : Session σ => establish S deviceSpec hostSpec rounds) ∧
    (∀ deviceSpec, ClosesOnce (fun _ => Tidy) fun S : Session σ => remove S deviceSpec rounds) ∧
    (ClosesOnce (fun _ => Tidy) fun S : Session σ => removeAll S rounds) ∧
    (ClosesOnce (fun _ => Tidy) fun S : Session σ => list S rounds) ∧
    (ClosesOnce (fun _ => Tidy) fun S : Session σ => listRaw S rounds) ∧
    ∀ (S : Session σ) ch, (Logs S.Does (quit S ch) fun _ => ClosedAfter ch) ∧
      ∀ w r w', quit S ch w = some (r, w') →
        ∃ sent env closed, S.writeChannel ch (Sync.SyncId.quit.asBytes ++ toLeBytes 0) w.env = some (sent, env) ∧
          S.closeChannel ch env = some (closed, w'.env) ∧
          (sent = .ok () ∨ sent = .error .channelClosed → r = closed) ∧
          ∀ e, sent = .error e → e ≠ .channelClosed → r = .error e := by
  have hraw : ClosesOnce (fun _ => Tidy) fun S : Session σ => listRaw S rounds := (closesOnce_exchange _ _).bind_lift _
  refine ⟨fun command rx => ⟨fun S => ?_, fun S close' => ?_⟩, fun ch shell => ⟨fun S => ?_, fun S close' => ?_⟩,
    fun command term windowSize rx => ⟨fun S => ?_, fun S close' => ?_⟩,
    fun args buf => ⟨fun S => ?_, fun S close' => ?_⟩, fun args rx => ⟨fun S => ?_, fun S close' => ?_⟩,
    fun args rx => ⟨fun S => ?_, fun S close' => ?_⟩, fun args rx => ⟨fun S => ?_, fun S close' => ?_⟩,
    fun command buf => ⟨fun S => ?_, fun S close' => ?_⟩,
    fun deviceSpec hostSpec => ?_, fun deviceSpec => ?_, ?_, ?_, hraw, fun S ch => ⟨closing_quit S ch, ?_⟩⟩
  · exact (opens_openMode _ _ command rx).tidies fun _ => closing_runToExit S _ _ rounds
  · exact Agree.bind fun _ => agree_runToExit S _ close' _ rounds
  · exact closing_collect S ch shell rounds
  · exact agree_thenClose S ch _ close'
  · exact kept_openInteractive S command term windowSize rx
  · exact agree_openInteractive S close' command term windowSize rx
  · exact (opens_openArgv _ _ args buf).tidies fun _ => (sure_newLogcat _ _ _).closing fun _ =>
      closing_thenClose S _ (using_dumpLoop _ _ _ _ _ _)
  · exact Agree.bind fun _ => Agree.bind fun _ => agree_thenClose S _ _ close'
  · exact tidies_execArgv S _ args rx rounds
  · exact agree_execArgv S close' _ args rx rounds
  · exact tidies_execAbb S args rx rounds
  · exact agree_execAbb S close' args rx rounds
  · -- the route depends on what the device advertises
    refine (Silent.look _).tidies fun advertises => ?_
    split_ifs
    · exact tidies_execAbb S args rx rounds
    · exact (tidies_execArgv S _ args rx rounds).bind_lift _
  · refine Agree.bind fun advertises => ?_
    split_ifs
    · exact agree_execAbb S close' args rx rounds
    · exact (agree_execArgv S close' _ args rx rounds).bind_lift _
  · exact (Silent.lift _).tidies fun d => (opens_open _ _).tidies fun ch =>
      closing_thenClose S ch (using_readToEndLoop _ ch rounds _ 0)
  · exact Agree.bind fun d => Agree.bind fun ch => agree_thenClose S ch _ close'
  · exact ((closesOnce_exchange _ _).bind_lift _).after_check _
  · exact ((closesOnce_exchange _ _).bind_lift _).after_check _
  · exact (closesOnce_exchange _ _).bind_lift _
  · exact hraw.bind_lift _
  · intro w r w' h
    obtain ⟨sent, env, closed, hwrite, hclose, rfl⟩ := quit_returns h
    refine ⟨sent, env, closed, hwrite, hclose, andThen_of_sent, ?_⟩
    rintro e rfl he
    exact andThen_of_unsent he

/-- A device that answers every read with the next of some pieces, on a session whose close fails. -/
def failingClose : Session (List Bytes) where
  advertises _ _ := true
  openChannel _ pieces := some (.ok ⟨0, ⟨1⟩⟩, pieces)
  readChannel _ _ pieces := some (pieces.head?.elim (.error .channelClosed) .ok, pieces.tail)
  writeChannel _ _ pieces := some (.ok (), pieces)
  closeChannel _ pieces := some (.error .disconnected, pieces)

/-- The output of a command that exits with 3 is returned, though the close fails; a `quit` fails with it. -/
theorem one_shots_close_once_failing :
    @execShell _ failingClose usize64 (ascii "id") (List.replicate 16 0) 4
        ⟨[[1, 2, 0, 0, 0, 104], [105, 3, 1, 0, 0, 0, 3]], []⟩ =
      some (.ok ⟨[104, 105], [], 3⟩, ⟨[], [.opened ⟨0, ⟨1⟩⟩, .wrote ⟨0, ⟨1⟩⟩, .read ⟨0, ⟨1⟩⟩, .read ⟨0, ⟨1⟩⟩,
        .closed ⟨0, ⟨1⟩⟩]⟩) ∧
      Tidy [.opened ⟨0, ⟨1⟩⟩, .wrote ⟨0, ⟨1⟩⟩, .read ⟨0, ⟨1⟩⟩, .read ⟨0, ⟨1⟩⟩, .closed ⟨0, ⟨1⟩⟩] ∧
      quit failingClose ⟨0, ⟨1⟩⟩ ⟨[], []⟩ = some (.error .disconnected, ⟨[], [.wrote ⟨0, ⟨1⟩⟩, .closed ⟨0, ⟨1⟩⟩]⟩) := by
  refine ⟨rfl, ?_, rfl⟩
  obtain ⟨ops, hlog, -, htidy⟩ := ((@one_shots_close_once usize64 (List Bytes) 4).1 (ascii "id")
    (List.replicate 16 0)).logs failingClose ⟨[[1, 2, 0, 0, 0, 104], [105, 3, 1, 0, 0, 0, 3]], []⟩ _ _ rfl
  cases hlog
  exact htidy

end LibAdb.OneShot
