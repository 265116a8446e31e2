import LibAdb.Base.Protocol

/-!
# LibAdb.Transport.Tls — the outgoing side of a TLS session

`transport/tls/session.rs` and the write half of `transport/tls/halves.rs`.  The engine seals plaintext and keeps the
ciphertext until it is harvested; what was harvested waits in a queue (`tx`, after a split `pending`) and goes to the
inner transport from there, in as many writes as that takes.  A call can be dropped at every await: in a write or a flush
of the inner transport, or waiting for the engine's lock, which the read half uses too.

A call is given a `Script`: what the inner transport does with each write and flush, and in what state the lock finds the
engine.  A script that has run out is a call dropped there.  `accepted` is what the inner transport has taken; an errored
or dropped write has taken nothing.  `harvested` is all the ciphertext the engine has put out; the code does not read it.

`Balanced` is the invariant.  Every piece of a call keeps it (`Keeps`), wherever the call ends.
-/

namespace LibAdb.Tls

/-! ## The engine and the inner transport -/

inductive RustlsError where
  | general (message : String)
  | other (code : ℕ)
  deriving DecidableEq, Repr

inductive TlsError where
  | io (kind : ErrorKind)
  | writeZero
  | closed
  | handshakeClosed
  | tls (e : RustlsError)
  deriving DecidableEq, Repr

/-- `ClientConnection`, as far as the outgoing side uses it. -/
structure Engine (σ : Type) where
  isHandshaking : σ → Bool
  wantsWrite : σ → Bool
  /-- What `write_tls` puts into the sink, and whether it returned `Ok`. -/
  writeTls : σ → Bytes × Bool × σ
  /-- `writer().write(buf)`; `none` is an error. -/
  write : σ → Bytes → Option ℕ × σ
  sendCloseNotify : σ → σ
  /-- `write_tls` takes something away from what is to be written. -/
  backlog : σ → ℕ
  backlog_lt : ∀ conn, wantsWrite conn = true → backlog (writeTls conn).2.2 < backlog conn

/-- What becomes of one `write` of the inner transport. -/
inductive InnerWrite where
  | ok (n : ℕ)
  | err (kind : ErrorKind)
  | dropped
  deriving DecidableEq, Repr

inductive InnerFlush where
  | ok
  | err (kind : ErrorKind)
  | dropped
  deriving DecidableEq, Repr

/-- What becomes of waiting for the engine's lock: it is had, with the engine and `failed` as the read half has left
them, or the call is dropped. -/
inductive Lock (σ : Type) where
  | had (conn : σ) (failed : Option RustlsError)
  | dropped

structure Script (σ : Type) where
  writes : List InnerWrite
  flushes : List InnerFlush
  locks : List (Lock σ)

/-- The outgoing side: of `TlsSession`, and after a split of `TlsWriteHalf` with its `TlsShared`. -/
structure Outgoing (σ : Type) where
  conn : σ
  /-- `tx` of the session, `pending` of the write half. -/
  queue : Bytes
  failed : Option RustlsError
  closed : Bool
  accepted : Bytes
  harvested : Bytes
  script : Script σ

/-- How a call ends that returns no value. -/
inductive Stop where
  | failed (e : TlsError)
  | dropped
  deriving DecidableEq, Repr

/-- A piece of a call. -/
def TlsM (σ α : Type) : Type := Outgoing σ → Except Stop α × Outgoing σ

namespace TlsM

variable {σ α β : Type}

instance : Monad (TlsM σ) where
  pure a := fun s => (.ok a, s)
  bind m f := fun s =>
    match m s with
    | (.ok a, s) => f a s
    | (.error stop, s) => (.error stop, s)

def state : TlsM σ (Outgoing σ) := fun s => (.ok s, s)

def fail (e : TlsError) : TlsM σ α := fun s => (.error (.failed e), s)

def dropped : TlsM σ α := fun s => (.error .dropped, s)

/-- The result of a piece, with its error in hand. -/
def attempt (m : TlsM σ α) : TlsM σ (Except TlsError α) := fun s =>
  match m s with
  | (.ok a, s) => (.ok (.ok a), s)
  | (.error (.failed e), s) => (.ok (.error e), s)
  | (.error .dropped, s) => (.error .dropped, s)

/-- Use the engine. -/
def engine (f : σ → α × σ) : TlsM σ α := fun s => (.ok (f s.conn).1, { s with conn := (f s.conn).2 })

def close : TlsM σ Unit := fun s => (.ok (), { s with closed := true })

def setFailed (failed : Option RustlsError) : TlsM σ Unit := fun s => (.ok (), { s with failed })

section Bind

variable {m : TlsM σ α} {f : α → TlsM σ β} {s s' : Outgoing σ} {a : α}

theorem bind_of_ok (h : m s = (.ok a, s')) : (m >>= f) s = f a s' := by
  simp only [Bind.bind, h]

theorem bind_of_error {stop : Stop} (h : m s = (.error stop, s')) : (m >>= f) s = (.error stop, s') := by
  simp only [Bind.bind, h]

/-- What a piece that returned did first. -/
theorem bind_eq_ok {b : β} (h : (m >>= f) s = (.ok b, s')) : ∃ a s1, m s = (.ok a, s1) ∧ f a s1 = (.ok b, s') := by
  rcases hm : m s with ⟨_ | a, s1⟩
  · rw [bind_of_error hm] at h
    cases h
  · rw [bind_of_ok hm] at h
    exact ⟨a, s1, rfl, h⟩

end Bind

end TlsM

open TlsM

variable {σ : Type} (E : Engine σ)

/-! ## What both sides of a split use -/

/-- The loop of `harvest`: what is appended to the queue, and the engine after it. -/
def harvestLoop : ℕ → σ → Bytes × σ
  | 0, conn => ([], conn)
  | rounds + 1, conn =>
    if E.wantsWrite conn then
      let (out, ok, conn) := E.writeTls conn
      if ok then (out ++ (harvestLoop rounds conn).1, (harvestLoop rounds conn).2) else (out, conn)
    else ([], conn)

/-- `harvest`; each round takes something from the backlog, so it has rounds enough. -/
def harvest : TlsM σ Unit := fun s =>
  let (out, conn) := harvestLoop E (E.backlog s.conn) s.conn
  (.ok (), { s with conn, queue := s.queue ++ out, harvested := s.harvested ++ out })

/-- More rounds than the backlog change nothing. -/
theorem harvestLoop_enough {rounds : ℕ} {conn : σ} (h : E.backlog conn ≤ rounds) :
    harvestLoop E rounds conn = harvestLoop E (E.backlog conn) conn := by
  induction rounds using Nat.strong_induction_on generalizing conn with
  | _ rounds ih =>
    cases hb : E.backlog conn with
    | zero =>
      have hidle : ¬ E.wantsWrite conn = true := fun hw => by
        have := E.backlog_lt conn hw
        omega
      cases rounds with
      | zero => rfl
      | succ rounds => simp only [harvestLoop, if_neg hidle]
    | succ backlog =>
      obtain ⟨rounds, rfl⟩ : ∃ k, rounds = k + 1 := ⟨rounds - 1, by omega⟩
      by_cases hw : E.wantsWrite conn = true
      · have hlt := E.backlog_lt conn hw
        have hleft := @ih rounds (Nat.lt_succ_self _) (E.writeTls conn).2.2 (by omega)
        have hright := @ih backlog (by omega) (E.writeTls conn).2.2 (by omega)
        simp only [harvestLoop, if_pos hw, hleft, hright]
      · rw [harvestLoop, if_neg hw, harvestLoop, if_neg hw]

/-- The loop of `send_queue`: what is left of the queue and of the script, and what the inner transport has. -/
def sendLoop : List InnerWrite → Bytes → Bytes → Except Stop Unit × List InnerWrite × Bytes × Bytes
  | [], queue, accepted => (if queue = [] then .ok () else .error .dropped, [], queue, accepted)
  | w :: ws, queue, accepted =>
    if queue = [] then (.ok (), w :: ws, queue, accepted)
    else match w with
      | .ok n =>
        let n := min n queue.length
        if n = 0 then (.error (.failed .writeZero), ws, queue, accepted)
        else sendLoop ws (queue.drop n) (accepted ++ queue.take n)
      | .err kind => (.error (.failed (.io kind)), ws, queue, accepted)
      | .dropped => (.error .dropped, ws, queue, accepted)

/-- `send_queue` -/
def sendQueue : TlsM σ Unit := fun s =>
  let (r, writes, queue, accepted) := sendLoop s.script.writes s.queue s.accepted
  (r, { s with queue, accepted, script := { s.script with writes } })

/-- `flush` of the inner transport. -/
def innerFlush : TlsM σ Unit := fun s =>
  match s.script.flushes with
  | [] => (.error .dropped, s)
  | f :: flushes =>
    let s := { s with script := { s.script with flushes } }
    match f with
    | .ok => (.ok (), s)
    | .err kind => (.error (.failed (.io kind)), s)
    | .dropped => (.error .dropped, s)

/-- The body of `flush_tx` and of `drain`. -/
def pushOut : TlsM σ Unit := do
  sendQueue
  innerFlush

/-- `write_plain` -/
def writePlain (conn : σ) (buf : Bytes) : Except RustlsError ℕ × σ :=
  match E.write conn buf with
  | (some n, conn) => (.ok n, conn)
  | (none, conn) => (.error (.general "tls writer closed"), conn)

def queueLimit : ℕ := 64 * 1024

/-! ## `TlsSession` -/

namespace Session

def flushTx : TlsM σ Unit := pushOut

def failure : TlsM σ Unit := do
  let s ← state
  match s.failed with
  | none => pure ()
  | some e =>
    harvest E
    let _ ← attempt flushTx
    fail (.tls e)

/-- What the handshake finds when it has sent what there was: the engine fed, the engine's refusal, the stream over, an
error of the read, or the call dropped. -/
inductive Fed (σ : Type) where
  | advanced (conn : σ)
  | refused (conn : σ) (e : RustlsError)
  | closed
  | failed (kind : ErrorKind)
  | dropped

def handshake : List (Fed σ) → TlsM σ Unit
  | [] => do
    let s ← state
    if E.isHandshaking s.conn then
      harvest E
      flushTx
      dropped
    else
      harvest E
      flushTx
  | fed :: rest => do
    let s ← state
    if E.isHandshaking s.conn then
      harvest E
      flushTx
      match fed with
      | .advanced conn =>
        engine fun _ => ((), conn)
        handshake rest
      | .refused conn e =>
        engine fun _ => ((), conn)
        setFailed (some e)
        failure E
      | .closed => fail .handshakeClosed
      | .failed kind => fail (.io kind)
      | .dropped => dropped
    else
      harvest E
      flushTx

def shutdown : TlsM σ Unit := do
  close
  failure E
  engine fun conn => ((), E.sendCloseNotify conn)
  harvest E
  flushTx

def write (buf : Bytes) : TlsM σ ℕ :=
  if buf = [] then pure 0
  else do
    let s ← state
    if s.closed then fail .closed
    else do
      failure E
      let s ← state
      let _ ← (if queueLimit ≤ s.queue.length then sendQueue else pure () : TlsM σ Unit)
      match ← engine fun conn => writePlain E conn buf with
      | .error e => fail (.tls e)
      | .ok n => do
        harvest E
        pure n

def flush : TlsM σ Unit := do
  failure E
  harvest E
  flushTx

end Session

/-! ## `TlsWriteHalf` -/

namespace WriteHalf

/-- `shared.conn.lock()`; `failed` is set once. -/
def lock : TlsM σ Unit := fun s =>
  match s.script.locks with
  | [] => (.error .dropped, s)
  | l :: locks =>
    let s := { s with script := { s.script with locks } }
    match l with
    | .had conn failed => (.ok (), { s with conn, failed := s.failed.or failed })
    | .dropped => (.error .dropped, s)

def queue {R : Type} (f : σ → R × σ) : TlsM σ (Except RustlsError R) := do
  lock
  let s ← state
  match s.failed with
  | some e =>
    harvest E
    pure (.error e)
  | none =>
    let r ← engine f
    harvest E
    pure (.ok r)

def drain : TlsM σ Unit := pushOut

def pushWith {R : Type} (f : σ → R × σ) : TlsM σ R := do
  let result ← queue E f
  let drained ← attempt drain
  match result, drained with
  | .ok r, .ok () => pure r
  | .ok _, .error e => fail e
  | .error e, _ => fail (.tls e)

def shutdown : TlsM σ Unit := do
  close
  pushWith E fun conn => ((), E.sendCloseNotify conn)

def write (buf : Bytes) : TlsM σ ℕ :=
  if buf = [] then pure 0
  else do
    let s ← state
    if s.closed then fail .closed
    else do
      let _ ← (if queueLimit ≤ s.queue.length then sendQueue else pure () : TlsM σ Unit)
      match ← queue E fun conn => writePlain E conn buf with
      | .ok (.ok n) => pure n
      | .ok (.error e) => fail (.tls e)
      | .error e => do
        let _ ← attempt drain
        fail (.tls e)

def flush : TlsM σ Unit := pushWith E fun conn => ((), conn)

end WriteHalf

/-! ## Sequences of calls -/

/-- What there is to call: the session, its write half after a split, or nothing after a split that failed. -/
inductive Phase where
  | session
  | half
  | gone
  deriving DecidableEq, Repr

structure Endpoint (σ : Type) where
  phase : Phase
  out : Outgoing σ

inductive Call (σ : Type) where
  | handshake (fed : List (Session.Fed σ))
  | write (buf : Bytes)
  | flush
  | shutdown

/-- What happens to an endpoint. -/
inductive Event (σ : Type) where
  | call (c : Call σ) (script : Script σ)
  /-- A read, which may feed the engine or find it at fault. -/
  | read (conn : σ) (failed : Option RustlsError)
  /-- `split`, and whether the inner transport could be split. -/
  | split (ok : Bool)

namespace Endpoint

/-- `TlsSession::new` -/
def start (conn : σ) : Endpoint σ := ⟨.session, conn, [], none, false, [], [], ⟨[], [], []⟩⟩

/-- The code of a call. -/
def body : Phase → Call σ → TlsM σ Unit
  | .session, .handshake fed => Session.handshake E fed
  | .session, .write buf => (fun _ => ()) <$> Session.write E buf
  | .session, .flush => Session.flush E
  | .session, .shutdown => Session.shutdown E
  | .half, .write buf => (fun _ => ()) <$> WriteHalf.write E buf
  | .half, .flush => WriteHalf.flush E
  | .half, .shutdown => WriteHalf.shutdown E
  | .half, .handshake _ | .gone, _ => dropped

/-- A call, with its script. -/
def call (p : Endpoint σ) (c : Call σ) (script : Script σ) : Except Stop Unit × Endpoint σ :=
  let (r, out) := body E p.phase c { p.out with script }
  (r, ⟨p.phase, out⟩)

/-- `MaybeTls::split`: the queue goes to the write half, the engine and `failed` to what the halves share. -/
def split (p : Endpoint σ) (ok : Bool) : Endpoint σ :=
  match p.phase with
  | .session => if ok then { p with phase := .half } else { p with phase := .gone }
  | _ => p

def after (p : Endpoint σ) : Event σ → Endpoint σ
  | .call c script => (p.call E c script).2
  | .read conn failed => { p with out := { p.out with conn, failed := p.out.failed.or failed } }
  | .split ok => p.split ok

def run (p : Endpoint σ) (es : List (Event σ)) : Endpoint σ := es.foldl (after E) p

end Endpoint

/-! ## Nothing lost and nothing twice -/

/-- **The invariant**: what was accepted and what is queued is what was harvested. -/
def Balanced (s : Outgoing σ) : Prop := s.accepted ++ s.queue = s.harvested

/-- A piece that keeps the balance, however it ends. -/
def Keeps {α : Type} (m : TlsM σ α) : Prop := ∀ s, Balanced s → Balanced (m s).2

section Keeps

variable {α β : Type} {m : TlsM σ α} {f : α → TlsM σ β}

theorem Keeps.same (h : ∀ s, (m s).2.accepted = s.accepted ∧ (m s).2.queue = s.queue ∧
    (m s).2.harvested = s.harvested) : Keeps m := by
  intro s hs
  obtain ⟨h1, h2, h3⟩ := h s
  unfold Balanced at hs ⊢
  rw [h1, h2, h3, hs]

theorem Keeps.pure (a : α) : Keeps (pure a : TlsM σ α) := fun _ h => h

theorem Keeps.fail (e : TlsError) : Keeps (fail e : TlsM σ α) := fun _ h => h

theorem Keeps.dropped : Keeps (dropped : TlsM σ α) := fun _ h => h

theorem Keeps.engine (f : σ → α × σ) : Keeps (engine f) := fun _ h => h

theorem Keeps.close : Keeps (close : TlsM σ Unit) := fun _ h => h

theorem Keeps.setFailed (failed : Option RustlsError) : Keeps (setFailed failed : TlsM σ Unit) := fun _ h => h

theorem Keeps.bind (hm : Keeps m) (hf : ∀ a, Keeps (f a)) : Keeps (m >>= f) := by
  intro s hs
  have h1 := hm s hs
  rcases hr : m s with ⟨stop | a, s1⟩
  · rw [hr] at h1
    rw [bind_of_error hr]
    exact h1
  · rw [hr] at h1
    rw [bind_of_ok hr]
    exact hf a s1 h1

theorem Keeps.state_bind {g : Outgoing σ → TlsM σ β} (h : ∀ s, Keeps (g s)) : Keeps (state >>= g) :=
  fun s hs => h s s hs

theorem Keeps.attempt (hm : Keeps m) : Keeps (attempt m) := by
  intro s hs
  have h1 := hm s hs
  unfold TlsM.attempt
  rcases hr : m s with ⟨(e | _) | a, s1⟩ <;> rw [hr] at h1 <;> exact h1

/-- **Harvesting** puts the same bytes on both sides. -/
theorem keeps_harvest : Keeps (harvest E) := by
  intro s hs
  unfold Balanced at hs ⊢
  show s.accepted ++ (s.queue ++ _) = s.harvested ++ _
  rw [← List.append_assoc, hs]

/-- What `send_queue` moves is what it takes from the front of the queue; when it returns, that was all. -/
theorem sendLoop_spec (ws : List InnerWrite) (queue accepted : Bytes) :
    (sendLoop ws queue accepted).2.2.2 ++ (sendLoop ws queue accepted).2.2.1 = accepted ++ queue ∧
      ((sendLoop ws queue accepted).1 = .ok () → (sendLoop ws queue accepted).2.2.1 = []) := by
  induction ws generalizing queue accepted with
  | nil =>
    refine ⟨rfl, fun h => ?_⟩
    simp only [sendLoop] at h ⊢
    by_contra hne
    rw [if_neg hne] at h
    cases h
  | cons w ws ih =>
    unfold sendLoop
    split_ifs with hq
    · exact ⟨rfl, fun _ => hq⟩
    · cases w with
      | ok n =>
        dsimp only
        split_ifs with hn
        · exact ⟨rfl, nofun⟩
        · obtain ⟨h1, h2⟩ := ih (queue.drop (min n queue.length)) (accepted ++ queue.take (min n queue.length))
          refine ⟨?_, h2⟩
          rw [h1, List.append_assoc, List.take_append_drop]
      | err kind => exact ⟨rfl, nofun⟩
      | dropped => exact ⟨rfl, nofun⟩

theorem keeps_sendQueue : Keeps (sendQueue : TlsM σ Unit) := by
  intro s hs
  have hmoved := (sendLoop_spec s.script.writes s.queue s.accepted).1
  rw [show s.accepted ++ s.queue = s.harvested from hs] at hmoved
  exact hmoved

theorem keeps_innerFlush : Keeps (innerFlush : TlsM σ Unit) := by
  refine .same fun s => ?_
  unfold innerFlush
  cases s.script.flushes with
  | nil => exact ⟨rfl, rfl, rfl⟩
  | cons f flushes => cases f <;> exact ⟨rfl, rfl, rfl⟩

theorem keeps_pushOut : Keeps (pushOut : TlsM σ Unit) := keeps_sendQueue.bind fun _ => keeps_innerFlush

/-! ### The session -/

namespace Session

theorem keeps_failure : Keeps (failure E) := by
  refine Keeps.state_bind fun s => ?_
  split
  · exact .pure _
  · exact (keeps_harvest E).bind fun _ => keeps_pushOut.attempt.bind fun _ => .fail _

theorem keeps_handshake (fed : List (Fed σ)) : Keeps (handshake E fed) := by
  have hlast : Keeps (harvest E >>= fun _ => flushTx) := (keeps_harvest E).bind fun _ => keeps_pushOut
  induction fed with
  | nil =>
    refine Keeps.state_bind fun s => ?_
    split_ifs
    · exact (keeps_harvest E).bind fun _ => keeps_pushOut.bind fun _ => .dropped
    · exact hlast
  | cons f rest ih =>
    refine Keeps.state_bind fun s => ?_
    split_ifs
    · refine (keeps_harvest E).bind fun _ => keeps_pushOut.bind fun _ => ?_
      cases f with
      | advanced conn => exact (Keeps.engine _).bind fun _ => ih
      | refused conn e => exact (Keeps.engine _).bind fun _ => (Keeps.setFailed _).bind fun _ => keeps_failure E
      | closed => exact .fail _
      | failed kind => exact .fail _
      | dropped => exact .dropped
    · exact hlast

theorem keeps_shutdown : Keeps (shutdown E) :=
  Keeps.close.bind fun _ => (keeps_failure E).bind fun _ => (Keeps.engine _).bind fun _ =>
    (keeps_harvest E).bind fun _ => keeps_pushOut

theorem keeps_write (buf : Bytes) : Keeps (write E buf) := by
  unfold write
  split_ifs
  · exact .pure _
  · refine Keeps.state_bind fun s => ?_
    split_ifs
    · exact .fail _
    · refine (keeps_failure E).bind fun _ => Keeps.state_bind fun s => ?_
      refine Keeps.bind ?_ fun _ => (Keeps.engine _).bind fun r => ?_
      · split_ifs
        · exact keeps_sendQueue
        · exact .pure _
      · split
        · exact .fail _
        · exact (keeps_harvest E).bind fun _ => .pure _

theorem keeps_flush : Keeps (flush E) :=
  (keeps_failure E).bind fun _ => (keeps_harvest E).bind fun _ => keeps_pushOut

end Session

/-! ### The write half -/

namespace WriteHalf

theorem keeps_lock : Keeps (lock : TlsM σ Unit) := by
  refine .same fun s => ?_
  unfold lock
  cases s.script.locks with
  | nil => exact ⟨rfl, rfl, rfl⟩
  | cons l locks => cases l <;> exact ⟨rfl, rfl, rfl⟩

theorem keeps_queue {R : Type} (f : σ → R × σ) : Keeps (queue E f) := by
  refine keeps_lock.bind fun _ => Keeps.state_bind fun s => ?_
  split
  · exact (keeps_harvest E).bind fun _ => .pure _
  · exact (Keeps.engine f).bind fun _ => (keeps_harvest E).bind fun _ => .pure _

theorem keeps_pushWith {R : Type} (f : σ → R × σ) : Keeps (pushWith E f) := by
  refine (keeps_queue E f).bind fun result => keeps_pushOut.attempt.bind fun drained => ?_
  split
  · exact .pure _
  · exact .fail _
  · exact .fail _

theorem keeps_write (buf : Bytes) : Keeps (write E buf) := by
  unfold write
  split_ifs
  · exact .pure _
  · refine Keeps.state_bind fun s => ?_
    by_cases hclosed : s.closed = true
    · rw [if_pos hclosed]
      exact .fail _
    · rw [if_neg hclosed]
      refine Keeps.bind ?_ fun _ => (keeps_queue E _).bind fun r => ?_
      · split_ifs
        · exact keeps_sendQueue
        · exact .pure _
      · split
        · exact .pure _
        · exact .fail _
        · exact keeps_pushOut.attempt.bind fun _ => .fail _

end WriteHalf

end Keeps

/-! ## What a flush that returns leaves -/

/-- A piece that empties the queue when it returns. -/
def Drains {α : Type} (m : TlsM σ α) : Prop := ∀ s a s', m s = (.ok a, s') → s'.queue = []

section Drains

variable {α β : Type} {m : TlsM σ α} {f : α → TlsM σ β}

/-- What comes first does not matter. -/
theorem Drains.after (hf : ∀ a, Drains (f a)) : Drains (m >>= f) := by
  intro s b s' h
  obtain ⟨a, s1, -, h⟩ := bind_eq_ok h
  exact hf a s1 b s' h

theorem drains_pushOut : Drains (pushOut : TlsM σ Unit) := by
  intro s a s' h
  obtain ⟨⟨⟩, s1, hsend, hflush⟩ := bind_eq_ok h
  have hempty : s1.queue = [] := by
    obtain ⟨hr, rfl⟩ := Prod.mk.inj hsend
    exact (sendLoop_spec s.script.writes s.queue s.accepted).2 hr
  unfold innerFlush at hflush
  split at hflush
  · cases hflush
  · rename_i f flushes _
    cases f with
    | ok =>
      cases hflush
      exact hempty
    | err kind => cases hflush
    | dropped => cases hflush

theorem Session.drains_flush : Drains (Session.flush E) :=
  Drains.after fun _ => Drains.after fun _ => drains_pushOut

theorem Session.drains_shutdown : Drains (Session.shutdown E) :=
  Drains.after fun _ => Drains.after fun _ => Drains.after fun _ => Drains.after fun _ => drains_pushOut

/-- `push_with` returns `Ok` only when the queue was drained. -/
theorem WriteHalf.drains_pushWith {R : Type} (f : σ → R × σ) : Drains (WriteHalf.pushWith E f) := by
  refine Drains.after fun result => ?_
  intro s a s' h
  obtain ⟨drained, s1, hdrain, h⟩ := bind_eq_ok h
  cases result with
  | error e => cases h
  | ok r =>
    cases drained with
    | error e => cases h
    | ok u =>
      cases h
      unfold TlsM.attempt at hdrain
      rcases hp : (WriteHalf.drain : TlsM σ Unit) s with ⟨(e | _) | ⟨⟩, s2⟩
      · rw [hp] at hdrain
        cases hdrain
      · rw [hp] at hdrain
        cases hdrain
      · rw [hp] at hdrain
        cases hdrain
        exact drains_pushOut s () _ hp

end Drains

/-! ## Over a whole run -/

namespace Endpoint

variable {E}

theorem keeps_body (phase : Phase) (c : Call σ) : Keeps (body E phase c) := by
  cases phase with
  | session =>
    cases c with
    | handshake fed => exact Session.keeps_handshake E fed
    | write buf => exact (Session.keeps_write E buf).bind fun _ => .pure _
    | flush => exact Session.keeps_flush E
    | shutdown => exact Session.keeps_shutdown E
  | half =>
    cases c with
    | handshake fed => exact .dropped
    | write buf => exact (WriteHalf.keeps_write E buf).bind fun _ => .pure _
    | flush => exact WriteHalf.keeps_pushWith E _
    | shutdown => exact Keeps.close.bind fun _ => WriteHalf.keeps_pushWith E _
  | gone => exact .dropped

/-- One event. -/
theorem balanced_after {p : Endpoint σ} (h : Balanced p.out) (e : Event σ) : Balanced (p.after E e).out := by
  cases e with
  | call c script => exact keeps_body p.phase c { p.out with script } h
  | read conn failed => exact h
  | split ok =>
    show Balanced (p.split ok).out
    unfold Endpoint.split
    split
    · split_ifs <;> exact h
    · exact h

/-- Any run. -/
theorem balanced_run {p : Endpoint σ} (h : Balanced p.out) (es : List (Event σ)) : Balanced (p.run E es).out := by
  induction es generalizing p with
  | nil => exact h
  | cons e es ih => exact ih (balanced_after h e)

/-- A flush or shutdown that returned. -/
theorem drains_call {p p' : Endpoint σ} {c : Call σ} {script : Script σ} (hc : c = .flush ∨ c = .shutdown)
    (h : p.call E c script = (.ok (), p')) : p'.out.queue = [] := by
  obtain ⟨hr, rfl⟩ := Prod.mk.inj h
  have hdrains : Drains (body E p.phase c) := by
    rcases hc with rfl | rfl <;> cases p.phase
    · exact Session.drains_flush E
    · exact WriteHalf.drains_pushWith E _
    · exact fun _ _ _ h => nomatch h
    · exact Session.drains_shutdown E
    · exact Drains.after fun _ => WriteHalf.drains_pushWith E _
    · exact fun _ _ _ h => nomatch h
  exact hdrains { p.out with script } () _ (Prod.ext hr rfl)

end Endpoint

/-- **TLS records go out without gap or repeat**, whatever the inner transport does and wherever calls are dropped, and
a flush or shutdown that returns has sent all of them. -/
theorem records_without_gap (E : Engine σ) (conn : σ) (es : List (Event σ)) :
    ((Endpoint.start conn).run E es).out.accepted ++ ((Endpoint.start conn).run E es).out.queue =
        ((Endpoint.start conn).run E es).out.harvested ∧
      ∀ (c : Call σ) (script : Script σ) (p' : Endpoint σ), c = .flush ∨ c = .shutdown →
        ((Endpoint.start conn).run E es).call E c script = (.ok (), p') →
          p'.out.queue = [] ∧ p'.out.accepted = p'.out.harvested := by
  have hrun : Balanced ((Endpoint.start conn).run E es).out := Endpoint.balanced_run (show Balanced (Endpoint.start conn).out from rfl) es
  refine ⟨hrun, fun c script p' hc hcall => ?_⟩
  have hempty := Endpoint.drains_call hc hcall
  have hafter : Balanced p'.out := by
    have := Endpoint.balanced_after (E := E) hrun (.call c script)
    rw [Endpoint.after, hcall] at this
    exact this
  refine ⟨hempty, ?_⟩
  unfold Balanced at hafter
  rw [hempty, List.append_nil] at hafter
  exact hafter

/-- An engine that seals nothing. -/
def plainEngine : Engine Bytes where
  isHandshaking _ := false
  wantsWrite conn := conn ≠ []
  writeTls conn := (conn, true, [])
  write conn buf := (some buf.length, conn ++ buf)
  sendCloseNotify conn := conn ++ [0]
  backlog := List.length
  backlog_lt _ h := List.length_pos_iff.mpr (of_decide_eq_true h)

/-- Three bytes are written, the session is split, a flush is dropped after the first of them, and another returns. -/
theorem records_without_gap_dropped :
    ∃ p', ((Endpoint.start []).run plainEngine [.call (.write [1, 2, 3]) ⟨[], [], []⟩, .split true,
        .call .flush ⟨[.ok 1, .dropped], [], [.had [] none]⟩]).call plainEngine .flush
          ⟨[.ok 5], [.ok], [.had [] none]⟩ = (.ok (), p') ∧
      p'.out.queue = [] ∧ p'.out.accepted = [1, 2, 3] := by
  have hall : ∀ p', ((Endpoint.start []).run plainEngine [.call (.write [1, 2, 3]) ⟨[], [], []⟩, .split true,
        .call .flush ⟨[.ok 1, .dropped], [], [.had [] none]⟩]).call plainEngine .flush
          ⟨[.ok 5], [.ok], [.had [] none]⟩ = (.ok (), p') → p'.out.harvested = [1, 2, 3] →
      p'.out.queue = [] ∧ p'.out.accepted = [1, 2, 3] := by
    intro p' hcall hharvest
    obtain ⟨hempty, hacc⟩ := (records_without_gap plainEngine [] _).2 .flush _ p' (Or.inl rfl) hcall
    exact ⟨hempty, hacc.trans hharvest⟩
  exact ⟨_, rfl, hall _ rfl rfl⟩

end LibAdb.Tls
