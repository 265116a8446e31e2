import LibAdb.Lib.Stops
import LibAdb.Transport.Tls

/-!
# LibAdb.Transport.TlsRead — the incoming side of a TLS session

`Inbound`, `feed`, `take_plaintext` and `read` of `transport/tls/session.rs`, and the read half of
`transport/tls/halves.rs`.  What the inner transport delivers waits in `rx`, is fed to the engine in the pieces it
takes, and comes back as plaintext.  A read can be dropped where it waits for the inner transport and, after a split, for the
engine's lock, which the write half uses in between.

`Promises` is what is asked of the engine: records are opened in order, once, and what is written does not touch what is
read.  `Faithful` is the invariant of every read, wherever it ends; the code does not look at the ghosts `received`,
`returned` and `waited`.
-/

namespace LibAdb.Tls

open Stops

/-! ## The engine -/

/-- `read_tls(&mut &rx[..])` -/
inductive ReadTls where
  | took (n : ℕ)
  /-- An error of kind `Other`: the engine's buffers are full. -/
  | full
  | err (message : String)
  deriving DecidableEq, Repr

/-- `reader().read(buf)` -/
inductive ReaderRead where
  | ok (out : Bytes)
  | wouldBlock
  | err
  deriving DecidableEq, Repr

/-- `ClientConnection`, with what the incoming side uses. -/
structure Duplex (σ : Type) extends Engine σ where
  readTls : σ → Bytes → ReadTls × σ
  processNewPackets : σ → Except RustlsError Unit × σ
  reader : σ → ℕ → ReaderRead × σ

/-- What the write half does with the engine. -/
inductive WriteOp where
  | writeTls
  | write (buf : Bytes)
  | sendCloseNotify
  deriving DecidableEq, Repr

section Engine

variable {σ : Type} (E : Duplex σ)

def WriteOp.apply (conn : σ) : WriteOp → σ
  | .writeTls => (E.writeTls conn).2.2
  | .write buf => (E.write conn buf).2
  | .sendCloseNotify => E.sendCloseNotify conn

def wrote (conn : σ) (ops : List WriteOp) : σ := ops.foldl (WriteOp.apply E) conn

/-- What is promised of an engine: the ciphertext it has taken, how much of that it has processed, the plaintext it
holds, and what ciphertext opens to. -/
structure Promises where
  taken : σ → Bytes
  processed : σ → Bytes
  plain : σ → Bytes
  opened : Bytes → Bytes
  opened_mono : ∀ c d, opened c <+: opened (c ++ d)
  took : ∀ conn buf n, (E.readTls conn buf).1 = .took n → taken (E.readTls conn buf).2 = taken conn ++ buf.take n
  not_took : ∀ conn buf, (∀ n, (E.readTls conn buf).1 ≠ .took n) → taken (E.readTls conn buf).2 = taken conn
  took_only : ∀ conn buf, processed (E.readTls conn buf).2 = processed conn ∧ plain (E.readTls conn buf).2 = plain conn
  /-- Records are opened in order, up to the first that is refused. -/
  opens : ∀ conn, taken (E.processNewPackets conn).2 = taken conn ∧
    processed (E.processNewPackets conn).2 = taken conn ∧ ∃ more,
      plain (E.processNewPackets conn).2 = plain conn ++ more ∧ opened (taken conn) = opened (processed conn) ++ more
  reads : ∀ conn n out, (E.reader conn n).1 = .ok out → plain conn = out ++ plain (E.reader conn n).2
  /-- Nothing is read only if there is nothing. -/
  runs_dry : ∀ conn n, 0 < n → (∀ out, (E.reader conn n).1 = .ok out → out = []) →
    plain conn = [] ∧ plain (E.reader conn n).2 = []
  reads_only : ∀ conn n, taken (E.reader conn n).2 = taken conn ∧ processed (E.reader conn n).2 = processed conn
  /-- The two directions are independent. -/
  writes : ∀ conn op, taken (WriteOp.apply E conn op) = taken conn ∧
    processed (WriteOp.apply E conn op) = processed conn ∧ plain (WriteOp.apply E conn op) = plain conn

end Engine

/-! ## The code -/

/-- `CHUNK` -/
def chunk : ℕ := 16 * 1024 + 512

/-- What becomes of one `read` of the inner transport into the scratch buffer. -/
inductive InnerRead where
  | ok (data : Bytes) (fits : data.length ≤ chunk)
  | err (kind : ErrorKind)
  | dropped

/-- What becomes of waiting for the engine's lock: it is had after the write half's use of the engine, or the read is
dropped. -/
inductive ReadLock where
  | had (ops : List WriteOp)
  | dropped

/-- The incoming side: of `TlsSession`, and after a split of `TlsReadHalf` with its `TlsShared`. -/
structure Incoming (σ : Type) where
  conn : σ
  rx : Bytes
  eof : Bool
  failed : Option RustlsError
  reads : List InnerRead
  locks : List ReadLock
  /-- All the inner transport has delivered. -/
  received : Bytes
  /-- All that reads have returned. -/
  returned : Bytes
  /-- What had been returned and received each time a read went to wait for the inner transport. -/
  waited : List (Bytes × Bytes)

abbrev ReadM (σ α : Type) : Type := StopM (Incoming σ) Stop α

/-- `Plain` -/
inductive Plain where
  | got (out : Bytes)
  | eof
  | blocked
  deriving DecidableEq, Repr

variable {σ : Type} (E : Duplex σ)

/-- The loop of `feed`: the engine and what is left of `rx`. -/
def feedLoop : ℕ → σ → Bytes → Except RustlsError Unit × σ × Bytes
  | 0, conn, rx => (.ok (), conn, rx)
  | rounds + 1, conn, rx =>
    if rx = [] then (.ok (), conn, rx)
    else
      let (r, conn) := E.readTls conn rx
      match r with
      | .took n =>
        if n = 0 then (.ok (), conn, rx)
        else
          let (r, conn) := E.processNewPackets conn
          match r with
          | .ok () => feedLoop rounds conn (rx.drop n)
          | .error e => (.error e, conn, rx.drop n)
      | .full => (.ok (), conn, rx)
      | .err message => (.error (.general message), conn, rx)

/-- `advance`, and its counterpart in the read half: `feed`, with the first error kept. -/
def advance : ReadM σ (Except RustlsError ℕ) := fun s =>
  let (r, conn, rx) := feedLoop E s.rx.length s.conn s.rx
  match r with
  | .ok () => (.ok (.ok (s.rx.length - rx.length)), { s with conn, rx })
  | .error e => (.ok (.error e), { s with conn, rx, failed := s.failed.or (some e) })

def takePlaintext (n : ℕ) : ReadM σ Plain := fun s =>
  let (r, conn) := E.reader s.conn n
  match r with
  | .ok out => (.ok (if out = [] then .eof else .got out), { s with conn, returned := s.returned ++ out })
  | .wouldBlock => (.ok .blocked, { s with conn })
  | .err => (.ok .eof, { s with conn })

/-- `Inbound::fill` -/
def fill : ReadM σ Unit := fun s =>
  let s := { s with waited := s.waited ++ [(s.returned, s.received)] }
  match s.reads with
  | [] => (.error .dropped, s)
  | r :: reads =>
    let s := { s with reads }
    match r with
    | .ok data _ =>
      if data = [] then (.ok (), { s with eof := true })
      else (.ok (), { s with rx := s.rx ++ data, received := s.received ++ data })
    | .err kind => (.error (.failed (.io kind)), s)
    | .dropped => (.error .dropped, s)

/-- `shared.conn.lock()` -/
def lock : ReadM σ Unit := fun s =>
  match s.locks with
  | [] => (.error .dropped, s)
  | l :: locks =>
    match l with
    | .had ops => (.ok (), { s with locks, conn := wrote E s.conn ops })
    | .dropped => (.error .dropped, { s with locks })

/-- The loop of `read`, with what it does before it uses the engine. -/
def readLoop (reach : ReadM σ Unit) (n : ℕ) : ℕ → ReadM σ Bytes
  | 0 => stop .dropped
  | rounds + 1 => do
    reach
    match ← takePlaintext E n with
    | .got out => pure out
    | .eof => pure []
    | .blocked => do
      let s ← look
      match s.failed with
      | some e => stop (.failed (.tls e))
      | none =>
        if s.rx ≠ [] then do
          reach
          match ← advance E with
          | .ok 0 => pure []
          | _ => readLoop reach n rounds
        else if s.eof then pure []
        else do
          fill
          readLoop reach n rounds

def InnerRead.size : InnerRead → ℕ
  | .ok data _ => data.length + 1
  | _ => 1

/-- More rounds than a read can make: each feeds the engine, finds it at fault, or uses up a read of the inner
transport. -/
def Incoming.rounds (s : Incoming σ) : ℕ := s.rx.length + (s.reads.map InnerRead.size).sum + 2

/-- `read` for a buffer of `n` bytes: of the session, or of the read half. -/
def read (split : Bool) (n : ℕ) : ReadM σ Bytes := fun s =>
  if n = 0 then (.ok [], s) else readLoop E (if split then lock E else pure ()) n s.rounds s

/-! ### The loops have rounds enough -/

theorem feedLoop_enough {rounds : ℕ} {conn : σ} {rx : Bytes} (h : rx.length ≤ rounds) :
    feedLoop E (rounds + 1) conn rx = feedLoop E rounds conn rx := by
  induction rounds generalizing conn rx with
  | zero =>
    have hrx : rx = [] := List.length_eq_zero_iff.mp (Nat.le_zero.mp h)
    simp [feedLoop, hrx]
  | succ rounds ih =>
    rw [feedLoop]
    conv_rhs => rw [feedLoop]
    by_cases hrx : rx = []
    · rw [if_pos hrx, if_pos hrx]
    rw [if_neg hrx, if_neg hrx]
    rcases E.readTls conn rx with ⟨r, conn1⟩
    cases r with
    | took n =>
      by_cases hn : n = 0
      · simp only [if_pos hn]
      · have hless : (rx.drop n).length ≤ rounds := by
          have hpos := List.length_pos_iff.mpr hrx
          rw [List.length_drop]
          omega
        rcases hproc : E.processNewPackets conn1 with ⟨r, conn2⟩
        cases r with
        | ok => simpa only [if_neg hn, hproc] using ih hless
        | error e => simp only [if_neg hn, hproc]
    | full => rfl
    | err message => rfl

/-- What happens to the incoming side: a read with what it meets, or the session's own use of the engine for writing. -/
inductive ReadEvent where
  | read (split : Bool) (n : ℕ) (reads : List InnerRead) (locks : List ReadLock)
  | write (ops : List WriteOp)

def Incoming.after (s : Incoming σ) : ReadEvent → Incoming σ
  | .read split n reads locks => (read E split n { s with reads, locks }).2
  | .write ops => { s with conn := wrote E s.conn ops }

def Incoming.run (s : Incoming σ) (es : List ReadEvent) : Incoming σ := es.foldl (Incoming.after E) s

/-! ## The invariant -/

section Invariant

variable {E} (P : Promises E)

/-- What is received is with the engine or in `rx`, and what it opens to is returned or with the engine. -/
structure Faithful (s : Incoming σ) : Prop where
  received : s.received = P.taken s.conn ++ s.rx
  processed : P.processed s.conn = P.taken s.conn
  returned : s.returned ++ P.plain s.conn = P.opened (P.taken s.conn)
  /-- No read waits for the inner transport while there is something to return. -/
  waited : ∀ w ∈ s.waited, w.1 = P.opened w.2

/-- An error stays, and after it nothing is taken off the inner transport. -/
def Stuck (s t : Incoming σ) : Prop := ∀ e, s.failed = some e → t.failed = some e ∧ t.received = s.received

/-- A piece that leaves all but the engine alone. -/
structure Reached (s t : Incoming σ) : Prop where
  faithful : Faithful P s → Faithful P t
  plain : P.plain t.conn = P.plain s.conn
  failed : t.failed = s.failed
  received : t.received = s.received
  rx : t.rx = s.rx

variable {P} {s t u : Incoming σ}

theorem Stuck.refl (s : Incoming σ) : Stuck s s := fun _ h => ⟨h, rfl⟩

theorem Stuck.same (hf : t.failed = s.failed) (hr : t.received = s.received) : Stuck s t := fun _ h => ⟨hf.trans h, hr⟩

theorem Stuck.of_none (h : s.failed = none) : Stuck s t := fun e he => by cases h.symm.trans he

theorem Stuck.trans (h : Stuck s t) (h' : Stuck t u) : Stuck s u := fun e he =>
  ⟨(h' e (h e he).1).1, ((h' e (h e he).1).2).trans (h e he).2⟩

theorem Stuck.failed_none (h : Stuck s t) (ht : t.failed = none) : s.failed = none := by
  cases hs : s.failed with
  | none => rfl
  | some e => cases (h e hs).1.symm.trans ht

theorem wrote_view (P : Promises E) (conn : σ) (ops : List WriteOp) :
    P.taken (wrote E conn ops) = P.taken conn ∧ P.processed (wrote E conn ops) = P.processed conn ∧
      P.plain (wrote E conn ops) = P.plain conn := by
  induction ops generalizing conn with
  | nil => exact ⟨rfl, rfl, rfl⟩
  | cons op ops ih =>
    obtain ⟨htaken, hprocessed, hplain⟩ := P.writes conn op
    obtain ⟨htaken', hprocessed', hplain'⟩ := ih (WriteOp.apply E conn op)
    exact ⟨htaken'.trans htaken, hprocessed'.trans hprocessed, hplain'.trans hplain⟩

theorem Faithful.write (h : Faithful P s) (ops : List WriteOp) : Faithful P { s with conn := wrote E s.conn ops } := by
  obtain ⟨htaken, hprocessed, hplain⟩ := wrote_view P s.conn ops
  exact ⟨by rw [htaken]; exact h.received, by rw [hprocessed, htaken, h.processed],
    by rw [hplain, htaken]; exact h.returned, h.waited⟩

/-! ### The pieces of a read -/

theorem reach_spec (split : Bool) (s : Incoming σ) :
    Ends (if split then lock E else pure ()) s (fun _ t => Reached P s t)
      (fun k t => Reached P s t ∧ k = .dropped) := by
  have hrefl : Reached P s s := ⟨id, rfl, rfl, rfl, rfl⟩
  cases split with
  | false => exact .pure hrefl
  | true =>
    rw [if_pos rfl]
    cases hlocks : s.locks with
    | nil => exact .of_error (by rw [lock, hlocks]) ⟨hrefl, rfl⟩
    | cons l locks =>
      cases l with
      | had ops =>
        have hrun : lock E s = (.ok (), { s with locks, conn := wrote E s.conn ops }) := by simp only [lock, hlocks]
        refine .of_ok hrun ⟨fun h => ?_, (wrote_view P s.conn ops).2.2, rfl, rfl, rfl⟩
        exact ⟨(h.write ops).received, (h.write ops).processed, (h.write ops).returned, h.waited⟩
      | dropped =>
        have hrun : lock E s = (.error .dropped, { s with locks }) := by simp only [lock, hlocks]
        exact .of_error hrun ⟨⟨fun h => ⟨h.received, h.processed, h.returned, h.waited⟩, rfl, rfl, rfl, rfl⟩, rfl⟩

/-- What a look at the engine gives: something, or there is nothing. -/
theorem takePlaintext_spec (h : Faithful P s) {n : ℕ} (hn : 0 < n) :
    Ends (takePlaintext E n) s (fun r t => Faithful P t ∧ t.failed = s.failed ∧ t.received = s.received ∧
      (∀ out, r = .got out → out ≠ []) ∧ ((∀ out, r ≠ .got out) → P.plain t.conn = [])) (fun _ _ => False) := by
  obtain ⟨htaken, hprocessed⟩ := P.reads_only s.conn n
  have hread := P.reads s.conn n
  have hdry := P.runs_dry s.conn n hn
  rcases hrun : E.reader s.conn n with ⟨r, conn⟩
  rw [hrun] at htaken hprocessed hread hdry
  dsimp only at htaken hprocessed hread hdry
  have hkeeps : ∀ out, P.plain s.conn = out ++ P.plain conn →
      Faithful P { s with conn, returned := s.returned ++ out } := fun out hout =>
    ⟨by rw [htaken]; exact h.received, by rw [hprocessed, htaken, h.processed],
      by rw [htaken, ← h.returned, hout, List.append_assoc], h.waited⟩
  -- nothing read: the engine holds nothing, before and after
  have hnone : (∀ out, r = .ok out → out = []) → Faithful P { s with conn } ∧ P.plain conn = [] := by
    intro hempty
    obtain ⟨hbefore, hafter⟩ := hdry hempty
    have hkept := hkeeps [] (by rw [hbefore, hafter]; rfl)
    exact ⟨⟨hkept.received, hkept.processed, by simpa using hkept.returned, h.waited⟩, hafter⟩
  cases r with
  | ok out =>
    by_cases hout : out = []
    · subst hout
      obtain ⟨hkept, hplain⟩ := hnone fun out heq => by cases heq; rfl
      refine .of_ok (by rw [takePlaintext, hrun]) ⟨hkeeps [] (hread [] rfl), rfl, rfl, ?_, fun _ => hplain⟩
      exact fun out heq => by cases heq
    · refine .of_ok (by rw [takePlaintext, hrun]) ⟨hkeeps out (hread out rfl), rfl, rfl, ?_, ?_⟩
      · intro out' heq
        rw [if_neg hout] at heq
        cases heq
        exact hout
      · exact fun hno => absurd (if_neg hout) (hno out)
  | wouldBlock | err =>
    obtain ⟨hkept, hplain⟩ := hnone fun out heq => by cases heq
    exact .of_ok (by rw [takePlaintext, hrun]) ⟨hkept, rfl, rfl, fun out heq => (by cases heq), fun _ => hplain⟩

/-- The engine has been fed: bytes moved from `rx` to it, and what they open to is with it. -/
structure Fed (P : Promises E) (conn : σ) (rx : Bytes) (conn' : σ) (rx' : Bytes) : Prop where
  moved : P.taken conn' ++ rx' = P.taken conn ++ rx
  left : rx' <:+ rx
  processed : P.processed conn' = P.taken conn'
  opened : ∃ more, P.plain conn' = P.plain conn ++ more ∧ P.opened (P.taken conn') = P.opened (P.taken conn) ++ more

theorem Fed.trans {conn conn' conn'' : σ} {rx rx' rx'' : Bytes} (h : Fed P conn rx conn' rx')
    (h' : Fed P conn' rx' conn'' rx'') : Fed P conn rx conn'' rx'' := by
  obtain ⟨more, hplain, hopened⟩ := h.opened
  obtain ⟨more', hplain', hopened'⟩ := h'.opened
  refine ⟨h'.moved.trans h.moved, h'.left.trans h.left, h'.processed, more ++ more', ?_, ?_⟩
  · rw [hplain', hplain, List.append_assoc]
  · rw [hopened', hopened, List.append_assoc]

/-- The engine took nothing. -/
theorem Fed.idle {conn conn' : σ} (rx : Bytes) (hp : P.processed conn = P.taken conn)
    (ht : P.taken conn' = P.taken conn) (hp' : P.processed conn' = P.processed conn)
    (hplain : P.plain conn' = P.plain conn) : Fed P conn rx conn' rx :=
  ⟨by rw [ht], List.suffix_rfl, by rw [hp', hp, ht], [], by rw [hplain, List.append_nil], by rw [ht, List.append_nil]⟩

/-- One round: the engine takes a piece and processes it. -/
theorem Fed.round {conn conn1 : σ} {rx : Bytes} {n : ℕ} (hp : P.processed conn = P.taken conn)
    (hread : E.readTls conn rx = (.took n, conn1)) : Fed P conn rx (E.processNewPackets conn1).2 (rx.drop n) := by
  have htook := P.took conn rx n (by rw [hread])
  obtain ⟨hprocessed, hplain⟩ := P.took_only conn rx
  rw [hread] at htook hprocessed hplain
  dsimp only at htook hprocessed hplain
  obtain ⟨htaken, hdone, more, hmore, hopened⟩ := P.opens conn1
  refine ⟨?_, List.drop_suffix n rx, hdone.trans htaken.symm, more, by rw [hmore, hplain], ?_⟩
  · rw [htaken, htook, List.append_assoc, List.take_append_drop]
  · rw [htaken, hopened, hprocessed, hp]

theorem feedLoop_fed (rounds : ℕ) (conn : σ) (rx : Bytes) (hp : P.processed conn = P.taken conn) :
    Fed P conn rx (feedLoop E rounds conn rx).2.1 (feedLoop E rounds conn rx).2.2 := by
  induction rounds generalizing conn rx with
  | zero => exact .idle rx hp rfl rfl rfl
  | succ rounds ih =>
    rw [feedLoop]
    by_cases hrx : rx = []
    · rw [if_pos hrx]
      exact .idle rx hp rfl rfl rfl
    rw [if_neg hrx]
    rcases hread : E.readTls conn rx with ⟨r, conn1⟩
    have hnot := P.not_took conn rx
    obtain ⟨hprocessed, hplain⟩ := P.took_only conn rx
    rw [hread] at hnot hprocessed hplain
    dsimp only at hnot hprocessed hplain ⊢
    cases r with
    | took n =>
      by_cases hn : n = 0
      · subst hn
        have htook := P.took conn rx 0 (by rw [hread])
        rw [hread, List.take_zero, List.append_nil] at htook
        exact .idle rx hp htook hprocessed hplain
      · have hround := Fed.round hp hread
        rcases hproc : E.processNewPackets conn1 with ⟨r, conn2⟩
        rw [hproc] at hround
        cases r with
        | ok => simpa [hn, hproc] using hround.trans (ih conn2 (rx.drop n) hround.processed)
        | error e => simpa [hn, hproc] using hround
    | full | err message => exact .idle rx hp (hnot fun n heq => by cases heq) hprocessed hplain

theorem Faithful.fed (h : Faithful P s) {conn : σ} {rx : Bytes} (hfed : Fed P s.conn s.rx conn rx)
    (failed : Option RustlsError) : Faithful P { s with conn, rx, failed } := by
  obtain ⟨more, hplain, hopened⟩ := hfed.opened
  refine ⟨h.received.trans hfed.moved.symm, hfed.processed, ?_, h.waited⟩
  rw [hplain, hopened, ← h.returned, List.append_assoc]

/-- A feed that took nothing opened nothing. -/
theorem Fed.plain_eq {conn conn' : σ} {rx rx' : Bytes} (h : Fed P conn rx conn' rx') (hlen : rx.length ≤ rx'.length) :
    P.plain conn' = P.plain conn := by
  obtain ⟨more, hplain, hopened⟩ := h.opened
  have hrx : rx' = rx := h.left.eq_of_length_le hlen
  have htaken : P.taken conn' = P.taken conn := List.append_cancel_right (hrx ▸ h.moved)
  have hmore : more = [] := by simpa [htaken] using hopened
  rw [hplain, hmore, List.append_nil]

theorem advance_spec (h : Faithful P s) (hfailed : s.failed = none) :
    Ends (advance E) s (fun r t => Faithful P t ∧ (r = .ok 0 → P.plain t.conn = P.plain s.conn) ∧ Stuck s t)
      (fun _ _ => False) := by
  have hfed := feedLoop_fed (P := P) s.rx.length s.conn s.rx h.processed
  rcases hrun : feedLoop E s.rx.length s.conn s.rx with ⟨r, conn, rx⟩
  rw [hrun] at hfed
  dsimp only at hfed
  cases r with
  | ok =>
    have hadvance : advance E s = (.ok (.ok (s.rx.length - rx.length)), { s with conn, rx }) := by
      simp only [advance, hrun]
    refine .of_ok hadvance ⟨h.fed hfed s.failed, fun hzero => hfed.plain_eq ?_, .of_none hfailed⟩
    have hsub : s.rx.length - rx.length = 0 := by simpa using hzero
    omega
  | error e =>
    have hadvance : advance E s = (.ok (.error e), { s with conn, rx, failed := s.failed.or (some e) }) := by
      simp only [advance, hrun]
    exact .of_ok hadvance ⟨h.fed hfed _, fun heq => (by cases heq), .of_none hfailed⟩

/-- `fill` is reached with nothing to feed and nothing to return. -/
theorem fill_spec (h : Faithful P s) (hfailed : s.failed = none) (hrx : s.rx = []) (hplain : P.plain s.conn = []) :
    Ends (fill : ReadM σ Unit) s (fun _ t => Faithful P t ∧ Stuck s t)
      (fun k t => Faithful P t ∧ ∀ e, k ≠ .failed (.tls e)) := by
  have hwait : Faithful P { s with waited := s.waited ++ [(s.returned, s.received)] } := by
    refine ⟨h.received, h.processed, h.returned, fun w hw => ?_⟩
    rcases List.mem_append.mp hw with hw | hw
    · exact h.waited w hw
    · cases List.mem_singleton.mp hw
      show s.returned = P.opened s.received
      rw [h.received, hrx, List.append_nil, ← h.returned, hplain, List.append_nil]
  cases hreads : s.reads with
  | nil =>
    refine .of_error (by rw [fill, hreads]) ⟨hwait, fun e heq => by cases heq⟩
  | cons r reads =>
    have hnext : Faithful P { s with waited := s.waited ++ [(s.returned, s.received)], reads } :=
      ⟨hwait.received, hwait.processed, hwait.returned, hwait.waited⟩
    cases r with
    | ok data fits =>
      by_cases hdata : data = []
      · have hrun : fill s = (.ok (), { s with
            waited := s.waited ++ [(s.returned, s.received)], reads, eof := true }) := by
          simp only [fill, hreads, if_pos hdata]
        exact .of_ok hrun ⟨⟨hwait.received, hwait.processed, hwait.returned, hwait.waited⟩, .of_none hfailed⟩
      · have hrun : fill s = (.ok (), { s with
            waited := s.waited ++ [(s.returned, s.received)], reads, rx := s.rx ++ data
            received := s.received ++ data }) := by
          simp only [fill, hreads, if_neg hdata]
        refine .of_ok hrun ⟨⟨?_, hwait.processed, hwait.returned, hwait.waited⟩, .of_none hfailed⟩
        rw [h.received, List.append_assoc]
    | err kind =>
      have hrun : fill s = (.error (.failed (.io kind)), { s with
          waited := s.waited ++ [(s.returned, s.received)], reads }) := by simp only [fill, hreads]
      exact .of_error hrun ⟨hnext, fun e heq => by cases heq⟩
    | dropped =>
      have hrun : fill s = (.error .dropped, { s with waited := s.waited ++ [(s.returned, s.received)], reads }) := by
        simp only [fill, hreads]
      exact .of_error hrun ⟨hnext, fun e heq => by cases heq⟩

/-! ### A whole read -/

/-- How a read that returns leaves the incoming side. -/
structure Returned (P : Promises E) (s : Incoming σ) (out : Bytes) (t : Incoming σ) : Prop where
  faithful : Faithful P t
  stuck : Stuck s t
  /-- End of stream is said only when there is nothing left. -/
  dry : out = [] → P.plain t.conn = []

/-- How a read that stops leaves it. -/
structure Stopped (P : Promises E) (s : Incoming σ) (k : Stop) (t : Incoming σ) : Prop where
  faithful : Faithful P t
  stuck : Stuck s t
  /-- The engine's error is said only when there is nothing left. -/
  dry : ∀ e, k = .failed (.tls e) → t.failed = some e ∧ P.plain t.conn = []
  /-- Any other error comes from the inner transport, of an engine that has not failed. -/
  other : ∀ e, k = .failed e → (∀ re, e ≠ .tls re) → s.failed = none

/-- What holds of the rest of a read holds of the read. -/
theorem ends_after {m : ReadM σ Bytes} (hstuck : Stuck s t) (h : Ends m t (Returned P t) (Stopped P t)) :
    Ends m t (Returned P s) (Stopped P s) := by
  refine ⟨fun out u hu => ?_, fun k u hu => ?_⟩
  · have hret := h.returned out u hu
    exact ⟨hret.faithful, hstuck.trans hret.stuck, hret.dry⟩
  · have hstop := h.stopped k u hu
    exact ⟨hstop.faithful, hstuck.trans hstop.stuck, hstop.dry, fun e he hre => hstuck.failed_none (hstop.other e he hre)⟩

/-- A drop says nothing. -/
theorem Stopped.drop (h : Faithful P t) (hstuck : Stuck s t) : Stopped P s .dropped t :=
  ⟨h, hstuck, fun e heq => (by cases heq), fun e heq => (by cases heq)⟩

theorem readLoop_spec (split : Bool) {n : ℕ} (hn : 0 < n) (rounds : ℕ) (s : Incoming σ) (h : Faithful P s) :
    Ends (readLoop E (if split then lock E else pure ()) n rounds) s (Returned P s) (Stopped P s) := by
  induction rounds generalizing s with
  | zero => exact .stop (.drop h (.refl s))
  | succ rounds ih =>
    have hreach : ∀ s t : Incoming σ, Reached P s t → Stuck s t := fun s t hr => .same hr.failed hr.received
    rw [readLoop]
    refine (reach_spec split s).bind (fun _ s1 h1 => ?_)
      (fun k t hk => hk.2 ▸ .drop (hk.1.faithful h) (hreach s t hk.1))
    refine (takePlaintext_spec (h1.faithful h) hn).bind (fun r s2 h2 => ?_) (fun _ _ hno => hno.elim)
    obtain ⟨hf2, hfailed2, hreceived2, hgot, hdry⟩ := h2
    have hstuck2 : Stuck s s2 := (hreach s s1 h1).trans (.same hfailed2 hreceived2)
    cases r with
    | got out => exact .pure ⟨hf2, hstuck2, fun heq => absurd heq (hgot out rfl)⟩
    | eof => exact .pure ⟨hf2, hstuck2, fun _ => hdry fun out heq => by cases heq⟩
    | blocked =>
      have hplain2 : P.plain s2.conn = [] := hdry fun out heq => by cases heq
      refine .look_bind ?_
      cases hfailed : s2.failed with
      | some e =>
        refine .stop ⟨hf2, hstuck2, fun e' heq => ?_, fun e' heq hother => ?_⟩
        · cases heq
          exact ⟨hfailed, hplain2⟩
        · cases heq
          exact absurd rfl (hother e)
      | none =>
        by_cases hrx : s2.rx = []
        · rw [if_neg (not_not.mpr hrx)]
          cases heof : s2.eof with
          | true => exact .pure ⟨hf2, hstuck2, fun _ => hplain2⟩
          | false =>
            refine (fill_spec hf2 hfailed hrx hplain2).bind (fun _ s3 h3 => ?_) (fun k t hk => ?_)
            · exact ends_after (hstuck2.trans h3.2) (ih s3 h3.1)
            · exact ⟨hk.1, hstuck2.trans (.of_none hfailed), fun e heq => absurd heq (hk.2 e),
                fun _ _ _ => hstuck2.failed_none hfailed⟩
        · rw [if_pos hrx]
          refine (reach_spec split s2).bind (fun _ s3 h3 => ?_)
            (fun k t hk => hk.2 ▸ .drop (hk.1.faithful hf2) (hstuck2.trans (hreach s2 t hk.1)))
          have hfailed3 : s3.failed = none := h3.failed.trans hfailed
          refine (advance_spec (h3.faithful hf2) hfailed3).bind (fun r s4 h4 => ?_) (fun _ _ hno => hno.elim)
          obtain ⟨hf4, hzero, hstuck4⟩ := h4
          have hstuck : Stuck s s4 := (hstuck2.trans (hreach s2 s3 h3)).trans hstuck4
          split
          · refine .pure ⟨hf4, hstuck, fun _ => ?_⟩
            rw [hzero rfl, h3.plain, hplain2]
          · exact ends_after hstuck (ih s4 hf4)

theorem read_spec (h : Faithful P s) (split : Bool) {n : ℕ} (hn : 0 < n) :
    Ends (read E split n) s (Returned P s) (Stopped P s) := by
  have hloop := readLoop_spec split hn s.rounds s h
  have hread : read E split n s = readLoop E (if split then lock E else pure ()) n s.rounds s := by
    simp only [read, if_neg (Nat.ne_of_gt hn)]
  exact ⟨fun out t ht => hloop.returned out t (hread ▸ ht), fun k t ht => hloop.stopped k t (hread ▸ ht)⟩

theorem Faithful.after (h : Faithful P s) (e : ReadEvent) : Faithful P (s.after E e) := by
  cases e with
  | write ops => exact h.write ops
  | read split n reads locks =>
    have hstart : Faithful P { s with reads, locks } := ⟨h.received, h.processed, h.returned, h.waited⟩
    rcases Nat.eq_zero_or_pos n with rfl | hn
    · exact hstart
    · have hread := read_spec hstart split hn
      show Faithful P (read E split n { s with reads, locks }).2
      rcases hrun : read E split n { s with reads, locks } with ⟨k | out, t⟩
      · exact (hread.stopped k t hrun).faithful
      · exact (hread.returned out t hrun).faithful

theorem Faithful.run (h : Faithful P s) (es : List ReadEvent) : Faithful P (s.run E es) := by
  induction es generalizing s with
  | nil => exact h
  | cons e es ih => exact ih (h.after e)

/-- The session when its handshake is done: the engine may hold plaintext already, and `rx` what it has not taken. -/
def Incoming.start (P : Promises E) (conn : σ) (rx : Bytes) : Incoming σ where
  conn := conn
  rx := rx
  eof := false
  failed := none
  reads := []
  locks := []
  received := P.taken conn ++ rx
  returned := []
  waited := []

/-- Nothing of what opens is still to be returned. -/
theorem Faithful.dry (h : Faithful P s) (hplain : P.plain s.conn = []) : s.returned = P.opened (P.taken s.conn) := by
  rw [← h.returned, hplain, List.append_nil]

end Invariant

/-! ## A small engine -/

/-- Ciphertext that is processed and not, and plaintext.  A record is a byte, and 0 is refused. -/
structure Echo where
  done : Bytes
  fresh : Bytes
  plain : Bytes
  deriving DecidableEq, Repr

def Echo.opened (c : Bytes) : Bytes := c.takeWhile (· ≠ 0)

/-- It takes two bytes at a time. -/
def echoEngine : Duplex Echo where
  isHandshaking _ := false
  wantsWrite _ := false
  writeTls conn := ([], true, conn)
  write conn buf := (some buf.length, conn)
  sendCloseNotify conn := conn
  backlog _ := 0
  backlog_lt _ h := by cases h
  readTls conn buf := (.took (min 2 buf.length), { conn with fresh := conn.fresh ++ buf.take (min 2 buf.length) })
  processNewPackets conn :=
    (if 0 ∈ conn.done ++ conn.fresh then .error (.general "bad record") else .ok (),
      ⟨conn.done ++ conn.fresh, [],
        conn.plain ++ (Echo.opened (conn.done ++ conn.fresh)).drop (Echo.opened conn.done).length⟩)
  reader conn n :=
    if conn.plain = [] then (.wouldBlock, conn) else (.ok (conn.plain.take n), { conn with plain := conn.plain.drop n })

theorem Echo.opened_append (c d : Bytes) : opened c <+: opened (c ++ d) := by
  induction c with
  | nil => exact List.nil_prefix
  | cons b c ih =>
    simp only [opened, List.cons_append, List.takeWhile_cons]
    split_ifs
    · exact (List.prefix_cons_inj b).mpr ih
    · exact List.prefix_rfl

def echoPromises : Promises echoEngine where
  taken conn := conn.done ++ conn.fresh
  processed := Echo.done
  plain := Echo.plain
  opened := Echo.opened
  opened_mono := Echo.opened_append
  took conn buf n h := by
    cases h
    exact (List.append_assoc _ _ _).symm
  not_took conn buf h := absurd rfl (h _)
  took_only _ _ := ⟨rfl, rfl⟩
  opens conn := by
    refine ⟨List.append_nil _, rfl, _, rfl, ?_⟩
    obtain ⟨more, hmore⟩ := Echo.opened_append conn.done conn.fresh
    rw [← hmore, List.drop_left]
  reads conn n out h := by
    by_cases hplain : conn.plain = []
    · simp [echoEngine, hplain] at h
    · simp only [echoEngine, if_neg hplain] at h ⊢
      cases h
      exact (List.take_append_drop _ _).symm
  runs_dry conn n hn h := by
    by_cases hplain : conn.plain = []
    · simp [echoEngine, hplain]
    · simp only [echoEngine, if_neg hplain] at h
      have htake : conn.plain.take n = [] := h _ rfl
      exact absurd (List.take_eq_nil_iff.mp htake) (by simp [hplain]; omega)
  reads_only conn n := by
    by_cases hplain : conn.plain = [] <;> simp [echoEngine, hplain]
  writes conn op := by cases op <;> exact ⟨rfl, rfl, rfl⟩

/-- Four bytes come in, the third of them bad: a read is dropped waiting, one returns a byte, the session is split and
another returns the second. -/
def refused : Incoming Echo :=
  (Incoming.start echoPromises ⟨[], [], []⟩ []).run echoEngine
    [.read false 1 [.dropped] [], .read false 1 [.ok [1, 2, 0, 4] (by decide)] [], .write [.sendCloseNotify],
      .read true 5 [] [.had [.writeTls]]]

end LibAdb.Tls
