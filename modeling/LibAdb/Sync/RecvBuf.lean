import LibAdb.Base.Codec
import LibAdb.Lib.Slices

/-!
# LibAdb.Sync.RecvBuf — a caller's buffer in front of a channel

`base/recv_buf.rs`, with the channel behind it: the bytes it has still to deliver and how it cuts them.  A read into a
window gives the next bytes, as many as its cut says, as the window holds and as there are; a channel with no cuts left
gives all it can.

What the session sees is `pending`, the unread bytes of the buffer and what the channel will deliver after them.
`Sees s cap k p` says that `p` is pending, `k` bytes of it at least in the buffer, and `Runs` that a piece of code ends
in such a state.  There is one rule for each operation of the buffer.
-/

namespace LibAdb

open Slices

/-- `RecvBuf` -/
structure RecvBuf where
  buf : Bytes
  head : ℕ
  tail : ℕ
  deriving DecidableEq, Repr

namespace RecvBuf

def capacity (rx : RecvBuf) : ℕ := rx.buf.length

/-- The bytes between the cursors. -/
def unread (rx : RecvBuf) : Bytes := slice rx.buf rx.head rx.tail

def peek (rx : RecvBuf) (n : ℕ) : Bytes := rx.unread.take n

/-- `advance`, and `take` without its result. -/
def advance (rx : RecvBuf) (n : ℕ) : RecvBuf := { rx with head := rx.head + (rx.peek n).length }

def compact (rx : RecvBuf) : RecvBuf :=
  if 0 < rx.head then ⟨copyWithin rx.buf rx.head rx.tail 0, 0, rx.tail - rx.head⟩ else rx

end RecvBuf

/-- A buffer and its channel. -/
structure SyncSession where
  rx : RecvBuf
  stream : Bytes
  cuts : List ℕ
  /-- What becomes of the next writes. -/
  faults : List (Option Error)
  /-- What was written to the channel. -/
  written : List Bytes
  deriving DecidableEq, Repr

/-- A piece of a call. -/
def SyncM (α : Type) : Type := SyncSession → Except Error α × SyncSession

namespace SyncM

variable {α β : Type}

instance : Monad SyncM where
  pure a := fun s => (.ok a, s)
  bind m f := fun s =>
    match m s with
    | (.ok a, s) => f a s
    | (.error e, s) => (.error e, s)

theorem bind_of_ok {m : SyncM α} {s s1 : SyncSession} {a : α} (h : m s = (.ok a, s1)) (f : α → SyncM β) :
    (m >>= f) s = f a s1 := by
  simp only [Bind.bind, h]

theorem bind_of_error {m : SyncM α} {s s1 : SyncSession} {e : Error} (h : m s = (.error e, s1)) (f : α → SyncM β) :
    (m >>= f) s = (.error e, s1) := by
  simp only [Bind.bind, h]

def fail (e : Error) : SyncM α := fun s => (.error e, s)

def state : SyncM SyncSession := fun s => (.ok s, s)

def compact : SyncM Unit := fun s => (.ok (), { s with rx := s.rx.compact })

def peek (n : ℕ) : SyncM Bytes := fun s => (.ok (s.rx.peek n), s)

def advance (n : ℕ) : SyncM Unit := fun s => (.ok (), { s with rx := s.rx.advance n })

def take (n : ℕ) : SyncM Bytes := fun s => (.ok (s.rx.peek n), { s with rx := s.rx.advance n })

/-- `channel.read(&mut buf[tail..])` -/
def channelRead (s : SyncSession) : SyncSession :=
  let window := s.rx.capacity - s.rx.tail
  let n := min window (s.cuts.headD s.stream.length)
  let bytes := s.stream.take n
  { s with
    rx := ⟨splice s.rx.buf s.rx.tail bytes, s.rx.head, s.rx.tail + bytes.length⟩
    stream := s.stream.drop n
    cuts := s.cuts.tail }

/-- The loop of `fill_at_least`; a channel that has nothing more to deliver has been closed. -/
def fillLoop (n : ℕ) : ℕ → SyncM Unit
  | 0 => fail .channelClosed
  | fuel + 1 => fun s =>
    if n ≤ s.rx.tail - s.rx.head then (.ok (), s)
    else
      let s := if s.rx.capacity ≤ s.rx.tail then { s with rx := s.rx.compact } else s
      if s.rx.capacity ≤ s.rx.tail then (.error .receiveBufferFull, s)
      else if s.stream = [] then (.error .channelClosed, s)
      else fillLoop n fuel (channelRead s)

/-- `fill_at_least`; every read uses up a cut or delivers a byte. -/
def fillAtLeast (n : ℕ) : SyncM Unit := fun s =>
  if s.rx.capacity < n then (.error .receiveBufferFull, s)
  else fillLoop n (s.cuts.length + s.stream.length + 1) s

/-- `channel.write` -/
def channelWrite (bytes : Bytes) : SyncM Unit := fun s =>
  let s' := { s with faults := s.faults.tail, written := s.written ++ [bytes] }
  match s.faults.head?.join with
  | some e => (.error e, s')
  | none => (.ok (), s')

/-- `window[off..off + bytes.len()].copy_from_slice(bytes)` -/
def scribble (off : ℕ) (bytes : Bytes) : SyncM Unit := fun s =>
  (.ok (), { s with rx := { s.rx with buf := splice s.rx.buf (s.rx.tail + off) bytes } })

/-- A check that does not touch the session. -/
def check {α : Type} (r : Except Error α) : SyncM α := fun s => (r, s)

end SyncM

/-! ## What is pending -/

namespace SyncSession

def pending (s : SyncSession) : Bytes := s.rx.unread ++ s.stream

/-- `p` is pending, at least `k` bytes of it in a buffer of `cap`, and writes succeed. -/
structure Sees (s : SyncSession) (cap k : ℕ) (p : Bytes) : Prop where
  within : Within s.rx.buf s.rx.head s.rx.tail
  capacity : s.rx.capacity = cap
  pending : s.pending = p
  enough : k ≤ s.rx.unread.length
  writes : ∀ f ∈ s.faults, f = none

end SyncSession

namespace SyncM

open SyncSession

variable {α β : Type} {cap k k' k'' n : ℕ} {p p' p'' : Bytes} {s : SyncSession}

/-- From any state that sees `p`, the code ends with `r` in one that sees `p'`. -/
def Runs (m : SyncM α) (cap k : ℕ) (p : Bytes) (r : Except Error α) (k' : ℕ) (p' : Bytes) : Prop :=
  ∀ s : SyncSession, s.Sees cap k p → ∃ s', m s = (r, s') ∧ s'.Sees cap k' p'

theorem length_unread (h : Within s.rx.buf s.rx.head s.rx.tail) : s.rx.unread.length = s.rx.tail - s.rx.head :=
  length_slice h.tail_le

namespace Runs

theorem pure (a : α) : Runs (Pure.pure a : SyncM α) cap k p (.ok a) k p := fun s h => ⟨s, rfl, h⟩

theorem fail (e : Error) : Runs (SyncM.fail e : SyncM α) cap k p (.error e) k p := fun s h => ⟨s, rfl, h⟩

theorem bind {m : SyncM α} {f : α → SyncM β} {a : α} {r : Except Error β} (hm : Runs m cap k p (.ok a) k' p')
    (hf : Runs (f a) cap k' p' r k'' p'') : Runs (m >>= f) cap k p r k'' p'' := by
  intro s hs
  obtain ⟨s1, h1, hs1⟩ := hm s hs
  obtain ⟨s2, h2, hs2⟩ := hf s1 hs1
  exact ⟨s2, (bind_of_ok h1 f).trans h2, hs2⟩

theorem bind_error {m : SyncM α} {f : α → SyncM β} {e : Error} (hm : Runs m cap k p (.error e) k' p') :
    Runs (m >>= f) cap k p (.error e) k' p' := by
  intro s hs
  obtain ⟨s1, h1, hs1⟩ := hm s hs
  exact ⟨s1, bind_of_error h1 f, hs1⟩

/-- Fewer bytes are known to be in the buffer. -/
theorem less {m : SyncM α} {r : Except Error α} (hm : Runs m cap k p r k' p') (h : k'' ≤ k') :
    Runs m cap k p r k'' p' := by
  intro s hs
  obtain ⟨s1, h1, hs1⟩ := hm s hs
  exact ⟨s1, h1, { hs1 with enough := h.trans hs1.enough }⟩

theorem from_less {m : SyncM α} {r : Except Error α} (hm : Runs m cap k p r k' p') (h : k ≤ k'') :
    Runs m cap k'' p r k' p' := fun s hs => hm s { hs with enough := h.trans hs.enough }

theorem peek {bytes : Bytes} (h : n ≤ k) (hp : p.take n = bytes) :
    Runs (SyncM.peek n) cap k p (.ok bytes) k p := by
  intro s hs
  refine ⟨s, ?_, hs⟩
  have : s.rx.peek n = p.take n := by
    rw [← hs.pending, SyncSession.pending, List.take_append_of_le_length (h.trans hs.enough)]
    rfl
  rw [SyncM.peek, this, hp]

end Runs

/-- Bytes are consumed. -/
theorem sees_advance (hs : s.Sees cap k p) (h : n ≤ k) :
    SyncSession.Sees { s with rx := s.rx.advance n } cap (k - n) (p.drop n) := by
  have hlen := length_unread hs.within
  have henough := hs.enough
  have hpeek : (s.rx.peek n).length = n := by
    rw [RecvBuf.peek, List.length_take]
    omega
  have h1 := hs.within.head_le
  have hunread : (s.rx.advance n).unread = s.rx.unread.drop n := by
    rw [RecvBuf.unread, RecvBuf.unread, drop_slice]
    show slice s.rx.buf (s.rx.head + (s.rx.peek n).length) s.rx.tail = _
    rw [hpeek]
  refine ⟨⟨?_, hs.within.tail_le⟩, hs.capacity, ?_, ?_, hs.writes⟩
  · show s.rx.head + (s.rx.peek n).length ≤ s.rx.tail
    omega
  · show (s.rx.advance n).unread ++ s.stream = _
    rw [hunread, ← hs.pending, SyncSession.pending, List.drop_append_of_le_length (by omega)]
  · show k - n ≤ (s.rx.advance n).unread.length
    rw [hunread, List.length_drop]
    omega

theorem Runs.advance (h : n ≤ k) (hp : p.drop n = p') : Runs (SyncM.advance n) cap k p (.ok ()) (k - n) p' :=
  fun _ hs => ⟨_, rfl, hp ▸ sees_advance hs h⟩

theorem Runs.take {bytes : Bytes} (h : n ≤ k) (ht : p.take n = bytes) (hp : p.drop n = p') :
    Runs (SyncM.take n) cap k p (.ok bytes) (k - n) p' := by
  intro s hs
  obtain ⟨s1, h1, -⟩ := Runs.peek h ht s hs
  refine ⟨_, ?_, hp ▸ sees_advance hs h⟩
  have hpeek : s.rx.peek n = bytes := by injection congrArg Prod.fst h1
  rw [SyncM.take, hpeek]

/-- Compacting moves the unread bytes, and no others are seen. -/
theorem sees_compact (hs : s.Sees cap k p) : SyncSession.Sees { s with rx := s.rx.compact } cap k p := by
  unfold RecvBuf.compact
  split_ifs with hhead
  · obtain ⟨hwithin, hslice, hlen⟩ := hs.within.compact
    refine ⟨hwithin, hlen.trans hs.capacity, ?_, ?_, hs.writes⟩
    · rw [← hs.pending]
      exact congrArg (· ++ s.stream) hslice
    · have := hs.enough
      rwa [RecvBuf.unread, ← hslice] at this
  · exact hs

theorem Runs.compact : Runs SyncM.compact cap k p (.ok ()) k p := fun _ hs => ⟨_, rfl, sees_compact hs⟩

theorem Runs.channelWrite (bytes : Bytes) : Runs (SyncM.channelWrite bytes) cap k p (.ok ()) k p := by
  intro s hs
  have hok : s.faults.head?.join = none := by
    cases hf : s.faults with
    | nil => rfl
    | cons f fs =>
      have hnone : f = none := hs.writes f (by rw [hf]; exact List.mem_cons_self)
      rw [hnone]
      rfl
  refine ⟨{ s with faults := s.faults.tail, written := s.written ++ [bytes] }, ?_, hs.within, hs.capacity, hs.pending,
    hs.enough, fun f hf => hs.writes f (List.mem_of_mem_tail hf)⟩
  unfold SyncM.channelWrite
  rw [hok]

/-- What is put behind the unread bytes is not seen. -/
theorem sees_scribble {bytes : Bytes} (hs : s.Sees cap k p) (hfit : bytes.length ≤ s.rx.capacity - s.rx.tail) :
    SyncSession.Sees { s with rx := { s.rx with buf := splice s.rx.buf s.rx.tail bytes } } cap k p := by
  have htail := hs.within.tail_le
  have hlen : (splice s.rx.buf s.rx.tail bytes).length = s.rx.buf.length := by
    refine length_splice ?_
    unfold RecvBuf.capacity at hfit
    omega
  have hunread : slice (splice s.rx.buf s.rx.tail bytes) s.rx.head s.rx.tail = s.rx.unread :=
    slice_splice_before le_rfl htail
  refine ⟨⟨hs.within.head_le, by rw [hlen]; exact htail⟩, hlen.trans hs.capacity, ?_, ?_, hs.writes⟩
  · rw [← hs.pending]
    exact congrArg (· ++ s.stream) hunread
  · exact hs.enough.trans_eq (congrArg List.length hunread.symm)

/-! ### Filling -/

/-- A read moves bytes from the channel to the buffer, and nothing is lost. -/
theorem sees_channelRead (hs : s.Sees cap k p) : (channelRead s).Sees cap k p := by
  have hfit : (s.stream.take (min (s.rx.capacity - s.rx.tail) (s.cuts.headD s.stream.length))).length ≤
      s.rx.buf.length - s.rx.tail := by
    rw [List.length_take]
    unfold RecvBuf.capacity
    omega
  obtain ⟨hwithin, hslice, hlen⟩ := hs.within.put hfit
  refine ⟨hwithin, hlen.trans hs.capacity, ?_, ?_, hs.writes⟩
  · refine (congrArg (· ++ s.stream.drop _) hslice).trans ?_
    rw [List.append_assoc, List.take_append_drop]
    exact hs.pending
  · refine le_of_le_of_eq ?_ (congrArg List.length hslice).symm
    rw [List.length_append]
    exact hs.enough.trans (Nat.le_add_right _ _)

/-- A read into a window that is not empty, from a channel that has bytes, uses up a cut or delivers a byte. -/
theorem channelRead_progress (hwindow : s.rx.tail < s.rx.capacity) (hstream : s.stream ≠ []) :
    (channelRead s).cuts.length + (channelRead s).stream.length < s.cuts.length + s.stream.length := by
  have hpos := List.length_pos_iff.mpr hstream
  show s.cuts.tail.length + (s.stream.drop _).length < _
  cases s.cuts with
  | nil =>
    simp only [List.tail_nil, List.headD_nil, List.length_drop, List.length_nil]
    omega
  | cons cut cuts =>
    simp only [List.tail_cons, List.length_drop, List.length_cons]
    omega

/-- A buffer that is full to the end gets room in front of it, as it holds less than `n` bytes. -/
theorem sees_room (hs : s.Sees cap k p) (hn : n ≤ cap) (hmore : ¬ n ≤ s.rx.tail - s.rx.head) :
    ∃ s1 : SyncSession, (if s.rx.capacity ≤ s.rx.tail then { s with rx := s.rx.compact } else s) = s1 ∧
      s1.Sees cap k p ∧ s1.rx.tail < s1.rx.capacity ∧ s1.rx.unread.length < n ∧ s1.stream = s.stream ∧
      s1.cuts = s.cuts := by
  have hunread := length_unread hs.within
  by_cases hfull : s.rx.capacity ≤ s.rx.tail
  · rw [if_pos hfull]
    have hs1 := sees_compact hs
    have hunread1 := length_unread hs1.within
    have hcap := hs.capacity
    have htail := hs.within.tail_le
    have hhead : 0 < s.rx.head := by
      unfold RecvBuf.capacity at hfull hcap
      omega
    have hcompact : s.rx.compact.tail = s.rx.tail - s.rx.head ∧ s.rx.compact.head = 0 := by
      unfold RecvBuf.compact
      rw [if_pos hhead]
      exact ⟨rfl, rfl⟩
    have hcap1 : s.rx.compact.capacity = cap := hs1.capacity
    refine ⟨_, rfl, hs1, ?_, ?_, rfl, rfl⟩
    · dsimp only
      rw [hcap1, hcompact.1]
      omega
    · rw [hunread1]
      dsimp only
      rw [hcompact.1, hcompact.2]
      omega
  · rw [if_neg hfull]
    exact ⟨s, rfl, hs, not_le.mp hfull, by omega, rfl, rfl⟩

/-- The loop ends with the bytes, or with the end of a channel that does not have them. -/
theorem fillLoop_runs {fuel : ℕ} (hn : n ≤ cap) :
    ∀ s : SyncSession, s.Sees cap k p → s.cuts.length + s.stream.length < fuel →
      ∃ s', fillLoop n fuel s = (if n ≤ p.length then .ok () else .error .channelClosed, s') ∧
        s'.Sees cap (if n ≤ p.length then n else 0) p := by
  induction fuel with
  | zero => exact fun _ _ h => absurd h (Nat.not_lt_zero _)
  | succ fuel ih =>
    intro s hs hfuel
    have hunread := length_unread hs.within
    unfold fillLoop
    by_cases hdone : n ≤ s.rx.tail - s.rx.head
    · have hp : n ≤ p.length := by
        rw [← hs.pending, SyncSession.pending, List.length_append]
        omega
      rw [if_pos hdone, if_pos hp, if_pos hp]
      exact ⟨s, rfl, { hs with enough := hunread ▸ hdone }⟩
    rw [if_neg hdone]
    dsimp only
    obtain ⟨s1, heq, hs1, hwindow, hshort, hstream1, hcuts1⟩ := sees_room hs hn hdone
    rw [heq, if_neg (not_le.mpr hwindow)]
    by_cases hend : s1.stream = []
    · have hp : ¬ n ≤ p.length := by
        rw [← hs1.pending, SyncSession.pending, hend, List.append_nil]
        omega
      rw [if_pos hend, if_neg hp, if_neg hp]
      exact ⟨s1, rfl, { hs1 with enough := Nat.zero_le _ }⟩
    rw [if_neg hend]
    have hprog := channelRead_progress hwindow hend
    refine ih (channelRead s1) (sees_channelRead hs1) ?_
    rw [hcuts1, hstream1] at hprog
    omega

theorem fillAtLeast_runs (hn : n ≤ cap) :
    Runs (SyncM.fillAtLeast n) cap k p (if n ≤ p.length then .ok () else .error .channelClosed)
      (if n ≤ p.length then n else 0) p := by
  intro s hs
  obtain ⟨s', h', hs'⟩ := fillLoop_runs hn s hs (Nat.lt_succ_self _)
  refine ⟨s', ?_, hs'⟩
  rw [SyncM.fillAtLeast, if_neg (by rw [hs.capacity]; omega)]
  exact h'

/-- **Filling**: a buffer that is large enough gets the bytes, and what is pending stays. -/
theorem Runs.fillAtLeast (hn : n ≤ cap) (hp : n ≤ p.length) : Runs (SyncM.fillAtLeast n) cap k p (.ok ()) n p := by
  have h := @fillAtLeast_runs cap k n p hn
  rwa [if_pos hp, if_pos hp] at h

theorem Runs.fillAtLeast_closed (hn : n ≤ cap) (hp : p.length < n) :
    Runs (SyncM.fillAtLeast n) cap k p (.error .channelClosed) 0 p := by
  have h := @fillAtLeast_runs cap k n p hn
  rwa [if_neg (not_le.mpr hp), if_neg (not_le.mpr hp)] at h

/-- A buffer that is too small is noticed at once. -/
theorem Runs.fillAtLeast_small (hn : cap < n) :
    Runs (SyncM.fillAtLeast n) cap k p (.error .receiveBufferFull) 0 p := by
  intro s hs
  refine ⟨s, ?_, { hs with enough := Nat.zero_le _ }⟩
  rw [SyncM.fillAtLeast, if_pos (by rw [hs.capacity]; exact hn)]

end SyncM

end LibAdb
