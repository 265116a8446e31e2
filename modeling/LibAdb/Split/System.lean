import LibAdb.Split.Reader
import LibAdb.Lib.Runs

/-!
# LibAdb.Split.System — a split connection and everyone who uses it

The state is the shared part and a list of tasks: the `Reader` and every call made on a `Writer`, an
`IncomingListener` or a request in hand, in the order they were begun.  A task is a call's control state and the use
of the write half it is in the middle of, if any.

An event is one step of one task, or something the application does: begin a call, drop a future where it waits,
decide on a request, make or drop a listener, drop the `Reader`.  What the device sends and how the transport behaves
is in the steps (`Act`).  A run is any sequence of events, so every interleaving is one.
-/

namespace LibAdb.Split

/-- The control state of a task. -/
inductive Ctl where
  | write (c : WriteCall)
  | close (c : CloseCall)
  | read (c : ReadCall)
  | «open» (c : OpenCall)
  | holder (c : HolderCall)
  | listen (c : ListenCall)
  | reader (c : ReaderTask)
  deriving DecidableEq, Repr

structure Task where
  ctl : Ctl
  use : Option Use
  deriving DecidableEq, Repr

structure State where
  sh : Shared
  tasks : List Task

/-- A call on a `Writer` (or `Reader::close_channel`), or on a listener. -/
inductive AppCall where
  | write (ch : ChannelId) (data : Bytes)
  | close (ch : ChannelId)
  | read (ch : ChannelId) (want : ℕ)
  | «open» (destination : Bytes)
  | accept
  deriving DecidableEq, Repr

def AppCall.start : AppCall → Ctl
  | .write ch data => .write (.start ch data)
  | .close ch => .close (.start ch)
  | .read ch want => .read (.start ch want)
  | .«open» destination => .«open» (.start destination)
  | .accept => .listen .start

inductive Event where
  | call (c : AppCall)
  /-- A call on the `Reader`. -/
  | begin (task : ℕ) (c : ReaderCall)
  /-- `Writer::listen_incoming` -/
  | listen
  /-- `Drop for IncomingListener` -/
  | unlisten
  /-- `SplitIncoming::accept` or `SplitIncoming::reject` -/
  | decide (task : ℕ) (accept : Bool)
  /-- A request reaches the application. -/
  | handOver (task : ℕ)
  | step (task : ℕ) (a : Act)
  /-- A future is dropped where it waits; a request, in the application's hands. -/
  | drop (task : ℕ)
  | dropReader (task : ℕ)
  deriving DecidableEq, Repr

variable [Usize] (ng : Negotiated)

namespace Ctl

def step (a : Act) (sh : Shared) : Ctl → Option (Ctl × Option Use × Shared)
  | .write c => (c.step ng a sh).map fun (c, r) => (.write c, r)
  | .close c => (c.step a sh).map fun (c, r) => (.close c, r)
  | .read c => (c.step a sh).map fun (c, r) => (.read c, r)
  | .«open» c => (c.step ng a sh).map fun (c, r) => (.«open» c, r)
  | .holder c => (c.step ng a sh).map fun (c, r) => (.holder c, r)
  | .listen c => (c.step a sh).map fun (c, r) => (.listen c, r)
  | .reader c => (c.step ng a sh).map fun (c, r) => (.reader c, r)

/-- The use of the write half has ended. -/
def resume (r : Option Error) (sh : Shared) : Ctl → Ctl × Shared
  | .write c => (.write (c.resume r), sh)
  | .close c => (.close (c.resume r), sh)
  | .read c => (.read (c.resume r), sh)
  | .«open» c => (.«open» (c.resume r), sh)
  | .holder c => (.holder (c.resume r), sh)
  | .listen c => (.listen c, sh)
  | .reader c => ((c.resume r sh).1 |> .reader, (c.resume r sh).2)

/-- The condition of an `until` is reached. -/
def cancel (sh : Shared) : Ctl → Option Ctl
  | .close c => (c.cancel sh).map .close
  | .read c => (c.cancel sh).map .read
  | .reader c => (c.cancel sh).map .reader
  | _ => none

def drop : Ctl → Option Ctl
  | .write c => c.drop.map .write
  | .close c => c.drop.map .close
  | .read c => c.drop.map .read
  | .«open» c => c.drop.map .«open»
  | .holder c => c.drop.map .holder
  | .listen c => c.drop.map .listen
  | .reader c => c.drop.map .reader

/-- The request a call is about to return, and the call without it. -/
def handOver : Ctl → Option (Holder × Ctl)
  | .listen c =>
    match c.pc with
    | .handOver h => some (h, .listen (c.goto (.done .ok)))
    | _ => none
  | .reader c =>
    match c.pc with
    | .handOver h => some (h, .reader c.finish)
    | _ => none
  | _ => none

end Ctl

namespace Task

/-- One step of task `i`. -/
def step (i : ℕ) (t : Task) (a : Act) (sh : Shared) : Option (Task × Shared) :=
  match t.use, a with
  | some u, .cancel =>
    match t.ctl.cancel sh, u.drop sh with
    | some ctl, some sh => some (⟨ctl, none⟩, sh)
    | _, _ => none
  | some u, a =>
    match u.step ng i a sh with
    | none => none
    | some (.more u, sh) => some (⟨t.ctl, some u⟩, sh)
    | some (.ended r, sh) =>
      let (ctl, sh) := t.ctl.resume r sh
      some (⟨ctl, none⟩, sh)
  | none, a => (t.ctl.step ng a sh).map fun (ctl, use, sh) => (⟨ctl, use⟩, sh)

def drop (t : Task) (sh : Shared) : Option (Task × Shared) :=
  match t.use with
  | some u =>
    match t.ctl.drop, u.drop sh with
    | some ctl, some sh => some (⟨ctl, none⟩, sh)
    | _, _ => none
  | none => t.ctl.drop.map fun ctl => (⟨ctl, none⟩, sh)

end Task

namespace State

def set (s : State) (i : ℕ) (t : Task) (sh : Shared) : State := ⟨sh, s.tasks.set i t⟩

omit [Usize]

@[simp] theorem set_sh (s : State) (i : ℕ) (t : Task) (sh : Shared) : (s.set i t sh).sh = sh := rfl

@[simp] theorem set_tasks (s : State) (i : ℕ) (t : Task) (sh : Shared) : (s.set i t sh).tasks = s.tasks.set i t := rfl

def step (s : State) : Event → Option State
  | .call c => some ⟨s.sh, s.tasks ++ [⟨c.start, none⟩]⟩
  | .begin i call =>
    match s.tasks[i]? with
    | some ⟨.reader c, none⟩ => (c.begin call).map fun c => s.set i ⟨.reader c, none⟩ s.sh
    | _ => none
  | .listen => some ⟨{ s.sh with listeners := s.sh.listeners + 1 }, s.tasks⟩
  | .unlisten =>
    if s.sh.listeners = 0 then none else some ⟨{ s.sh with listeners := s.sh.listeners - 1 }, s.tasks⟩
  | .decide i accept =>
    match s.tasks[i]? with
    | some ⟨.holder c, none⟩ =>
      if c.pc = .held then some (s.set i ⟨.holder (c.goto (if accept then .accept else .reject)), none⟩ s.sh)
      else none
    | _ => none
  | .handOver i =>
    match s.tasks[i]? with
    | some ⟨ctl, none⟩ =>
      ctl.handOver.map fun (h, ctl) => ⟨s.sh, s.tasks.set i ⟨ctl, none⟩ ++ [⟨.holder ⟨h, .held⟩, none⟩]⟩
    | _ => none
  | .step i a =>
    match s.tasks[i]? with
    | some t => (t.step ng i a s.sh).map fun (t, sh) => s.set i t sh
    | none => none
  | .drop i =>
    match s.tasks[i]? with
    | some t => (t.drop s.sh).map fun (t, sh) => s.set i t sh
    | none => none
  | .dropReader i =>
    match s.tasks[i]? with
    | some ⟨.reader c, none⟩ =>
      if c.pc = .idle then some (s.set i ⟨.reader (c.goto .stop), none⟩ s.sh) else none
    | _ => none

/-- What `Connection::split` makes: a table and a queue from the `Connection`, one `Reader`, and nothing under way. -/
def start (table : ChannelTable) (incoming : IncomingQueue) (desync : Bool) : State where
  sh :=
    { channels := table
      signals := List.replicate table.len 0
      desync := desync
      incoming := incoming
      staged := []
      cancelled := []
      stopped := false
      streamOver := false
      endedInStep := false
      listeners := 0
      incomingSignal := 0
      receiveSignal := 0
      owed := []
      writeHalf := none
      gone := false
      trace := [] }
  tasks := [⟨.reader .fresh, none⟩]

theorem start_task {table : ChannelTable} {incoming : IncomingQueue} {desync : Bool} {i : ℕ} {t : Task}
    (h : (start table incoming desync).tasks[i]? = some t) : i = 0 ∧ t = ⟨.reader .fresh, none⟩ := by
  have hone := h.symm.trans (List.getElem?_singleton (i := i))
  split_ifs at hone with hi
  exact ⟨hi, Option.some.inj hone⟩

end State

/-! ## What an event can do

`step` taken apart once: every proof about runs goes by these cases. -/

/-- A control step of a call. -/
inductive Ctl.Moves (sh : Shared) : Ctl → Ctl → Option Use → Shared → Prop
  | write (c c' : WriteCall) (use : Option Use) (sh' : Shared) (h : c.Moves ng sh c' use sh') :
      Moves sh (.write c) (.write c') use sh'
  | close (c c' : CloseCall) (use : Option Use) (sh' : Shared) (h : c.Moves sh c' use sh') :
      Moves sh (.close c) (.close c') use sh'
  | read (c c' : ReadCall) (use : Option Use) (sh' : Shared) (h : c.Moves sh c' use sh') :
      Moves sh (.read c) (.read c') use sh'
  | «open» (c c' : OpenCall) (use : Option Use) (sh' : Shared) (h : c.Moves ng sh c' use sh') :
      Moves sh (.«open» c) (.«open» c') use sh'
  | holder (c c' : HolderCall) (use : Option Use) (sh' : Shared) (h : c.Moves ng sh c' use sh') :
      Moves sh (.holder c) (.holder c') use sh'
  | listen (c c' : ListenCall) (use : Option Use) (sh' : Shared) (h : c.Moves sh c' use sh') :
      Moves sh (.listen c) (.listen c') use sh'
  | reader (c c' : ReaderTask) (use : Option Use) (sh' : Shared) (h : c.Moves ng sh c' use sh') :
      Moves sh (.reader c) (.reader c') use sh'

/-- What event `e` does to task `i` and to the shared state. -/
inductive Task.Moves (i : ℕ) (t : Task) (sh : Shared) : Event → Task → Shared → Prop
  | ctl (a : Act) (ctl' : Ctl) (use' : Option Use) (sh' : Shared) (hu : t.use = none)
      (h : Ctl.Moves ng sh t.ctl ctl' use' sh') : Moves i t sh (.step i a) ⟨ctl', use'⟩ sh'
  | more (u : Use) (a : Act) (u' : Use) (sh' : Shared) (hu : t.use = some u)
      (h : u.Moves ng i sh a (.more u') sh') : Moves i t sh (.step i a) ⟨t.ctl, some u'⟩ sh'
  | ended (u : Use) (a : Act) (r : Option Error) (sh' : Shared) (hu : t.use = some u)
      (h : u.Moves ng i sh a (.ended r) sh') :
      Moves i t sh (.step i a) ⟨(t.ctl.resume r sh').1, none⟩ (t.ctl.resume r sh').2
  | cancel (u : Use) (ctl' : Ctl) (sh' : Shared) (hu : t.use = some u) (hc : t.ctl.cancel sh = some ctl')
      (hd : u.drop sh = some sh') : Moves i t sh (.step i .cancel) ⟨ctl', none⟩ sh'
  | drop (u : Use) (ctl' : Ctl) (sh' : Shared) (hu : t.use = some u) (hc : t.ctl.drop = some ctl')
      (hd : u.drop sh = some sh') : Moves i t sh (.drop i) ⟨ctl', none⟩ sh'
  | dropIdle (ctl' : Ctl) (hu : t.use = none) (hc : t.ctl.drop = some ctl') : Moves i t sh (.drop i) ⟨ctl', none⟩ sh
  | begin (c : ReaderTask) (call : ReaderCall) (c' : ReaderTask) (hu : t.use = none) (hctl : t.ctl = .reader c)
      (h : c.begin call = some c') : Moves i t sh (.begin i call) ⟨.reader c', none⟩ sh
  | decide (c : HolderCall) (accept : Bool) (hu : t.use = none) (hctl : t.ctl = .holder c) (h : c.pc = .held) :
      Moves i t sh (.decide i accept) ⟨.holder (c.goto (if accept then .accept else .reject)), none⟩ sh
  | dropReader (c : ReaderTask) (hu : t.use = none) (hctl : t.ctl = .reader c) (h : c.pc = .idle) :
      Moves i t sh (.dropReader i) ⟨.reader (c.goto .stop), none⟩ sh

inductive State.Moves (s : State) : Event → State → Prop
  | task (i : ℕ) (e : Event) (t t' : Task) (sh' : Shared) (ht : s.tasks[i]? = some t)
      (h : t.Moves ng i s.sh e t' sh') : Moves s e (s.set i t' sh')
  | call (c : AppCall) : Moves s (.call c) ⟨s.sh, s.tasks ++ [⟨c.start, none⟩]⟩
  | handOver (i : ℕ) (t : Task) (h : Holder) (ctl' : Ctl) (ht : s.tasks[i]? = some t) (hu : t.use = none)
      (hh : t.ctl.handOver = some (h, ctl')) :
      Moves s (.handOver i) ⟨s.sh, s.tasks.set i ⟨ctl', none⟩ ++ [⟨.holder ⟨h, .held⟩, none⟩]⟩
  | listeners (e : Event) (n : ℕ) (he : e = .listen ∨ e = .unlisten) :
      Moves s e ⟨{ s.sh with listeners := n }, s.tasks⟩

variable {ng}

theorem Ctl.step_moves {a : Act} {ctl ctl' : Ctl} {use : Option Use} {sh sh' : Shared}
    (h : ctl.step ng a sh = some (ctl', use, sh')) : Ctl.Moves ng sh ctl ctl' use sh' := by
  cases ctl with
  | write c =>
    obtain ⟨⟨c1, use1, sh1⟩, hm, ⟨⟩⟩ := Option.map_eq_some_iff.mp h
    exact .write c c1 _ _ (WriteCall.step_moves hm)
  | close c =>
    obtain ⟨⟨c1, use1, sh1⟩, hm, ⟨⟩⟩ := Option.map_eq_some_iff.mp h
    exact .close c c1 _ _ (CloseCall.step_moves hm)
  | read c =>
    obtain ⟨⟨c1, use1, sh1⟩, hm, ⟨⟩⟩ := Option.map_eq_some_iff.mp h
    exact .read c c1 _ _ (ReadCall.step_moves hm)
  | «open» c =>
    obtain ⟨⟨c1, use1, sh1⟩, hm, ⟨⟩⟩ := Option.map_eq_some_iff.mp h
    exact .«open» c c1 _ _ (OpenCall.step_moves hm)
  | holder c =>
    obtain ⟨⟨c1, use1, sh1⟩, hm, ⟨⟩⟩ := Option.map_eq_some_iff.mp h
    exact .holder c c1 _ _ (HolderCall.step_moves hm)
  | listen c =>
    obtain ⟨⟨c1, use1, sh1⟩, hm, ⟨⟩⟩ := Option.map_eq_some_iff.mp h
    exact .listen c c1 _ _ (ListenCall.step_moves hm)
  | reader c =>
    obtain ⟨⟨c1, use1, sh1⟩, hm, ⟨⟩⟩ := Option.map_eq_some_iff.mp h
    exact .reader c c1 _ _ (ReaderTask.step_moves hm)

theorem Task.step_moves {i : ℕ} {t t' : Task} {a : Act} {sh sh' : Shared}
    (h : t.step ng i a sh = some (t', sh')) : t.Moves ng i sh (.step i a) t' sh' := by
  unfold Task.step at h
  split at h
  · rename_i u hu
    split at h
    · rename_i ctl sh1 hc hd
      cases h
      exact .cancel u ctl _ hu hc hd
    · cases h
  · rename_i u hu _
    split at h
    · cases h
    · rename_i u1 sh1 hs
      cases h
      exact .more u _ u1 _ hu (Use.step_moves hs)
    · rename_i r sh1 hs
      cases h
      exact .ended u _ r sh1 hu (Use.step_moves hs)
  · rename_i hu
    obtain ⟨⟨ctl1, use1, sh1⟩, hs, ⟨⟩⟩ := Option.map_eq_some_iff.mp h
    exact .ctl _ ctl1 use1 _ hu (Ctl.step_moves hs)

theorem Task.drop_moves {i : ℕ} {t t' : Task} {sh sh' : Shared}
    (h : t.drop sh = some (t', sh')) : t.Moves ng i sh (.drop i) t' sh' := by
  unfold Task.drop at h
  split at h
  · rename_i u hu
    split at h
    · rename_i ctl sh1 hc hd
      cases h
      exact .drop u ctl _ hu hc hd
    · cases h
  · rename_i hu
    obtain ⟨ctl, hc, ⟨⟩⟩ := Option.map_eq_some_iff.mp h
    exact .dropIdle ctl hu hc

/-- **Every event is one of the moves.** -/
theorem State.step_moves {s s' : State} {e : Event} (h : s.step ng e = some s') : s.Moves ng e s' := by
  cases e with
  | call c =>
    cases h
    exact .call c
  | begin i call =>
    simp only [State.step] at h
    split at h
    · rename_i c ht
      obtain ⟨c', hc, ⟨⟩⟩ := Option.map_eq_some_iff.mp h
      exact .task i _ _ _ _ ht (.begin c call c' rfl rfl hc)
    · cases h
  | listen =>
    cases h
    exact .listeners _ _ (Or.inl rfl)
  | unlisten =>
    simp only [State.step] at h
    split_ifs at h
    cases h
    exact .listeners _ _ (Or.inr rfl)
  | decide i accept =>
    simp only [State.step] at h
    split at h
    · rename_i c ht
      by_cases hheld : c.pc = .held
      · rw [if_pos hheld] at h
        cases h
        exact .task i _ _ _ _ ht (.decide c accept rfl rfl hheld)
      · rw [if_neg hheld] at h
        cases h
    · cases h
  | handOver i =>
    simp only [State.step] at h
    split at h
    · rename_i ctl ht
      obtain ⟨⟨hd, ctl'⟩, hh, ⟨⟩⟩ := Option.map_eq_some_iff.mp h
      exact .handOver i _ hd ctl' ht rfl hh
    · cases h
  | step i a =>
    simp only [State.step] at h
    split at h
    · rename_i t ht
      obtain ⟨⟨t', sh'⟩, hs, ⟨⟩⟩ := Option.map_eq_some_iff.mp h
      exact .task i _ _ _ _ ht (Task.step_moves hs)
    · cases h
  | drop i =>
    simp only [State.step] at h
    split at h
    · rename_i t ht
      obtain ⟨⟨t', sh'⟩, hs, ⟨⟩⟩ := Option.map_eq_some_iff.mp h
      exact .task i _ _ _ _ ht (Task.drop_moves hs)
    · cases h
  | dropReader i =>
    simp only [State.step] at h
    split at h
    · rename_i c ht
      split_ifs at h with hidle
      cases h
      exact .task i _ _ _ _ ht (.dropReader c rfl rfl hidle)
    · cases h

end LibAdb.Split

/-! ## A small connection -/

namespace LibAdb.Split

/-- Delayed ack on a 64-bit target, with the settings for small devices. -/
def sampleNegotiated : @Negotiated usize64 :=
  @Negotiated.mk usize64 8192 0x01000001 (@ConnectionConfig.embedded usize64) true

/-- A table of two slots, the first with an open channel: local id 1, device id 9. -/
def sampleTable : ChannelTable :=
  ⟨[some (ChannelSlot.accepted ⟨⟨1⟩, ⟨9⟩⟩ 0 (@Negotiated.rxPolicy usize64 sampleNegotiated)), none], 2,
    @Negotiated.rxPolicy usize64 sampleNegotiated⟩

end LibAdb.Split
