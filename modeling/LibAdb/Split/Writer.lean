import LibAdb.Split.Use

/-!
# LibAdb.Split.Writer — the calls of `Writer`

`split/writer.rs`: `write_channel` with `acquire_credit` and `try_reserve`, `close_channel_via`, `select_channel`
(which `read_channel` is with an interrupt that never resolves) and `open_channel`, and the loop of
`Shared::take_buffered` that every read runs.

A call is a program counter; `step` takes it through one critical section, or wakes it where it is parked, and may
begin a `Use` of the write half, whose result comes back through `resume`.  `drop` is the call's future dropped where
it waits; what its guards do then is done in steps of its own, as on every other way out.
-/

namespace LibAdb.Split

variable [Usize] (ng : Negotiated)

/-! ## Writing -/

inductive WritePc where
  | start
  /-- `acquire_credit`: join the queue. -/
  | enqueue
  /-- Make the listener. -/
  | listen (place : ℕ)
  /-- `try_reserve` -/
  | reserve (place gen : ℕ)
  /-- No credit, or not the turn: `check_live`. -/
  | live (place gen : ℕ)
  | parked (place gen : ℕ)
  /-- `Drop for QueueGuard` -/
  | leave (place : ℕ) (r : End)
  /-- Credit is reserved: `channel_ids`. -/
  | reserved (n : ℕ)
  /-- The WRTE is on its way. -/
  | sending (n : ℕ)
  /-- `Drop for CreditGuard` -/
  | settle (n : ℕ) (committed : Bool) (r : End)
  | done (r : End)
  deriving DecidableEq, Repr

/-- The credit a call has reserved, and whether its WRTE is committed. -/
def WritePc.credit : WritePc → Option (ℕ × Bool)
  | .reserved n | .sending n => some (n, false)
  | .settle n committed _ => some (n, committed)
  | _ => none

/-- A call of `write_channel`. -/
structure WriteCall where
  ch : ChannelId
  data : Bytes
  offset : ℕ
  pc : WritePc
  deriving DecidableEq, Repr

namespace WriteCall

def start (ch : ChannelId) (data : Bytes) : WriteCall := ⟨ch, data, 0, .start⟩

variable (c : WriteCall)

/-- `want` in `write_channel`: what is left, up to the payload limit. -/
def want : ℕ := min (c.data.length - c.offset) (max ng.maxPayload.toNat 1)

def chunk (n : ℕ) : Bytes := (c.data.drop c.offset).take n

def goto (pc : WritePc) : WriteCall := { c with pc }

/-- `try_reserve`: the channel is gone or closed, there is nothing yet, or `n` bytes are reserved. -/
def tryReserve (place : ℕ) (sh : Shared) : Except Error (Option (ℕ × Shared)) :=
  match sh.channels.get c.ch with
  | none => .error .channelClosed
  | some slot =>
    if slot.isClosed then .error slot.closedError
    else if slot.sendQueue.turn ≠ place then .ok none
    else match slot.tryReserveSend (c.want ng) with
      | none => .ok none
      | some (n, slot) =>
        let slot := { slot with sendQueue := slot.sendQueue.serve }
        let sh := { sh with channels := sh.channels.put c.ch.slot (some slot) }
        .ok (some (n, if slot.budget.isSome then sh.wake c.ch.slot else sh))

def step (a : Act) (sh : Shared) : Option (WriteCall × Option Use × Shared) :=
  match c.pc, a with
  | .start, .go =>
    match sh.checkDesync with
    | some e => some (c.goto (.done (.failed e)), none, sh)
    | none => some (c.goto (if c.data = [] then .done .ok else .enqueue), none, sh)
  | .enqueue, .go =>
    if sh.signals.length ≤ c.ch.slot then some (c.goto (.done (.failed .channelClosed)), none, sh)
    else match sh.channels.get c.ch with
      | none => some (c.goto (.done (.failed .channelClosed)), none, sh)
      | some slot =>
        if slot.isClosed then some (c.goto (.done (.failed slot.closedError)), none, sh)
        else
          let (place, sendQueue) := slot.sendQueue.enqueue
          some (c.goto (.listen place), none,
            { sh with channels := sh.channels.put c.ch.slot (some { slot with sendQueue }) })
  | .listen place, .go => some (c.goto (.reserve place (sh.signals.getD c.ch.slot 0)), none, sh)
  | .reserve place gen, .go =>
    match c.tryReserve ng place sh with
    | .error e => some (c.goto (.leave place (.failed e)), none, sh)
    | .ok none => some (c.goto (.live place gen), none, sh)
    | .ok (some (n, sh)) => some (c.goto (.reserved n), none, sh)
  | .live place gen, .go =>
    match sh.checkLive with
    | some e => some (c.goto (.leave place (.failed e)), none, sh)
    | none => some (c.goto (.parked place gen), none, sh)
  | .parked place gen, .wake =>
    if gen < sh.signals.getD c.ch.slot 0 then some (c.goto (.listen place), none, sh) else none
  | .leave place r, .go => some (c.goto (.done r), none, sh.leaveQueue c.ch place)
  | .reserved n, .go =>
    match sh.channels.ids c.ch with
    | .error e => some (c.goto (.settle n false (.failed e)), none, sh)
    | .ok ids =>
      some (c.goto (.sending n),
        some (.start (.send ⟨.write, ids.localId.raw, ids.remote.raw, c.chunk n⟩)), sh)
  | .settle n committed r, .go =>
    let sh := sh.dropCredit c.ch n committed
    if committed then
      let c := { c with offset := c.offset + n }
      some (c.goto (if c.offset < c.data.length then .enqueue else .done .ok), none, sh)
    else some (c.goto (.done r), none, sh)
  | _, _ => none

def resume (r : Option Error) : WriteCall :=
  match c.pc, r with
  | .sending n, none => c.goto (.settle n true .ok)
  | .sending n, some e => c.goto (.settle n false (.failed e))
  | _, _ => c

def drop : Option WriteCall :=
  match c.pc with
  | .parked place _ => some (c.goto (.leave place .dropped))
  | .sending n => some (c.goto (.settle n false .dropped))
  | _ => none

/-! ### Every step there is -/

omit [Usize] in
@[simp] theorem goto_ch (pc : WritePc) : (c.goto pc).ch = c.ch := rfl

omit [Usize] in
@[simp] theorem goto_pc (pc : WritePc) : (c.goto pc).pc = pc := rfl

omit [Usize] in
@[simp] theorem goto_offset (pc : WritePc) : (c.goto pc).offset = c.offset := rfl

/-- `step`, taken apart; the steps that touch nothing are one case. -/
inductive Moves (sh : Shared) : WriteCall → Option Use → Shared → Prop
  | idle (pc' : WritePc) (h : c.pc.credit = none) (h' : pc'.credit = none) : Moves sh (c.goto pc') none sh
  | joins (slot : ChannelSlot) (place : ℕ) (sendQueue : SendQueue) (hpc : c.pc = .enqueue)
      (hget : sh.channels.get c.ch = some slot) :
      Moves sh (c.goto (.listen place)) none
        { sh with channels := sh.channels.put c.ch.slot (some { slot with sendQueue }) }
  | reserves (place gen n : ℕ) (sh' : Shared) (hpc : c.pc = .reserve place gen)
      (h : c.tryReserve ng place sh = .ok (some (n, sh'))) : Moves sh (c.goto (.reserved n)) none sh'
  | leaves (place : ℕ) (r : End) (hpc : c.pc = .leave place r) :
      Moves sh (c.goto (.done r)) none (sh.leaveQueue c.ch place)
  | unnamed (n : ℕ) (e : Error) (hpc : c.pc = .reserved n) : Moves sh (c.goto (.settle n false (.failed e))) none sh
  | sends (n : ℕ) (ids : ChannelIds) (hpc : c.pc = .reserved n) (hids : sh.channels.ids c.ch = .ok ids) :
      Moves sh (c.goto (.sending n))
        (some (.start (.send ⟨.write, ids.localId.raw, ids.remote.raw, c.chunk n⟩))) sh
  | commits (n : ℕ) (r : End) (pc' : WritePc) (hpc : c.pc = .settle n true r) (h' : pc'.credit = none) :
      Moves sh { c with offset := c.offset + n, pc := pc' } none (sh.dropCredit c.ch n true)
  | refunds (n : ℕ) (r : End) (hpc : c.pc = .settle n false r) :
      Moves sh (c.goto (.done r)) none (sh.dropCredit c.ch n false)

variable {ng c}

theorem step_moves {a : Act} {sh sh' : Shared} {c' : WriteCall} {use : Option Use}
    (h : c.step ng a sh = some (c', use, sh')) : c.Moves ng sh c' use sh' := by
  unfold step at h
  split at h
  · rename_i hpc
    split at h
    · cases h
      exact .idle _ (by rw [hpc]; rfl) rfl
    · cases h
      exact .idle _ (by rw [hpc]; rfl) (by split_ifs <;> rfl)
  · rename_i hpc
    have hnone : c.pc.credit = none := by rw [hpc]; rfl
    split_ifs at h
    · cases h
      exact .idle _ hnone rfl
    · split at h
      · cases h
        exact .idle _ hnone rfl
      · rename_i slot hget
        split_ifs at h
        · cases h
          exact .idle _ hnone rfl
        · cases h
          exact .joins slot _ _ hpc hget
  · rename_i hpc
    cases h
    exact .idle _ (by rw [hpc]; rfl) rfl
  · rename_i place gen hpc
    have hnone : c.pc.credit = none := by rw [hpc]; rfl
    split at h
    · cases h
      exact .idle _ hnone rfl
    · cases h
      exact .idle _ hnone rfl
    · rename_i n sh1 hres
      cases h
      exact .reserves place gen n _ hpc hres
  · rename_i hpc
    have hnone : c.pc.credit = none := by rw [hpc]; rfl
    split at h <;> (cases h; exact .idle _ hnone rfl)
  · rename_i hpc
    split_ifs at h
    cases h
    exact .idle _ (by rw [hpc]; rfl) rfl
  · rename_i place r hpc
    cases h
    exact .leaves place r hpc
  · rename_i n hpc
    split at h
    · cases h
      exact .unnamed n _ hpc
    · rename_i ids hids
      cases h
      exact .sends n ids hpc hids
  · rename_i n committed r hpc
    cases committed with
    | true =>
      cases h
      exact .commits n r _ hpc (by split_ifs <;> rfl)
    | false =>
      cases h
      exact .refunds n r hpc
  · cases h

end WriteCall

/-! ## Closing -/

inductive ClosePc where
  | start
  /-- Free the slot. -/
  | free
  /-- Owe the CLSE. -/
  | owe (ids : ChannelIds)
  /-- `until`, before its work is begun. -/
  | «until»
  /-- The CLSE is on its way. -/
  | locking
  /-- It was called off: `check_close`. -/
  | check
  | done (r : End)
  deriving DecidableEq, Repr

/-- A call of `close_channel_via`. -/
structure CloseCall where
  ch : ChannelId
  pc : ClosePc
  deriving DecidableEq, Repr

namespace CloseCall

def start (ch : ChannelId) : CloseCall := ⟨ch, .start⟩

variable (c : CloseCall)

def goto (pc : ClosePc) : CloseCall := { c with pc }

def step (a : Act) (sh : Shared) : Option (CloseCall × Option Use × Shared) :=
  match c.pc, a with
  | .start, .go =>
    match sh.checkDesync with
    | some e => some (c.goto (.done (.failed e)), none, sh)
    | none => some (c.goto .free, none, sh)
  | .free, .go =>
    match sh.channels.ids c.ch with
    | .error e => some (c.goto (.done (.failed e)), none, sh)
    | .ok ids => some (c.goto (.owe ids), none, { sh with channels := sh.channels.freed c.ch })
  | .owe ids, .go => some (c.goto .«until», none, (sh.wake c.ch.slot).owe (.close ids))
  | .«until», .go =>
    if sh.clseCalledOff then some (c.goto .check, none, sh)
    else some (c.goto .locking, some (.start .debts), sh)
  | .check, .go =>
    match sh.checkClose with
    | some e => some (c.goto (.done (.failed e)), none, sh)
    | none => some (c.goto (.done .ok), none, sh)
  | _, _ => none

def resume (r : Option Error) : CloseCall :=
  match c.pc, r with
  | .locking, none => c.goto (.done .ok)
  | .locking, some e => c.goto (.done (.failed e))
  | _, _ => c

/-- `until` gives up on the write half. -/
def cancel (sh : Shared) : Option CloseCall :=
  if c.pc = .locking ∧ sh.clseCalledOff then some (c.goto .check) else none

def drop : Option CloseCall :=
  match c.pc with
  | .locking => some (c.goto (.done .dropped))
  | _ => none

/-- `step`, taken apart. -/
inductive Moves (sh : Shared) : CloseCall → Option Use → Shared → Prop
  | idle (pc' : ClosePc) (h : ∀ ids, c.pc ≠ .owe ids) (h' : ∀ ids, pc' ≠ .owe ids) : Moves sh (c.goto pc') none sh
  | frees (ids : ChannelIds) (hpc : c.pc = .free) (hids : sh.channels.ids c.ch = .ok ids) :
      Moves sh (c.goto (.owe ids)) none { sh with channels := sh.channels.freed c.ch }
  | owes (ids : ChannelIds) (hpc : c.pc = .owe ids) :
      Moves sh (c.goto .«until») none ((sh.wake c.ch.slot).owe (.close ids))
  | locks (hpc : c.pc = .«until») : Moves sh (c.goto .locking) (some (.start .debts)) sh

variable {c}

omit [Usize] in
theorem step_moves {a : Act} {sh sh' : Shared} {c' : CloseCall} {use : Option Use}
    (h : c.step a sh = some (c', use, sh')) : c.Moves sh c' use sh' := by
  unfold step at h
  split at h
  · rename_i hpc
    split at h <;> (cases h; exact .idle _ (by simp [hpc]) nofun)
  · rename_i hpc
    split at h
    · cases h
      exact .idle _ (by simp [hpc]) nofun
    · rename_i ids hids
      cases h
      exact .frees ids hpc hids
  · rename_i ids hpc
    cases h
    exact .owes ids hpc
  · rename_i hpc
    split_ifs at h
    · cases h
      exact .idle _ (by simp [hpc]) nofun
    · cases h
      exact .locks hpc
  · rename_i hpc
    split at h <;> (cases h; exact .idle _ (by simp [hpc]) nofun)
  · cases h

end CloseCall

/-! ## Taking what is buffered -/

inductive TakePc where
  /-- The critical section at the head of the loop. -/
  | look
  /-- `until`, before its work is begun. -/
  | «until»
  /-- `acknowledge_take` -/
  | acking
  deriving DecidableEq, Repr

inductive TakeNext where
  | more (pc : TakePc)
  | ended (r : Except Error (Option Bytes))

/-- `Shared::take_buffered` for a buffer of `want` bytes. -/
def TakePc.step (ch : ChannelId) (want : ℕ) (pc : TakePc) (a : Act) (sh : Shared) :
    Option (TakeNext × Option Use × Shared) :=
  match pc, a with
  | .look, .go =>
    match if (sh.channels.get ch).any ChannelSlot.hasData then none else sh.checkInStep with
    | some e => some (.ended (.error e), none, sh)
    | none =>
      match sh.channels.get ch with
      | none => some (.ended (.error .channelClosed), none, sh)
      | some slot =>
        if sh.hasEnded || !slot.takeAcks want then
          match slot.takeBuffered want with
          | .error e => some (.ended (.error e), none, sh)
          | .ok none => some (.ended (.ok none), none, sh)
          | .ok (some (out, slot)) =>
            some (.ended (.ok (some out)), none,
              { sh with channels := sh.channels.put ch.slot (some slot) }.note (.read ch out))
        else some (.more .«until», none, sh)
  | .«until», .go =>
    if sh.hasEnded then some (.more .look, none, sh)
    else some (.more .acking, some (.start (.settle ch want)), sh)
  | _, _ => none

/-- `TakePc.step`, taken apart. -/
inductive TakePc.Moves (ch : ChannelId) (want : ℕ) (sh : Shared) : TakePc → TakeNext → Option Use → Shared → Prop
  /-- `check_in_step`, with nothing buffered. -/
  | outOfStep (e : Error) (hdata : (sh.channels.get ch).any ChannelSlot.hasData = false)
      (he : sh.checkInStep = some e) : Moves ch want sh .look (.ended (.error e)) none sh
  | noSlot (hget : sh.channels.get ch = none) : Moves ch want sh .look (.ended (.error .channelClosed)) none sh
  | closed (slot : ChannelSlot) (e : Error) (hget : sh.channels.get ch = some slot)
      (htake : slot.takeBuffered want = .error e) : Moves ch want sh .look (.ended (.error e)) none sh
  | empty (slot : ChannelSlot) (hget : sh.channels.get ch = some slot) (htake : slot.takeBuffered want = .ok none) :
      Moves ch want sh .look (.ended (.ok none)) none sh
  | takes (slot slot' : ChannelSlot) (out : Bytes) (hget : sh.channels.get ch = some slot)
      (hacks : sh.hasEnded = true ∨ slot.takeAcks want = false)
      (htake : slot.takeBuffered want = .ok (some (out, slot'))) :
      Moves ch want sh .look (.ended (.ok (some out))) none
        ({ sh with channels := sh.channels.put ch.slot (some slot') }.note (.read ch out))
  | owesAck (slot : ChannelSlot) (hget : sh.channels.get ch = some slot) (hacks : slot.takeAcks want = true) :
      Moves ch want sh .look (.more .«until») none sh
  | ended (hended : sh.hasEnded = true) : Moves ch want sh .«until» (.more .look) none sh
  | acks (hended : sh.hasEnded = false) : Moves ch want sh .«until» (.more .acking) (some (.start (.settle ch want))) sh

omit [Usize] in
theorem TakePc.step_moves {ch : ChannelId} {want : ℕ} {pc : TakePc} {a : Act} {sh sh' : Shared} {next : TakeNext}
    {use : Option Use} (h : pc.step ch want a sh = some (next, use, sh')) : Moves ch want sh pc next use sh' := by
  unfold step at h
  split at h
  · split at h
    · rename_i e he
      cases h
      split_ifs at he with hdata
      exact .outOfStep e (by simpa using hdata) he
    · split at h
      · rename_i hget
        cases h
        exact .noSlot hget
      · rename_i slot hget
        split_ifs at h with hacks
        · split at h
          · rename_i e htake
            cases h
            exact .closed slot e hget htake
          · rename_i htake
            cases h
            exact .empty slot hget htake
          · rename_i out slot' htake
            cases h
            exact .takes slot slot' out hget (by simpa using hacks) htake
        · cases h
          have hboth : sh.hasEnded = false ∧ slot.takeAcks want = true := by simpa using hacks
          exact .owesAck slot hget hboth.2
  · split_ifs at h with hended
    · cases h
      exact .ended hended
    · cases h
      exact .acks (by simpa using hended)
  · cases h

/-! ## Reading -/

inductive ReadPc where
  | start
  | take (pc : TakePc)
  | live
  /-- Make the listener. -/
  | listen
  | waiting (gen : ℕ)
  | returned (out : Bytes)
  | interrupted
  | failed (e : Error)
  | dropped
  deriving DecidableEq, Repr

/-- A call of `select_channel`. -/
structure ReadCall where
  ch : ChannelId
  want : ℕ
  listener : Option ℕ
  pc : ReadPc
  deriving DecidableEq, Repr

namespace ReadCall

def start (ch : ChannelId) (want : ℕ) : ReadCall := ⟨ch, want, none, .start⟩

variable (c : ReadCall)

def goto (pc : ReadPc) : ReadCall := { c with pc }

def fail (e : Error) (sh : Shared) : ReadCall × Option Use × Shared :=
  (c.goto (.failed e), none, sh.note (.readFailed c.ch e))

def step (a : Act) (sh : Shared) : Option (ReadCall × Option Use × Shared) :=
  match c.pc, a with
  | .start, .go =>
    if sh.signals.length ≤ c.ch.slot then some (c.fail .channelClosed sh)
    else some (c.goto (.take .look), none, sh)
  | .take pc, a =>
    match pc.step c.ch c.want a sh with
    | none => none
    | some (.more pc, use, sh) => some (c.goto (.take pc), use, sh)
    | some (.ended (.error e), _, sh) => some (c.fail e sh)
    | some (.ended (.ok none), use, sh) => some (c.goto .live, use, sh)
    | some (.ended (.ok (some out)), use, sh) => some (c.goto (.returned out), use, sh)
  | .live, .go =>
    match sh.checkLive with
    | some e => some (c.fail e sh)
    | none =>
      match c.listener with
      | none => some (c.goto .listen, none, sh)
      | some gen => some (c.goto (.waiting gen), none, sh)
  | .listen, .go =>
    some ({ c with listener := some (sh.signals.getD c.ch.slot 0), pc := .take .look }, none, sh)
  | .waiting gen, .wake =>
    if gen < sh.signals.getD c.ch.slot 0 then some ({ c with listener := none, pc := .take .look }, none, sh)
    else none
  | .waiting _, .interrupt => some ({ c with listener := none, pc := .interrupted }, none, sh)
  | _, _ => none

def resume (_ : Option Error) : ReadCall :=
  match c.pc with
  | .take .acking => c.goto (.take .look)
  | _ => c

/-- `until` gives up on the OKAY. -/
def cancel (sh : Shared) : Option ReadCall :=
  if c.pc = .take .acking ∧ sh.hasEnded then some (c.goto (.take .look)) else none

def drop : Option ReadCall :=
  match c.pc with
  | .take .acking => some (c.goto .dropped)
  | .waiting _ => some (c.goto .dropped)
  | _ => none

omit [Usize] in
@[simp] theorem goto_ch (pc : ReadPc) : (c.goto pc).ch = c.ch := rfl

omit [Usize] in
@[simp] theorem goto_pc (pc : ReadPc) : (c.goto pc).pc = pc := rfl

/-- `step`, taken apart. -/
inductive Moves (sh : Shared) : ReadCall → Option Use → Shared → Prop
  | noSlot (hpc : c.pc = .start) (hslot : sh.signals.length ≤ c.ch.slot) :
      Moves sh (c.goto (.failed .channelClosed)) none (sh.note (.readFailed c.ch .channelClosed))
  | looks (hpc : c.pc = .start) : Moves sh (c.goto (.take .look)) none sh
  | takes (pc pc' : TakePc) (use : Option Use) (sh' : Shared) (hpc : c.pc = .take pc)
      (h : TakePc.Moves c.ch c.want sh pc (.more pc') use sh') : Moves sh (c.goto (.take pc')) use sh'
  | fails (pc : TakePc) (e : Error) (use : Option Use) (sh' : Shared) (hpc : c.pc = .take pc)
      (h : TakePc.Moves c.ch c.want sh pc (.ended (.error e)) use sh') :
      Moves sh (c.goto (.failed e)) none (sh'.note (.readFailed c.ch e))
  | empty (pc : TakePc) (use : Option Use) (sh' : Shared) (hpc : c.pc = .take pc)
      (h : TakePc.Moves c.ch c.want sh pc (.ended (.ok none)) use sh') : Moves sh (c.goto .live) use sh'
  | returns (pc : TakePc) (out : Bytes) (use : Option Use) (sh' : Shared) (hpc : c.pc = .take pc)
      (h : TakePc.Moves c.ch c.want sh pc (.ended (.ok (some out))) use sh') : Moves sh (c.goto (.returned out)) use sh'
  | dead (e : Error) (hpc : c.pc = .live) (he : sh.checkLive = some e) :
      Moves sh (c.goto (.failed e)) none (sh.note (.readFailed c.ch e))
  | waits (pc' : ReadPc) (hpc : c.pc = .live) (hpc' : pc' = .listen ∨ ∃ gen, pc' = .waiting gen) :
      Moves sh (c.goto pc') none sh
  | again (listener : Option ℕ) (hpc : c.pc = .listen ∨ ∃ gen, c.pc = .waiting gen) :
      Moves sh { c with listener, pc := .take .look } none sh
  | interrupted (gen : ℕ) (hpc : c.pc = .waiting gen) : Moves sh { c with listener := none, pc := .interrupted } none sh

variable {c}

omit [Usize] in
theorem step_moves {a : Act} {sh sh' : Shared} {c' : ReadCall} {use : Option Use}
    (h : c.step a sh = some (c', use, sh')) : c.Moves sh c' use sh' := by
  unfold step at h
  split at h
  · rename_i hpc
    split_ifs at h with hslot
    · cases h
      exact .noSlot hpc hslot
    · cases h
      exact .looks hpc
  · rename_i a _ _ pc hpc
    split at h
    · cases h
    · rename_i pc' use1 sh1 ht
      cases h
      exact .takes pc pc' _ _ hpc (TakePc.step_moves ht)
    · rename_i e use1 sh1 ht
      cases h
      exact .fails pc e _ _ hpc (TakePc.step_moves ht)
    · rename_i use1 sh1 ht
      cases h
      exact .empty pc _ _ hpc (TakePc.step_moves ht)
    · rename_i out use1 sh1 ht
      cases h
      exact .returns pc out _ _ hpc (TakePc.step_moves ht)
  · rename_i hpc
    split at h
    · rename_i e he
      cases h
      exact .dead e hpc he
    · split at h
      · cases h
        exact .waits _ hpc (Or.inl rfl)
      · cases h
        exact .waits _ hpc (Or.inr ⟨_, rfl⟩)
  · rename_i hpc
    cases h
    exact .again _ (Or.inl hpc)
  · rename_i gen hpc
    split_ifs at h
    cases h
    exact .again _ (Or.inr ⟨gen, hpc⟩)
  · rename_i gen hpc
    cases h
    exact .interrupted gen hpc
  · cases h

end ReadCall

/-! ## Opening -/

inductive OpenPc where
  | start
  /-- `send_open`: take a slot. -/
  | allocate
  /-- The OPEN is on its way. -/
  | sending (ch : ChannelId)
  /-- `await_open_ack`: `check_in_step`, the listener, the slot, `check_live`, the wait. -/
  | inStep (ch : ChannelId)
  | listen (ch : ChannelId)
  | look (ch : ChannelId) (gen : ℕ)
  | live (ch : ChannelId) (gen : ℕ)
  | parked (ch : ChannelId) (gen : ℕ)
  /-- `Drop for SlotGuard`, armed. -/
  | unguard (ch : ChannelId) (r : End)
  | opened (ch : ChannelId)
  | done (r : End)
  deriving DecidableEq, Repr

/-- The channel whose slot is guarded. -/
def OpenPc.guards : OpenPc → Option ChannelId
  | .sending ch | .inStep ch | .listen ch | .look ch _ | .live ch _ | .parked ch _ | .unguard ch _ => some ch
  | _ => none

/-- A call of `Writer::open_channel`. -/
structure OpenCall where
  destination : Bytes
  pc : OpenPc
  deriving DecidableEq, Repr

/-- The OPEN for a slot just taken. -/
def openPacket (ch : ChannelId) (destination : Bytes) : Packet :=
  ⟨.«open», ch.localId.raw, ng.advertisedCredit.getD 0, destination⟩

/-- The critical section of `send_open`, and the use of the write half that follows it. -/
def takeSlot (destination : Bytes) (sh : Shared) : Except Error (ChannelId × Use × Shared) :=
  match sh.channels.allocate with
  | none => .error .noFreeChannels
  | some (ch, channels) =>
    .ok (ch, .start (.send (openPacket ng ch destination)), { sh with channels := channels.insertOpening ch })

namespace OpenCall

def start (destination : Bytes) : OpenCall := ⟨destination, .start⟩

variable (c : OpenCall)

def goto (pc : OpenPc) : OpenCall := { c with pc }

def step (a : Act) (sh : Shared) : Option (OpenCall × Option Use × Shared) :=
  match c.pc, a with
  | .start, .go =>
    match sh.checkLive with
    | some e => some (c.goto (.done (.failed e)), none, sh)
    | none => some (c.goto .allocate, none, sh)
  | .allocate, .go =>
    match takeSlot ng c.destination sh with
    | .error e => some (c.goto (.done (.failed e)), none, sh)
    | .ok (ch, use, sh) => some (c.goto (.sending ch), some use, sh)
  | .inStep ch, .go =>
    match sh.checkInStep with
    | some e => some (c.goto (.unguard ch (.failed e)), none, sh)
    | none => some (c.goto (.listen ch), none, sh)
  | .listen ch, .go => some (c.goto (.look ch (sh.signals.getD ch.slot 0)), none, sh)
  | .look ch gen, .go =>
    match sh.channels.get ch with
    | none => some (c.goto (.unguard ch (.failed .channelClosed)), none, sh)
    | some slot =>
      match slot.state with
      | .opening => some (c.goto (.live ch gen), none, sh)
      | .«open» => some (c.goto (.opened ch), none, sh.note (.opened ch))
      | .closed =>
        if slot.ids.isNone then some (c.goto (.unguard ch (.failed slot.closedError)), none, sh)
        else some (c.goto (.opened ch), none, sh.note (.opened ch))
  | .live ch gen, .go =>
    match sh.checkLive with
    | some e => some (c.goto (.unguard ch (.failed e)), none, sh)
    | none => some (c.goto (.parked ch gen), none, sh)
  | .parked ch gen, .wake =>
    if gen < sh.signals.getD ch.slot 0 then some (c.goto (.inStep ch), none, sh) else none
  | .unguard ch r, .go => some (c.goto (.done r), none, sh.dropSlot ch)
  | _, _ => none

def resume (r : Option Error) : OpenCall :=
  match c.pc, r with
  | .sending ch, none => c.goto (.inStep ch)
  | .sending ch, some e => c.goto (.unguard ch (.failed e))
  | _, _ => c

def drop : Option OpenCall :=
  match c.pc with
  | .sending ch => some (c.goto (.unguard ch .dropped))
  | .parked ch _ => some (c.goto (.unguard ch .dropped))
  | _ => none

/-- `step`, taken apart. -/
inductive Moves (sh : Shared) : OpenCall → Option Use → Shared → Prop
  | idle (pc' : OpenPc) (h : c.pc.guards = none) (h' : pc'.guards = none) (hret : ∀ ch, pc' ≠ .opened ch) :
      Moves sh (c.goto pc') none sh
  | takes (ch : ChannelId) (u : Use) (sh' : Shared) (hpc : c.pc = .allocate)
      (h : takeSlot ng c.destination sh = .ok (ch, u, sh')) : Moves sh (c.goto (.sending ch)) (some u) sh'
  | waits (ch : ChannelId) (pc' : OpenPc) (h : c.pc.guards = some ch) (h' : pc'.guards = some ch)
      (hnot : pc' ≠ .sending ch) : Moves sh (c.goto pc') none sh
  | opened (ch : ChannelId) (gen : ℕ) (slot : ChannelSlot) (hpc : c.pc = .look ch gen)
      (hget : sh.channels.get ch = some slot)
      (hopen : slot.state = .«open» ∨ slot.state = .closed ∧ slot.ids.isSome) :
      Moves sh (c.goto (.opened ch)) none (sh.note (.opened ch))
  | unguards (ch : ChannelId) (r : End) (hpc : c.pc = .unguard ch r) : Moves sh (c.goto (.done r)) none (sh.dropSlot ch)

variable {ng c}

theorem step_moves {a : Act} {sh sh' : Shared} {c' : OpenCall} {use : Option Use}
    (h : c.step ng a sh = some (c', use, sh')) : c.Moves ng sh c' use sh' := by
  unfold step at h
  split at h
  · rename_i hpc
    split at h <;> (cases h; exact .idle _ (by rw [hpc]; rfl) rfl nofun)
  · rename_i hpc
    split at h
    · cases h
      exact .idle _ (by rw [hpc]; rfl) rfl nofun
    · rename_i ch u sh1 hslot
      cases h
      exact .takes ch u _ hpc hslot
  · rename_i ch hpc
    split at h <;> (cases h; exact .waits ch _ (by rw [hpc]; rfl) rfl nofun)
  · rename_i ch hpc
    cases h
    exact .waits ch _ (by rw [hpc]; rfl) rfl nofun
  · rename_i ch gen hpc
    have hguard : c.pc.guards = some ch := by rw [hpc]; rfl
    split at h
    · cases h
      exact .waits ch _ hguard rfl nofun
    · rename_i slot hget
      split at h
      · cases h
        exact .waits ch _ hguard rfl nofun
      · rename_i hstate
        cases h
        exact .opened ch gen slot hpc hget (Or.inl hstate)
      · rename_i hstate
        split_ifs at h with hids
        · cases h
          exact .waits ch _ hguard rfl nofun
        · cases h
          exact .opened ch gen slot hpc hget (Or.inr ⟨hstate, by simpa [Option.isSome_iff_ne_none] using hids⟩)
  · rename_i ch gen hpc
    split at h <;> (cases h; exact .waits ch _ (by rw [hpc]; rfl) rfl nofun)
  · rename_i ch gen hpc
    split_ifs at h
    cases h
    exact .waits ch _ (by rw [hpc]; rfl) rfl nofun
  · rename_i ch r hpc
    cases h
    exact .unguards ch r hpc
  · cases h

end OpenCall

end LibAdb.Split
