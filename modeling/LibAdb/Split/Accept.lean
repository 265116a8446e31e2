import LibAdb.Split.Use

/-!
# LibAdb.Split.Accept — requests the device makes

`split/accept.rs`: a `SplitIncoming` from the moment it is handed out to the end of its destructor, and
`IncomingListener::accept`.

A holder ends in two steps whichever way it goes, as its destructor does: a slot still reserved is freed, and then,
under the locks of the staged list and the queue, the entry in the list is removed and a request that is neither
decided nor withdrawn goes back to the head of the queue.
-/

namespace LibAdb.Split

variable [Usize] (ng : Negotiated)

/-! ## A request in hand -/

/-- How a verdict ends. -/
inductive HolderEnd where
  | accepted (ch : ChannelId)
  | rejected
  | failed (e : Error)
  | dropped
  deriving DecidableEq, Repr

inductive HolderPc where
  /-- In the application's hands. -/
  | held
  /-- `accept`: its critical section. -/
  | accept
  /-- READY is on its way, with a slot reserved. -/
  | readying (ch : ChannelId)
  /-- No slot was free: CLSE is on its way. -/
  | refusing
  /-- `reject`: look at the flag. -/
  | reject
  /-- CLSE is on its way. -/
  | rejecting
  /-- `Drop for SplitIncoming`: the reserved slot. -/
  | free (r : HolderEnd)
  /-- `Drop for SplitIncoming`: the staged list and the queue. -/
  | unstage (r : HolderEnd)
  | done (r : HolderEnd)
  deriving DecidableEq, Repr

structure HolderCall where
  holder : Holder
  pc : HolderPc
  deriving DecidableEq, Repr

/-- READY for a request that gets channel `ch`. -/
def readyPacket (ch : ChannelId) (remote : RemoteId) : Packet :=
  ⟨.ready, ch.localId.raw, remote.raw,
    match ng.advertisedCredit with
    | some credit => toLeBytes credit
    | none => []⟩

namespace HolderCall

variable (c : HolderCall)

def goto (pc : HolderPc) : HolderCall := { c with pc }

/-- `pending.take()` -/
def consume : HolderCall := { c with holder.pending := none }

def step (a : Act) (sh : Shared) : Option (HolderCall × Option Use × Shared) :=
  match c.pc, c.holder.pending, a with
  | .accept, some pending, .go =>
    if sh.isCancelled c.holder.flag then some (c.consume.goto (.free (.failed .channelClosed)), none, sh)
    else match sh.channels.allocate with
      | none => some (c.goto .refusing, some (.start (.answer (Packet.refuse pending.remote))), sh)
      | some (ch, channels) =>
        some ({ c with holder.reserved := some ch, pc := .readying ch },
          some (.start (.answer (readyPacket ng ch pending.remote))),
          { sh with channels := channels.insertAccepted ch pending.remote pending.credit })
  | .reject, some pending, .go =>
    if sh.isCancelled c.holder.flag then some (c.consume.goto (.free .rejected), none, sh)
    else some (c.goto .rejecting, some (.start (.answer (Packet.refuse pending.remote))), sh)
  | .free r, _, .go =>
    match c.holder.reserved with
    | some ch =>
      some ({ c with holder.reserved := none, pc := .unstage r }, none,
        { sh with channels := sh.channels.freed ch })
    | none => some (c.goto (.unstage r), none, sh)
  | .unstage r, pending, .go =>
    let sh := { sh with staged := sh.staged.filter fun entry => entry.2 ≠ c.holder.flag }
    let c := c.consume.goto (.done r)
    match pending with
    | some pending =>
      if sh.isCancelled c.holder.flag then some (c, none, sh)
      else some (c, none,
        { sh with
          incoming := pending :: sh.incoming
          incomingSignal := sh.incomingSignal + 1 })
    | none => some (c, none, sh)
  | _, _, _ => none

/-- `answer` returns: a verdict that was written, or that found the device gone, consumes the request. -/
def resume (r : Option Error) : HolderCall :=
  let c := if r.all connectionGone then c.consume else c
  match c.pc, r with
  | .readying ch, none => { c with holder.reserved := none, pc := .free (.accepted ch) }
  | .refusing, none => c.goto (.free (.failed .noFreeChannels))
  | .rejecting, none => c.goto (.free .rejected)
  | .readying _, some e => c.goto (.free (.failed e))
  | .refusing, some e => c.goto (.free (.failed e))
  | .rejecting, some e => c.goto (.free (.failed e))
  | _, _ => c

def drop : Option HolderCall :=
  match c.pc with
  | .held => some (c.goto (.free .dropped))
  | .readying _ => some (c.goto (.free .dropped))
  | .refusing => some (c.goto (.free .dropped))
  | .rejecting => some (c.goto (.free .dropped))
  | _ => none

/-- `step`, taken apart. -/
inductive Moves (sh : Shared) : HolderCall → Option Use → Shared → Prop
  | withdrawn (pending : PendingOpen) (r : HolderEnd) (hpc : c.pc = .accept ∨ c.pc = .reject)
      (hp : c.holder.pending = some pending) (hflag : sh.isCancelled c.holder.flag = true) :
      Moves sh (c.consume.goto (.free r)) none sh
  | noSlot (pending : PendingOpen) (hpc : c.pc = .accept) (hp : c.holder.pending = some pending)
      (hflag : sh.isCancelled c.holder.flag = false) :
      Moves sh (c.goto .refusing) (some (.start (.answer (Packet.refuse pending.remote)))) sh
  | reserves (pending : PendingOpen) (ch : ChannelId) (channels : ChannelTable) (hpc : c.pc = .accept)
      (hp : c.holder.pending = some pending) (hflag : sh.isCancelled c.holder.flag = false)
      (halloc : sh.channels.allocate = some (ch, channels)) :
      Moves sh { c with holder.reserved := some ch, pc := .readying ch }
        (some (.start (.answer (readyPacket ng ch pending.remote))))
        { sh with channels := channels.insertAccepted ch pending.remote pending.credit }
  | rejects (pending : PendingOpen) (hpc : c.pc = .reject) (hp : c.holder.pending = some pending)
      (hflag : sh.isCancelled c.holder.flag = false) :
      Moves sh (c.goto .rejecting) (some (.start (.answer (Packet.refuse pending.remote)))) sh
  | frees (r : HolderEnd) (ch : ChannelId) (hpc : c.pc = .free r) (hr : c.holder.reserved = some ch) :
      Moves sh { c with holder.reserved := none, pc := .unstage r } none
        { sh with channels := sh.channels.freed ch }
  | noneReserved (r : HolderEnd) (hpc : c.pc = .free r) (hr : c.holder.reserved = none) :
      Moves sh (c.goto (.unstage r)) none sh
  | ends (r : HolderEnd) (hpc : c.pc = .unstage r)
      (hdone : c.holder.pending = none ∨ sh.isCancelled c.holder.flag = true) :
      Moves sh (c.consume.goto (.done r)) none
        { sh with staged := sh.staged.filter fun entry => entry.2 ≠ c.holder.flag }
  | returns (r : HolderEnd) (pending : PendingOpen) (hpc : c.pc = .unstage r) (hp : c.holder.pending = some pending)
      (hflag : sh.isCancelled c.holder.flag = false) :
      Moves sh (c.consume.goto (.done r)) none
        { sh with
          staged := sh.staged.filter fun entry => entry.2 ≠ c.holder.flag
          incoming := pending :: sh.incoming
          incomingSignal := sh.incomingSignal + 1 }

variable {ng c}

theorem step_moves {a : Act} {sh sh' : Shared} {c' : HolderCall} {use : Option Use}
    (h : c.step ng a sh = some (c', use, sh')) : c.Moves ng sh c' use sh' := by
  unfold step at h
  split at h
  · rename_i pending hpc hp
    split_ifs at h with hflag
    · cases h
      exact .withdrawn pending _ (Or.inl hpc) hp hflag
    · have hflag' : sh.isCancelled c.holder.flag = false := by simpa using hflag
      split at h
      · cases h
        exact .noSlot pending hpc hp hflag'
      · rename_i ch channels halloc
        cases h
        exact .reserves pending ch channels hpc hp hflag' halloc
  · rename_i pending hpc hp
    split_ifs at h with hflag
    · cases h
      exact .withdrawn pending _ (Or.inr hpc) hp hflag
    · cases h
      exact .rejects pending hpc hp (by simpa using hflag)
  · rename_i r hpc
    split at h
    · rename_i ch hr
      cases h
      exact .frees r ch hpc hr
    · rename_i hr
      cases h
      exact .noneReserved r hpc hr
  · rename_i r hpc
    dsimp only at h
    split at h
    · rename_i pending hp
      split_ifs at h with hflag
      · cases h
        exact .ends r hpc (Or.inr hflag)
      · cases h
        exact .returns r pending hpc hp (by simpa [Shared.isCancelled, consume, goto] using hflag)
    · rename_i hp
      cases h
      exact .ends r hpc (Or.inl hp)
  · cases h

end HolderCall

/-! ## Waiting for a request -/

inductive ListenPc where
  | start
  | take
  | live
  /-- Make the listener. -/
  | listen
  | waiting (gen : ℕ)
  /-- The request is returned. -/
  | handOver (h : Holder)
  | done (r : End)
  deriving DecidableEq, Repr

/-- A call of `IncomingListener::accept`. -/
structure ListenCall where
  listener : Option ℕ
  pc : ListenPc
  deriving DecidableEq, Repr

namespace ListenCall

def start : ListenCall := ⟨none, .start⟩

variable (c : ListenCall)

def goto (pc : ListenPc) : ListenCall := { c with pc }

def step (a : Act) (sh : Shared) : Option (ListenCall × Option Use × Shared) :=
  match c.pc, a with
  | .start, .go =>
    match if sh.desync then sh.checkLive else none with
    | some e => some (c.goto (.done (.failed e)), none, sh)
    | none => some (c.goto .take, none, sh)
  | .take, .go =>
    match sh.handOut with
    | some (h, sh) => some (c.goto (.handOver h), none, sh)
    | none => some (c.goto .live, none, sh)
  | .live, .go =>
    match sh.checkLive, c.listener with
    | some e, _ => some (c.goto (.done (.failed e)), none, sh)
    | none, some gen => some (c.goto (.waiting gen), none, sh)
    | none, none => some (c.goto .listen, none, sh)
  | .listen, .go => some ({ c with listener := some sh.incomingSignal, pc := .start }, none, sh)
  | .waiting gen, .wake =>
    if gen < sh.incomingSignal then some ({ c with listener := none, pc := .start }, none, sh) else none
  | _, _ => none

def drop : Option ListenCall :=
  match c.pc with
  | .waiting _ => some (c.goto (.done .dropped))
  | _ => none

/-- `step`, taken apart. -/
inductive Moves (sh : Shared) : ListenCall → Option Use → Shared → Prop
  | idle (c' : ListenCall) (hpc : ∀ h, c.pc ≠ .handOver h) (hpc' : ∀ h, c'.pc ≠ .handOver h) : Moves sh c' none sh
  | takes (h : Holder) (sh' : Shared) (hpc : c.pc = .take) (hout : sh.handOut = some (h, sh')) :
      Moves sh (c.goto (.handOver h)) none sh'

variable {c}

omit [Usize] in
theorem step_moves {a : Act} {sh sh' : Shared} {c' : ListenCall} {use : Option Use}
    (h : c.step a sh = some (c', use, sh')) : c.Moves sh c' use sh' := by
  unfold step at h
  split at h
  · rename_i hpc
    split at h <;> (cases h; exact .idle _ (by simp [hpc]) nofun)
  · rename_i hpc
    split at h
    · rename_i hd sh1 hout
      cases h
      exact .takes hd _ hpc hout
    · cases h
      exact .idle _ (by simp [hpc]) nofun
  · rename_i hpc
    split at h <;> (cases h; exact .idle _ (by simp [hpc]) nofun)
  · rename_i hpc
    cases h
    exact .idle _ (by simp [hpc]) nofun
  · rename_i hpc
    split_ifs at h
    cases h
    exact .idle _ (by simp [hpc]) nofun
  · cases h

end ListenCall

end LibAdb.Split
