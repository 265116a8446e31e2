import LibAdb.Base.ChannelTable
import LibAdb.Lib.Runs

/-!
# LibAdb.Base.Handles — what a `ChannelId` names over a whole run of a table

A handle is a slot index and the local id the slot was filled with, and local ids are handed out by one 32-bit
counter that skips 0 (`base/channel_table.rs`, `allocate`).  This module follows a table through any sequence of
its operations and keeps, beside it, the handles whose channels were freed.

* `Unambiguous`: no two channels share a local id, none has id 0, and no freed handle resolves.
* The counter comes round after `2 ^ 32 - 1` ids and is not checked against the channels that are open, so
  `Unambiguous` needs `FreshId` at each insertion (`handles_unambiguous`); until the counter comes round that holds
  by itself.  `local_id_reused` is the run in which it does not.
-/

namespace LibAdb

open Runs

/-! ## Runs of a table -/

/-- One use of the table. `open` and `accept` are `allocate` followed by the insertion in the allocated slot. -/
inductive TableOp where
  | «open»
  | accept (remote : RemoteId) (credit : UInt32)
  | free (ch : ChannelId)
  | dispatch (pkt : Packet)

/-- A table, the handles whose channels were freed, and how many channels were inserted. -/
structure TableHistory where
  table : ChannelTable
  freed : List ChannelId
  inserted : ℕ

namespace TableHistory

def start (len : ℕ) (policy : RxPolicy) : TableHistory := ⟨.new len policy, [], 0⟩

/-- `allocate`, then the insertion that `fill` makes; with `NoFreeChannels` nothing happens. -/
def insert (s : TableHistory) (fill : ChannelTable → ChannelId → ChannelTable) : TableHistory :=
  match s.table.allocate with
  | none => s
  | some (ch, t) => { s with table := fill t ch, inserted := s.inserted + 1 }

/-- `free`, remembering the handle when it named a channel. -/
def release (s : TableHistory) (ch : ChannelId) : TableHistory :=
  match s.table.free ch with
  | none => s
  | some (_, t) => { s with table := t, freed := ch :: s.freed }

def step [Usize] (s : TableHistory) : TableOp → Option TableHistory
  | .«open» => some (s.insert fun t ch => t.insertOpening ch)
  | .accept remote credit => some (s.insert fun t ch => t.insertAccepted ch remote credit)
  | .free ch => some (s.release ch)
  | .dispatch pkt => some { s with table := (s.table.dispatch pkt).2 }

/-- Channel ids are unambiguous. -/
structure Unambiguous (s : TableHistory) : Prop where
  distinct : ∀ i j a b, s.table.at? i = some a → s.table.at? j = some b → a.localId = b.localId → i = j
  nonzero : ∀ i a, s.table.at? i = some a → a.localId.raw ≠ 0
  stale : ∀ ch ∈ s.freed, s.table.get ch = none ∧ s.table.ids ch = .error .channelClosed ∧ s.table.free ch = none

/-- The id an insertion is about to be given is not that of an open channel, nor that of a freed one in its slot. -/
def FreshId (s : TableHistory) : TableOp → Prop
  | .«open» | .accept _ _ => ∀ ch t, s.table.allocate = some (ch, t) →
      (∀ i a, s.table.at? i = some a → a.localId ≠ ch.localId) ∧ ch ∉ s.freed
  | _ => True

end TableHistory

namespace ChannelTable

/-! ## Local ids -/

/-- The local id of the channel in slot `i`. -/
def idAt (t : ChannelTable) (i : ℕ) : Option LocalId := (t.at? i).map ChannelSlot.localId

theorem idAt_eq_some {t : ChannelTable} {i : ℕ} {id : LocalId} :
    t.idAt i = some id ↔ ∃ a, t.at? i = some a ∧ a.localId = id := by
  simp [idAt]

theorem idAt_put_same {t : ChannelTable} {i : ℕ} {a b : ChannelSlot} (hat : t.at? i = some a)
    (hid : b.localId = a.localId) : (t.put i (some b)).idAt = t.idAt := by
  funext j
  by_cases hj : j = i
  · subst hj
    simp [idAt, at?_put_self _ (at?_lt hat), hat, hid]
  · simp [idAt, at?_put_ne _ hj]

/-- A handle resolves exactly when its slot has its id. -/
theorem get_isSome_iff {t : ChannelTable} {ch : ChannelId} : (t.get ch).isSome ↔ t.idAt ch.slot = some ch.localId := by
  rw [Option.isSome_iff_exists, idAt_eq_some]
  simp only [get_eq_some]

/-- A packet changes no local id. -/
theorem dispatch_idAt [Usize] (t : ChannelTable) (pkt : Packet) : (t.dispatch pkt).2.idAt = t.idAt := by
  have h := dispatch_spec t pkt
  generalize (t.dispatch pkt).1 = o at h
  generalize (t.dispatch pkt).2 = t' at h
  cases h with
  | closesRemote idx slot _ _ hat _ => exact idAt_put_same hat rfl
  | closes idx slot _ _ hat => exact idAt_put_same hat rfl
  | acks idx slot slot' ack _ _ hat _ happly => exact idAt_put_same hat (ChannelSlot.SendSide.applyWrite happly).localId
  | buffers idx slot slot' _ _ hat _ happly => exact idAt_put_same hat (ChannelSlot.SendSide.applyWrite happly).localId
  | accepts idx slot slot' _ _ hat _ _ happly =>
    obtain ⟨b, rfl⟩ := ChannelSlot.acceptOpenReady_ok happly
    exact idAt_put_same hat rfl
  | grants idx slot slot' _ _ hat _ _ happly =>
    obtain ⟨-, rfl⟩ | ⟨-, rfl⟩ := ChannelSlot.applyReady_ok happly
    · exact idAt_put_same hat rfl
    · exact idAt_put_same hat rfl
  | _ => rfl

theorem dispatch_nextLocalId [Usize] (t : ChannelTable) (pkt : Packet) :
    (t.dispatch pkt).2.nextLocalId = t.nextLocalId := by
  have h := dispatch_spec t pkt
  generalize (t.dispatch pkt).1 = o at h
  generalize (t.dispatch pkt).2 = t' at h
  cases h <;> rfl

/-- `next_local_id.wrapping_add(1).max(1)` -/
def nextId (n : UInt32) : UInt32 := max (n + 1) 1

theorem nextId_ne_zero (n : UInt32) : nextId n ≠ 0 := by
  unfold nextId
  rw [UInt32.max_def]
  split_ifs with h
  · decide
  · intro h0
    rw [h0] at h
    exact h (by decide)

/-- Until it comes round, the counter counts. -/
theorem nextId_toNat {n : UInt32} (h : n.toNat + 1 < 2 ^ 32) : (nextId n).toNat = n.toNat + 1 := by
  have hn : (n + 1).toNat = n.toNat + 1 := by
    rw [UInt32.toNat_add, UInt32.toNat_one, Nat.mod_eq_of_lt h]
  unfold nextId
  rw [UInt32.max_def]
  split_ifs with hle
  · rw [UInt32.le_iff_toNat_le, hn, UInt32.toNat_one] at hle
    rw [UInt32.toNat_one]
    omega
  · exact hn

end ChannelTable

namespace TableHistory

/-! ## What a step can do -/

/-- One step, seen through the local ids. -/
inductive Moves (s : TableHistory) (op : TableOp) (s' : TableHistory) : Prop
  | stays (hids : s'.table.idAt = s.table.idAt) (hnext : s'.table.nextLocalId = s.table.nextLocalId)
      (hfreed : s'.freed = s.freed) (hins : s'.inserted = s.inserted)
  | inserts (ch : ChannelId) (t : ChannelTable) (hop : op = .«open» ∨ ∃ r c, op = .accept r c)
      (halloc : s.table.allocate = some (ch, t)) (hfree : s.table.idAt ch.slot = none)
      (hids : s'.table.idAt = Function.update s.table.idAt ch.slot (some ch.localId))
      (hid : ch.localId.raw = s.table.nextLocalId)
      (hnext : s'.table.nextLocalId = ChannelTable.nextId s.table.nextLocalId)
      (hfreed : s'.freed = s.freed) (hins : s'.inserted = s.inserted + 1)
  | frees (ch : ChannelId) (hnamed : s.table.idAt ch.slot = some ch.localId)
      (hids : s'.table.idAt = Function.update s.table.idAt ch.slot none)
      (hnext : s'.table.nextLocalId = s.table.nextLocalId) (hfreed : s'.freed = ch :: s.freed)
      (hins : s'.inserted = s.inserted)

theorem insert_moves (s : TableHistory) (op : TableOp) (hop : op = .«open» ∨ ∃ r c, op = .accept r c)
    (slot : ChannelId → RxPolicy → ChannelSlot) (hslot : ∀ ch p, (slot ch p).localId = ch.localId) :
    Moves s op (s.insert fun t ch => t.put ch.slot (some (slot ch t.policy))) := by
  unfold insert
  split
  · exact .stays rfl rfl rfl rfl
  · rename_i ch t halloc
    obtain ⟨hfree, hlt, hslots, hpolicy, hid⟩ := ChannelTable.allocate_spec halloc
    have hat : ∀ i, t.at? i = s.table.at? i := fun i => by simp only [ChannelTable.at?, hslots]
    refine .inserts ch t hop halloc (by simp [ChannelTable.idAt, hfree]) ?_ hid ?_ rfl rfl
    · funext j
      by_cases hj : j = ch.slot
      · subst hj
        rw [Function.update_self]
        simp only [ChannelTable.idAt, ChannelTable.at?_put_self _ (hslots ▸ hlt), Option.map_some, hslot]
      · rw [Function.update_of_ne hj]
        simp only [ChannelTable.idAt, ChannelTable.at?_put_ne _ hj, hat]
    · unfold ChannelTable.allocate at halloc
      split at halloc
      · cases halloc
      · cases halloc
        rfl

theorem release_moves (s : TableHistory) (op : TableOp) (ch : ChannelId) : Moves s op (s.release ch) := by
  unfold release ChannelTable.free
  cases hg : s.table.get ch with
  | none => exact .stays rfl rfl rfl rfl
  | some a =>
    refine .frees ch (ChannelTable.get_isSome_iff.mp (by simp [hg])) ?_ rfl rfl rfl
    have hlt := ChannelTable.at?_lt (ChannelTable.get_eq_some.mp hg).1
    funext j
    by_cases hj : j = ch.slot
    · subst hj
      simp [ChannelTable.idAt, ChannelTable.at?_put_self _ hlt]
    · simp [ChannelTable.idAt, ChannelTable.at?_put_ne _ hj, Function.update_of_ne hj]

theorem step_moves [Usize] {s s' : TableHistory} {op : TableOp} (h : s.step op = some s') : Moves s op s' := by
  cases op with
  | «open» =>
    cases h
    exact insert_moves s _ (.inl rfl) (fun ch p => .opening ch.localId p) fun _ _ => rfl
  | accept r c =>
    cases h
    exact insert_moves s _ (.inr ⟨r, c, rfl⟩) (fun ch p => .accepted ⟨ch.localId, r⟩ c p) fun _ _ => rfl
  | free ch =>
    cases h
    exact release_moves s _ ch
  | dispatch pkt =>
    cases h
    exact .stays (ChannelTable.dispatch_idAt _ _) (ChannelTable.dispatch_nextLocalId _ _) rfl rfl

/-! ## The invariants -/

/-- `Unambiguous`, on the local ids alone, with the counter. -/
structure Sound (s : TableHistory) : Prop where
  distinct : ∀ i j id, s.table.idAt i = some id → s.table.idAt j = some id → i = j
  nonzero : ∀ i id, s.table.idAt i = some id → id.raw ≠ 0
  next : s.table.nextLocalId ≠ 0
  stale : ∀ ch ∈ s.freed, s.table.idAt ch.slot ≠ some ch.localId

theorem Sound.unambiguous {s : TableHistory} (h : Sound s) : s.Unambiguous where
  distinct i j a b ha hb hab :=
    h.distinct i j a.localId (ChannelTable.idAt_eq_some.mpr ⟨a, ha, rfl⟩) (ChannelTable.idAt_eq_some.mpr ⟨b, hb, hab.symm⟩)
  nonzero i a ha := h.nonzero i _ (ChannelTable.idAt_eq_some.mpr ⟨a, ha, rfl⟩)
  stale ch hch := by
    have hnone : s.table.get ch = none := by
      rw [← Option.not_isSome_iff_eq_none, ChannelTable.get_isSome_iff]
      exact h.stale ch hch
    simp [ChannelTable.ids, ChannelTable.free, hnone]

theorem idAt_new (len : ℕ) (policy : RxPolicy) (i : ℕ) : (ChannelTable.new len policy).idAt i = none := by
  simp only [ChannelTable.idAt, ChannelTable.at?, ChannelTable.new, List.getElem?_replicate]
  split_ifs <;> rfl

theorem Sound.start (len : ℕ) (policy : RxPolicy) : Sound (start len policy) where
  distinct i j id hi _ := by
    rw [TableHistory.start, idAt_new] at hi
    cases hi
  nonzero i id hi := by
    rw [TableHistory.start, idAt_new] at hi
    cases hi
  next := show (1 : UInt32) ≠ 0 by decide
  stale ch hch := nomatch hch

/-- **A step with a fresh id keeps the ids apart.** -/
theorem Sound.step {s s' : TableHistory} {op : TableOp} (h : Sound s) (hfresh : s.FreshId op)
    (hm : Moves s op s') : Sound s' := by
  cases hm with
  | stays hids hnext hfreed hins =>
    refine ⟨?_, ?_, ?_, ?_⟩
    · rw [hids]; exact h.distinct
    · rw [hids]; exact h.nonzero
    · rw [hnext]; exact h.next
    · rw [hids, hfreed]; exact h.stale
  | inserts ch t hop halloc hfree hids hid hnext hfreed hins =>
    obtain ⟨hother, hnot⟩ : (∀ i a, s.table.at? i = some a → a.localId ≠ ch.localId) ∧ ch ∉ s.freed := by
      rcases hop with rfl | ⟨r, c, rfl⟩
      · exact hfresh ch t halloc
      · exact hfresh ch t halloc
    have hnew : ∀ i, s.table.idAt i ≠ some ch.localId := fun i hi => by
      obtain ⟨a, ha, hal⟩ := ChannelTable.idAt_eq_some.mp hi
      exact hother i a ha hal
    -- a slot other than the new channel's is as it was, and does not have the new id
    have hcase : ∀ i id, s'.table.idAt i = some id →
        (i = ch.slot ∧ id = ch.localId) ∨ (i ≠ ch.slot ∧ s.table.idAt i = some id ∧ id ≠ ch.localId) := by
      intro i id hi
      rw [hids] at hi
      by_cases hic : i = ch.slot
      · subst hic
        rw [Function.update_self, Option.some.injEq] at hi
        exact .inl ⟨rfl, hi.symm⟩
      · rw [Function.update_of_ne hic] at hi
        exact .inr ⟨hic, hi, fun heq => hnew i (heq ▸ hi)⟩
    refine ⟨?_, ?_, ?_, ?_⟩
    · intro i j id hi hj
      rcases hcase i id hi with ⟨rfl, rfl⟩ | ⟨-, hi, hne⟩
      · rcases hcase j _ hj with ⟨rfl, -⟩ | ⟨-, -, hne⟩
        · rfl
        · exact absurd rfl hne
      · rcases hcase j _ hj with ⟨-, rfl⟩ | ⟨-, hj, -⟩
        · exact absurd rfl hne
        · exact h.distinct i j id hi hj
    · intro i id hi
      rcases hcase i id hi with ⟨-, rfl⟩ | ⟨-, hi, -⟩
      · rw [hid]; exact h.next
      · exact h.nonzero i id hi
    · rw [hnext]; exact ChannelTable.nextId_ne_zero _
    · intro c hc hi
      rw [hfreed] at hc
      rcases hcase _ _ hi with ⟨hslot, hlocal⟩ | ⟨-, hi, -⟩
      · have heq : c = ch := by
          cases c
          cases hslot
          cases hlocal
          rfl
        exact hnot (heq ▸ hc)
      · exact h.stale c hc hi
  | frees ch hnamed hids hnext hfreed hins =>
    have hold : ∀ i id, s'.table.idAt i = some id → i ≠ ch.slot ∧ s.table.idAt i = some id := by
      intro i id hi
      rw [hids] at hi
      by_cases hic : i = ch.slot
      · subst hic
        rw [Function.update_self] at hi
        cases hi
      · rw [Function.update_of_ne hic] at hi
        exact ⟨hic, hi⟩
    refine ⟨?_, ?_, ?_, ?_⟩
    · exact fun i j id hi hj => h.distinct i j id (hold i id hi).2 (hold j id hj).2
    · exact fun i id hi => h.nonzero i id (hold i id hi).2
    · rw [hnext]; exact h.next
    · intro c hc hi
      obtain ⟨hne, hi⟩ := hold _ _ hi
      rw [hfreed, List.mem_cons] at hc
      rcases hc with rfl | hc
      · exact hne rfl
      · exact h.stale c hc hi

/-- Until the counter comes round: it is one past the insertions, and every id in use or freed is below it. -/
structure Counting (s : TableHistory) : Prop where
  next : s.inserted + 1 < 2 ^ 32 → s.table.nextLocalId.toNat = s.inserted + 1
  below : ∀ i id, s.table.idAt i = some id → s.inserted + 1 < 2 ^ 32 → id.raw.toNat < s.inserted + 1
  stale : ∀ ch ∈ s.freed, s.inserted + 1 < 2 ^ 32 → ch.localId.raw.toNat < s.inserted + 1

theorem Counting.start (len : ℕ) (policy : RxPolicy) : Counting (start len policy) where
  next _ := rfl
  below i id hi := by
    rw [TableHistory.start, idAt_new] at hi
    cases hi
  stale ch hch := nomatch hch

theorem Counting.step {s s' : TableHistory} {op : TableOp} (h : Counting s) (hm : Moves s op s') : Counting s' := by
  cases hm with
  | stays hids hnext hfreed hins =>
    refine ⟨?_, ?_, ?_⟩
    · rw [hins, hnext]; exact h.next
    · rw [hins, hids]; exact h.below
    · rw [hins, hfreed]; exact h.stale
  | inserts ch t hop halloc hfree hids hid hnext hfreed hins =>
    refine ⟨?_, ?_, ?_⟩
    · intro hlt
      have hnow := h.next (by omega)
      rw [hnext, ChannelTable.nextId_toNat (by omega), hnow, hins]
    · intro i id hi hlt
      rw [hids] at hi
      by_cases hic : i = ch.slot
      · subst hic
        rw [Function.update_self, Option.some.injEq] at hi
        have hnow := h.next (by omega)
        rw [← hi, hid, hnow, hins]
        omega
      · rw [Function.update_of_ne hic] at hi
        have := h.below i id hi (by omega)
        omega
    · intro c hc hlt
      have := h.stale c (hfreed ▸ hc) (by omega)
      omega
  | frees ch hnamed hids hnext hfreed hins =>
    refine ⟨?_, ?_, ?_⟩
    · rw [hins, hnext]; exact h.next
    · intro i id hi
      rw [hids] at hi
      by_cases hic : i = ch.slot
      · subst hic
        rw [Function.update_self] at hi
        cases hi
      · rw [Function.update_of_ne hic] at hi
        rw [hins]
        exact h.below i id hi
    · intro c hc
      rw [hfreed, List.mem_cons] at hc
      rw [hins]
      rcases hc with rfl | hc
      · exact h.below _ _ hnamed
      · exact h.stale c hc

/-- Before the counter comes round every insertion is given a fresh id. -/
theorem Counting.fresh {s : TableHistory} (h : Counting s) (hlt : s.inserted + 1 < 2 ^ 32) (op : TableOp) :
    s.FreshId op := by
  have key : ∀ ch t, s.table.allocate = some (ch, t) →
      (∀ i a, s.table.at? i = some a → a.localId ≠ ch.localId) ∧ ch ∉ s.freed := by
    intro ch t halloc
    have hid : ch.localId.raw.toNat = s.inserted + 1 := by
      rw [(ChannelTable.allocate_spec halloc).2.2.2.2]
      exact h.next hlt
    refine ⟨fun i a ha heq => ?_, fun hch => ?_⟩
    · have := h.below i _ (ChannelTable.idAt_eq_some.mpr ⟨a, ha, heq⟩) hlt
      omega
    · have := h.stale ch hch hlt
      omega
  cases op with
  | «open» => exact key
  | accept r c => exact key
  | free ch => trivial
  | dispatch pkt => trivial

section Results

variable [Usize]

/-- **Channel ids are unambiguous** in every run of a table whose insertions are all given a fresh id, and until
`2 ^ 32 - 1` channels have been inserted every insertion is. -/
theorem handles_unambiguous (len : ℕ) (policy : RxPolicy) (ops : List TableOp) (s : TableHistory) :
    (Run step FreshId (start len policy) ops s → s.Unambiguous) ∧
      (Run step Any (start len policy) ops s → s.inserted + 1 < 2 ^ 32 → ∀ op, s.FreshId op) := by
  constructor
  · intro hrun
    have hsound : Sound s := hrun.invariant (I := Sound) (.start len policy)
      fun a op b h hfresh hstep => h.step hfresh (step_moves hstep)
    exact hsound.unambiguous
  · intro hrun hlt
    have hcount : Counting s := hrun.invariant (I := Counting) (.start len policy)
      fun a op b h _ hstep => h.step (step_moves hstep)
    exact hcount.fresh hlt

end Results

/-- Fresh ids, one channel freed and its slot taken again: the old handle does not name the new channel. -/
theorem handles_unambiguous_refilled :
    ∃ s, Runs.exec (@step usize64) (start 1 ⟨.classic, 8, 4⟩) [.«open», .free ⟨0, ⟨1⟩⟩, .«open»] = some s ∧
      s.table.get ⟨0, ⟨1⟩⟩ = none := by
  have hone : FreshId (start 1 ⟨.classic, 8, 4⟩) .«open» :=
    (@handles_unambiguous usize64 1 ⟨.classic, 8, 4⟩ [] _).2 (.nil _) (by decide) _
  have htwo := (@handles_unambiguous usize64 1 ⟨.classic, 8, 4⟩ [.«open», .free ⟨0, ⟨1⟩⟩] _).2 (.of_exec rfl) (by decide)
    .«open»
  exact ⟨_, rfl, (((@handles_unambiguous usize64 1 ⟨.classic, 8, 4⟩ ([] ++ [.«open»] ++ [.free ⟨0, ⟨1⟩⟩] ++ [.«open»]) _).1
    (.snoc (.snoc (.snoc (.nil _) hone rfl) (show FreshId _ (.free _) from trivial) rfl) htwo rfl)).stale ⟨0, ⟨1⟩⟩ (List.mem_singleton_self _)).1⟩

/-! ## The counter comes round -/

section Reuse

/-- An open in slot 1, given up again. -/
def idCycle (n : UInt32) : List TableOp := [.«open», .free ⟨1, ⟨n⟩⟩]

variable {s : TableHistory} {a : ChannelSlot} {n : UInt32} {p : RxPolicy}

theorem idCycle_exec [Usize] (hs : s.table = ⟨[some a, none], n, p⟩) :
    ∃ s', exec step s (idCycle n) = some s' ∧ s'.table = ⟨[some a, none], ChannelTable.nextId n, p⟩ := by
  refine ⟨_, rfl, ?_⟩
  simp [release, insert, hs, ChannelTable.allocate, ChannelTable.insertOpening, ChannelTable.put, ChannelTable.free,
    ChannelTable.get, ChannelTable.at?, ChannelSlot.opening, List.findIdx?_cons, ChannelTable.nextId,
    Option.filter_some]

/-- `k` cycles take the counter `k` further. -/
theorem idCycles_run [Usize] (k : ℕ) (hs : s.table = ⟨[some a, none], n, p⟩) (hk : n.toNat + k < 2 ^ 32) :
    ∃ ops s' n', Run step Any s ops s' ∧ s'.table = ⟨[some a, none], n', p⟩ ∧ n'.toNat = n.toNat + k := by
  induction k with
  | zero => exact ⟨[], s, n, .nil s, hs, rfl⟩
  | succ k ih =>
    obtain ⟨ops, s1, n1, hrun, hs1, hn1⟩ := ih (by omega)
    obtain ⟨s2, hexec, hs2⟩ := idCycle_exec hs1
    refine ⟨ops ++ idCycle n1, s2, ChannelTable.nextId n1, hrun.append (.of_exec hexec), hs2, ?_⟩
    rw [ChannelTable.nextId_toNat (by omega), hn1]
    omega

/-- One channel stays open while `2 ^ 32 - 2` others come and go; the next one is given its id. -/
theorem local_id_reused :
    ∃ ops s, Run (@step usize64) Any (start 2 ⟨.classic, 8, 4⟩) ops s ∧ ¬ s.Unambiguous := by
  let a : ChannelSlot := .opening ⟨1⟩ ⟨.classic, 8, 4⟩
  have hfirst : Run (@step usize64) Any (start 2 ⟨.classic, 8, 4⟩) [.«open»]
      ⟨⟨[some a, none], 2, ⟨.classic, 8, 4⟩⟩, [], 1⟩ := .of_exec rfl
  obtain ⟨ops, s1, n1, hrun, hs1, hn1⟩ := @idCycles_run ⟨⟨[some a, none], 2, ⟨.classic, 8, 4⟩⟩, [], 1⟩ a 2
    ⟨.classic, 8, 4⟩ usize64 (2 ^ 32 - 3) rfl (by decide)
  have hmax : n1 = 2 ^ 32 - 1 := UInt32.toNat_inj.mp (by rw [hn1]; rfl)
  obtain ⟨s2, hexec, hs2⟩ := @idCycle_exec s1 a n1 ⟨.classic, 8, 4⟩ usize64 hs1
  have hone : ChannelTable.nextId n1 = 1 := by rw [hmax]; decide
  rw [hone] at hs2
  obtain ⟨t, f, k⟩ := s2
  subst hs2
  have hlast : Run (@step usize64) Any ⟨⟨[some a, none], 1, ⟨.classic, 8, 4⟩⟩, f, k⟩ [.«open»]
      ⟨⟨[some a, some a], 2, ⟨.classic, 8, 4⟩⟩, f, k + 1⟩ := .of_exec rfl
  refine ⟨_, _, ((hfirst.append hrun).append (.of_exec hexec)).append hlast, fun h => ?_⟩
  exact absurd (h.distinct 0 1 a a rfl rfl rfl) (by decide)

end Reuse

end TableHistory

end LibAdb
