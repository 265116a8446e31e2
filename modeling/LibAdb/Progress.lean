import LibAdb.Base.Connection
import LibAdb.Split.Writer

/-!
# LibAdb.Progress — a pass of a write loop sends something

With delayed ack the credit of a channel is an `i64` sum of grants, and `budget` hands it out as a `usize`.
`CreditStep` is everything that moves it: READYs, what the loop of `Connection::write_channel` spends, what
`Writer::write_channel` reserves, writes or gives back.  `Solvent` is what every history keeps.

On a 64-bit host the budget is the sum itself.  On a 32-bit one the cast keeps the low half, so a sum of `2^32` is a
budget of nothing: the loops take that for credit and send empty WRTEs (`budget_truncated`).
-/

namespace LibAdb

variable [Usize]

/-! ## The credit of a channel -/

/-- A channel's slot, all the credit it was granted, and what writers have reserved and not yet settled. -/
structure CreditAccount where
  slot : ChannelSlot
  granted : ℕ
  reserved : ℕ

namespace CreditAccount

/-- A channel that has just opened with delayed ack, by the device's READY or by an accepted OPEN. -/
inductive Opened : CreditAccount → Prop
  | ready (slot slot' : ChannelSlot) (remote : RemoteId) (payload : Bytes) (hack : slot.policy.ack = .delayed)
      (h : slot.acceptOpenReady remote payload = .ok slot') : Opened ⟨slot', AckMode.delayed.grant payload, 0⟩
  | accepted (ids : ChannelIds) (credit : UInt32) (policy : RxPolicy) (hack : policy.ack = .delayed) :
      Opened ⟨ChannelSlot.accepted ids credit policy, credit.toNat, 0⟩

/-- One operation on the channel. -/
inductive Step (a : CreditAccount) : CreditAccount → Prop
  | grant (payload : Bytes) (slot' : ChannelSlot) (h : a.slot.applyReady payload = .ok slot') :
      Step a ⟨slot', a.granted + AckMode.delayed.grant payload, a.reserved⟩
  | spend (n b : ℕ) (hb : a.slot.budget = some b) (hn : n ≤ b) : Step a ⟨a.slot.spend n, a.granted, a.reserved⟩
  | reserve (want n : ℕ) (slot' : ChannelSlot) (h : a.slot.tryReserveSend want = some (n, slot')) :
      Step a ⟨slot', a.granted, a.reserved + n⟩
  | written (n : ℕ) (hn : n ≤ a.reserved) : Step a ⟨a.slot, a.granted, a.reserved - n⟩
  | refund (n : ℕ) (hn : n ≤ a.reserved) : Step a ⟨a.slot.refund n, a.granted, a.reserved - n⟩
  | other (slot' : ChannelSlot) (h : a.slot.SendSide slot') : Step a ⟨slot', a.granted, a.reserved⟩

/-- What is left and what is reserved were granted. -/
structure Solvent (a : CreditAccount) : Prop where
  delayed : a.slot.policy.ack = .delayed
  nonneg : 0 ≤ a.slot.sendBudget
  covered : a.slot.sendBudget + a.reserved ≤ a.granted

variable {a b : CreditAccount}

omit [Usize] in
theorem Opened.solvent (h : a.Opened) : a.Solvent := by
  cases h with
  | ready slot slot' remote payload hack h =>
    unfold ChannelSlot.acceptOpenReady at h
    rw [if_pos hack] at h
    cases hp : parseReadyCredit payload with
    | error e => rw [hp] at h; cases h
    | ok credit =>
      rw [hp] at h
      cases h
      refine ⟨hack, Int.natCast_nonneg _, ?_⟩
      simp [AckMode.grant, hp]
  | accepted ids credit policy hack =>
    refine ⟨hack, ?_, ?_⟩
    · simp [ChannelSlot.accepted, hack]
    · simp [ChannelSlot.accepted, hack]

theorem Step.granted_le (h : a.Step b) : a.granted ≤ b.granted := by
  cases h with
  | grant payload slot' h => exact Nat.le_add_right _ _
  | _ => exact le_rfl

/-- A budget is never more than there is. -/
theorem Solvent.budget_le (ha : a.Solvent) {n : ℕ} (h : a.slot.budget = some n) : (n : ℤ) ≤ a.slot.sendBudget := by
  have hmod := Nat.mod_le a.slot.sendBudget.toNat (2 ^ Usize.bits)
  unfold ChannelSlot.budget at h
  rw [ha.delayed] at h
  dsimp only at h
  split_ifs at h with hpos
  cases h
  omega

omit [Usize] in
theorem spend_delayed {s : ChannelSlot} (h : s.policy.ack = .delayed) (n : ℕ) :
    s.spend n = { s with sendBudget := wrapI64 (s.sendBudget - n) } := by
  unfold ChannelSlot.spend
  rw [h]

omit [Usize] in
theorem refund_delayed {s : ChannelSlot} (h : s.policy.ack = .delayed) (n : ℕ) :
    s.refund n = { s with sendBudget := wrapI64 (s.sendBudget + n) } := by
  unfold ChannelSlot.refund
  rw [h]

theorem Solvent.step (ha : a.Solvent) (h : a.Step b) (hlimit : b.granted < 2 ^ 63) : b.Solvent := by
  obtain ⟨hack, hnonneg, hcov⟩ := ha
  cases h with
  | grant payload slot' h =>
    obtain ⟨-, rfl⟩ | ⟨hclassic, -⟩ := ChannelSlot.applyReady_ok h
    · dsimp only at hlimit
      have hwrap : wrapI64 (a.slot.sendBudget + AckMode.delayed.grant payload) =
          a.slot.sendBudget + AckMode.delayed.grant payload := wrapI64_of_range (by omega) (by omega)
      refine ⟨hack, ?_, ?_⟩ <;> dsimp only <;> rw [hwrap] <;> omega
    · rw [hack] at hclassic
      cases hclassic
  | spend n b hb hn =>
    have hle := Solvent.budget_le ⟨hack, hnonneg, hcov⟩ hb
    dsimp only at hlimit
    have hwrap : wrapI64 (a.slot.sendBudget - n) = a.slot.sendBudget - n :=
      wrapI64_of_range (by omega) (by omega)
    rw [spend_delayed hack]
    refine ⟨hack, ?_, ?_⟩ <;> dsimp only <;> rw [hwrap] <;> omega
  | reserve want n slot' h =>
    obtain ⟨rfl, -, ⟨-, hle⟩ | ⟨hclassic, -⟩⟩ := ChannelSlot.tryReserveSend_some h
    · dsimp only at hlimit
      have hwrap : wrapI64 (a.slot.sendBudget - n) = a.slot.sendBudget - n :=
        wrapI64_of_range (by omega) (by omega)
      rw [spend_delayed hack]
      refine ⟨hack, ?_, ?_⟩ <;> dsimp only <;> rw [hwrap] <;> push_cast <;> omega
    · rw [hack] at hclassic
      cases hclassic
  | written n hn => exact ⟨hack, hnonneg, by dsimp only; omega⟩
  | refund n hn =>
    dsimp only at hlimit
    have hwrap : wrapI64 (a.slot.sendBudget + n) = a.slot.sendBudget + n :=
      wrapI64_of_range (by omega) (by omega)
    rw [refund_delayed hack]
    refine ⟨hack, ?_, ?_⟩ <;> dsimp only <;> rw [hwrap] <;> omega
  | other slot' h => exact ⟨h.policy ▸ hack, h.sendBudget.symm ▸ hnonneg, h.sendBudget.symm ▸ hcov⟩

/-- **Every history is solvent**, as long as all that was granted fits the sum. -/
theorem solvent_of_history {start : CreditAccount} (hstart : start.Opened)
    (hrun : Relation.ReflTransGen Step start a) (hlimit : a.granted < 2 ^ 63) : a.Solvent := by
  induction hrun with
  | refl => exact hstart.solvent
  | tail _ hstep ih => exact (ih (lt_of_le_of_lt hstep.granted_le hlimit)).step hstep hlimit

/-- The cast gives the sum itself, on a wide `usize` or for a short sum. -/
theorem Solvent.budget_pos (ha : a.Solvent) (hlimit : a.granted < 2 ^ 63)
    (hfits : Usize.bits = 64 ∨ a.granted < 2 ^ 32) {n : ℕ} (h : a.slot.budget = some n) : 1 ≤ n := by
  obtain ⟨hack, hnonneg, hcov⟩ := ha
  have hbits : (a.slot.sendBudget).toNat < 2 ^ Usize.bits := by
    rcases Usize.supported with hb | hb
    · rw [hb]
      rcases hfits with hw | hs
      · rw [hb] at hw
        cases hw
      · omega
    · rw [hb]
      omega
  unfold ChannelSlot.budget at h
  rw [hack] at h
  dsimp only at h
  split_ifs at h with hpos
  rw [Nat.mod_eq_of_lt hbits] at h
  cases h
  omega

end CreditAccount

/-! ## The loops -/

namespace Connection

open ConnM

variable (ng : Negotiated)

/-- A pass of the loop of `write_channel` behind `wait_ack`, and the passes after it: `payload` goes out as a WRTE,
is spent, and the loop is behind it. -/
def sendingPass (ch : ChannelId) (data : Bytes) (rounds chunks offset : ℕ) (payload : Bytes) : ConnM Unit := do
  let s ← state
  let ids ← lift (s.table.ids ch)
  send (.raw .write ids payload ng.checksum)
  let slot ← slotMut ch
  putSlot ch (slot.spend payload.length)
  writeLoop ng ch data rounds chunks (offset + payload.length)

variable {ng}

/-- A pass, once `wait_ack` has returned: the payload is as long as the rest, the limit and the budget allow. -/
theorem writeLoop_pass {ch : ChannelId} {data : Bytes} {rounds offset b : ℕ} {s s1 : Connection}
    {slot : ChannelSlot} (hleft : offset < data.length) (hwait : waitAck ng ch rounds s = (.ok (), s1))
    (hget : s1.table.get ch = some slot) (hb : slot.budget = some b) (chunks : ℕ) :
    writeLoop ng ch data rounds (chunks + 1) offset s =
      sendingPass ng ch data rounds chunks offset
        ((data.drop offset).take (min (min (data.length - offset) (max ng.maxPayload.toNat 1)) b)) s1 := by
  have hlen : ((data.drop offset).take (min (min (data.length - offset) (max ng.maxPayload.toNat 1)) b)).length =
      min (min (data.length - offset) (max ng.maxPayload.toNat 1)) b := by
    rw [List.length_take, List.length_drop]
    omega
  rw [writeLoop, if_pos hleft, bind_of_ok hwait, bind_of_ok (slotMut_of_get hget), hb, Option.getD_some]
  simp only [sendingPass, hlen]

/-- `wait_ack` returns with the channel's slot in place and credit to spend. -/
theorem waitAck_ok {ch : ChannelId} {rounds : ℕ} {s s1 : Connection} (h : waitAck ng ch rounds s = (.ok (), s1)) :
    ∃ slot b, s1.table.get ch = some slot ∧ slot.budget = some b := by
  induction rounds generalizing s with
  | zero => cases h
  | succ rounds ih =>
    unfold waitAck at h
    obtain ⟨slot, s2, hslot, hloop⟩ := bind_eq_ok h
    obtain ⟨hget, rfl⟩ := slotMut_ok hslot
    split_ifs at hloop with hclosed hbudget
    · cases hloop
    · cases hloop
      obtain ⟨b, hb⟩ := Option.isSome_iff_exists.mp hbudget
      exact ⟨slot, b, hget, hb⟩
    · -- nothing to spend: a packet is awaited, and whatever it is the loop goes round or fails
      rw [state_bind] at hloop
      obtain ⟨ids, s3, -, hpkt⟩ := bind_eq_ok hloop
      obtain ⟨pkt, s4, -, hact⟩ := bind_eq_ok hpkt
      split_ifs at hact
      · rw [state_bind] at hact
        cases hnow : s4.table.get ch with
        | none =>
          rw [hnow] at hact
          exact ih hact
        | some now =>
          rw [hnow] at hact
          dsimp only at hact
          cases happly : now.applyReady pkt.data with
          | error e =>
            rw [happly] at hact
            cases hact
          | ok now' =>
            rw [happly] at hact
            obtain ⟨-, s5, -, hagain⟩ := bind_eq_ok hact
            exact ih hagain
      · exact absurd hact (closedByDevice_ne_ok ch)
      · obtain ⟨-, s5, -, hagain⟩ := bind_eq_ok hact
        exact ih hagain

end Connection

namespace Split.WriteCall

variable {ng : Negotiated} {c : WriteCall}

/-- What is reserved is what there is, as far as it is wanted. -/
theorem tryReserve_amount {place n : ℕ} {sh sh' : Shared} {slot : ChannelSlot}
    (hget : sh.channels.get c.ch = some slot) (h : c.tryReserve ng place sh = .ok (some (n, sh'))) :
    ∃ b, slot.budget = some b ∧ n = min b (c.want ng) := by
  unfold tryReserve at h
  rw [hget] at h
  dsimp only at h
  split_ifs at h with hclosed hturn
  · cases h
  unfold ChannelSlot.tryReserveSend at h
  cases hb : slot.budget with
  | none => rw [hb] at h; cases h
  | some b =>
    rw [hb] at h
    simp only [Option.map_some, Except.ok.injEq, Option.some.injEq, Prod.mk.injEq] at h
    exact ⟨b, rfl, h.1.symm⟩

omit [Usize] in
theorem chunk_ne_nil {n : ℕ} (hleft : c.offset < c.data.length) (hn : 1 ≤ n) : c.chunk n ≠ [] := by
  apply List.ne_nil_of_length_pos
  rw [chunk, List.length_take, List.length_drop]
  omega

end Split.WriteCall

/-! ## Progress -/

open CreditAccount in
/-- **Writers make progress** on a channel whose grants fit the sum and, on a 32-bit host, a `usize`.  A budget is at
least one byte and no more than there is; so a pass of the loop of `Connection::write_channel` sends a WRTE that is
not empty, and so does one of `Writer::write_channel` that gets its reservation. -/
theorem writers_progress {start a : CreditAccount} (hstart : start.Opened)
    (hrun : Relation.ReflTransGen Step start a) (hlimit : a.granted < 2 ^ 63)
    (hfits : Usize.bits = 64 ∨ a.granted < 2 ^ 32) :
    (∀ n, a.slot.budget = some n → 1 ≤ n ∧ (n : ℤ) ≤ a.slot.sendBudget) ∧
    (∀ (ng : Negotiated) (ch : ChannelId) (data : Bytes) (rounds chunks offset : ℕ) (s s1 : Connection),
      offset < data.length → Connection.waitAck ng ch rounds s = (.ok (), s1) →
      s1.table.get ch = some a.slot →
        ∃ payload, payload ≠ [] ∧ Connection.writeLoop ng ch data rounds (chunks + 1) offset s =
          Connection.sendingPass ng ch data rounds chunks offset payload s1) ∧
    (∀ (ng : Negotiated) (c : Split.WriteCall) (place gen n : ℕ) (sh sh' : Split.Shared),
      c.offset < c.data.length → c.pc = .reserve place gen → sh.channels.get c.ch = some a.slot →
      c.step ng .go sh = some (c.goto (.reserved n), none, sh') →
        ∀ sh1 ids, sh1.channels.ids c.ch = .ok ids →
          ∃ payload, payload ≠ [] ∧ (c.goto (.reserved n)).step ng .go sh1 =
            some (c.goto (.sending n),
              some (.start (.send ⟨.write, ids.localId.raw, ids.remote.raw, payload⟩)), sh1)) := by
  have hsolvent := solvent_of_history hstart hrun hlimit
  have hpos : ∀ n, a.slot.budget = some n → 1 ≤ n := fun n h => hsolvent.budget_pos hlimit hfits h
  refine ⟨fun n h => ⟨hpos n h, hsolvent.budget_le h⟩, ?_, ?_⟩
  · intro ng ch data rounds chunks offset s s1 hleft hwait hget
    obtain ⟨slot, b, hget', hb⟩ := Connection.waitAck_ok hwait
    rw [hget, Option.some.injEq] at hget'
    subst hget'
    refine ⟨_, ?_, Connection.writeLoop_pass hleft hwait hget hb chunks⟩
    have hb1 := hpos b hb
    apply List.ne_nil_of_length_pos
    rw [List.length_take, List.length_drop]
    omega
  · intro ng c place gen n sh sh' hleft hpc hget hstep sh1 ids hids
    have hres : c.tryReserve ng place sh = .ok (some (n, sh')) := by
      simp only [Split.WriteCall.step, hpc] at hstep
      split at hstep
      · cases hstep
      · cases hstep
      · rename_i n1 sh2 hres
        cases hstep
        exact hres
    obtain ⟨b, hb, hn⟩ := Split.WriteCall.tryReserve_amount hget hres
    have hb1 := hpos b hb
    have hn1 : 1 ≤ n := by
      unfold Split.WriteCall.want at hn
      omega
    refine ⟨c.chunk n, Split.WriteCall.chunk_ne_nil hleft hn1, ?_⟩
    simp only [Split.WriteCall.step, Split.WriteCall.goto_pc, Split.WriteCall.goto_ch, hids]
    rfl

omit [Usize] in
/-- A channel of a 32-bit host that was granted 1024 bytes and has spent half. -/
theorem writers_progress_half_spent :
    letI := usize32
    let policy : RxPolicy := ConnectionConfig.embedded.rxPolicy .delayed
    let slot := (ChannelSlot.accepted ⟨⟨1⟩, ⟨7⟩⟩ 1024 policy).spend 512
    slot.budget = some 512 ∧ 1 ≤ 512 := by
  let u := usize32
  have hstart : CreditAccount.Opened
      ⟨.accepted ⟨⟨1⟩, ⟨7⟩⟩ 1024 (ConnectionConfig.embedded.rxPolicy .delayed), 1024, 0⟩ :=
    .accepted ⟨⟨1⟩, ⟨7⟩⟩ 1024 _ rfl
  have hrun := Relation.ReflTransGen.single
    (CreditAccount.Step.spend (a := ⟨.accepted ⟨⟨1⟩, ⟨7⟩⟩ 1024 (ConnectionConfig.embedded.rxPolicy .delayed), 1024, 0⟩)
      512 1024 (by decide +kernel) (by decide))
  have hb : ((ChannelSlot.accepted ⟨⟨1⟩, ⟨7⟩⟩ 1024 (ConnectionConfig.embedded.rxPolicy .delayed)).spend 512).budget =
    some 512 := by decide +kernel
  exact ⟨hb, ((writers_progress hstart hrun (by norm_num) (.inr (by norm_num))).1 512 hb).1⟩

omit [Usize] in
/-- Two grants that come to `2^32` on a 32-bit host: there is credit, and the budget is nothing. -/
theorem budget_truncated :
    letI := usize32
    let policy : RxPolicy := ConnectionConfig.embedded.rxPolicy .delayed
    ∃ slot, (ChannelSlot.accepted ⟨⟨1⟩, ⟨7⟩⟩ 0x80000000 policy).applyReady (toLeBytes 0x80000000) = .ok slot ∧
      slot.sendBudget = 2 ^ 32 ∧ slot.budget = some 0 := by
  exact ⟨_, rfl, by decide +kernel, by decide +kernel⟩

end LibAdb
