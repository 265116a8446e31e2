import LibAdb.Base.Wire.Recv
import LibAdb.Lib.Slices

/-!
# LibAdb.Base.Wire.Bulk — receiving over USB bulk

On a bulk endpoint a read for `r` bytes is over when `r` bytes have come in or a transfer has ended with a short USB
packet; a transfer that fills its last packet ends nothing.  `recv_pkt` therefore must not ask for more than the packet
has, except where a short packet is sure to come: adbd sends the 24-byte header as a transfer of its own, and 24 is no
multiple of the packet size.

`recvLoopBulk` is the loop of `recv_pkt_or` with nothing to interrupt it, over such a transport; it notes what each
read asks for.  `bulk_never_waits`: every call returns its packet with nothing sent after it.
-/

namespace LibAdb

open Slices

/-! ## The transport -/

/-- The transfers that have arrived; of the first, `taken` bytes are used up. -/
structure BulkIn where
  transfers : List Bytes
  taken : ℕ

/-- A read for `want` bytes; `none` is one that waits for a later transfer. -/
def BulkIn.fill (maxPacket : ℕ) : List Bytes → ℕ → ℕ → Option (Bytes × BulkIn)
  | [], _, _ => none
  | t :: ts, taken, want =>
    let n := min want (t.length - taken)
    let finished := taken + n = t.length
    let left : BulkIn := if finished then ⟨ts, 0⟩ else ⟨t :: ts, taken + n⟩
    if n = want ∨ (finished ∧ t.length % maxPacket ≠ 0) then some (slice t taken (taken + n), left)
    else (BulkIn.fill maxPacket ts 0 (want - n)).map fun r => (slice t taken (taken + n) ++ r.1, r.2)

def BulkIn.read (maxPacket : ℕ) (t : BulkIn) (want : ℕ) : Option (Bytes × BulkIn) :=
  BulkIn.fill maxPacket t.transfers t.taken want

/-! ## The call -/

/-- What a read was issued with: the bytes buffered, and the bytes asked for. -/
structure Asked where
  buffered : ℕ
  want : ℕ

/-- How a call ended: what it returned, the receive buffer, the transport and the reads it issued. -/
structure BulkResult where
  result : Except Error Packet
  buf : Bytes
  transport : BulkIn
  asked : List Asked

variable [Usize]

/-- The loops of `recv_pkt_or`, for at most `fuel` reads; `none` is a call that is still waiting. -/
def recvLoopBulk (maxPacket : ℕ) (maxPayload : UInt32) : ℕ → Staged → BulkIn → List Asked → Option BulkResult
  | 0, _, _, _ => none
  | fuel + 1, st, t, asked =>
    let asked := asked ++ [⟨st.committed.length, st.room⟩]
    match t.read maxPacket st.room with
    | none => none
    | some (data, t) =>
      if data = [] then some ⟨.error .unexpectedEof, st.drop, t, asked⟩
      else
        let st := st.commit data
        if st.wantsMore then recvLoopBulk maxPacket maxPayload fuel st t asked
        else match Packet.decode maxPayload st.drop with
          | (.ok (some pkt), buf) => some ⟨.ok pkt, buf, t, asked⟩
          | (.error e, buf) => some ⟨.error (.protocol e), buf, t, asked⟩
          | (.ok none, buf) => recvLoopBulk maxPacket maxPayload fuel (.new buf) t asked

/-- `recv_pkt` -/
def recvPktBulk (maxPacket : ℕ) (maxPayload : UInt32) (fuel : ℕ) (buf : Bytes) (t : BulkIn) : Option BulkResult :=
  match Packet.decode maxPayload buf with
  | (.ok (some pkt), buf) => some ⟨.ok pkt, buf, t, []⟩
  | (.error e, buf) => some ⟨.error (.protocol e), buf, t, []⟩
  | (.ok none, buf) => recvLoopBulk maxPacket maxPayload fuel (.new buf) t []

/-! ## The device -/

/-- A packet as the device sends it: the header as one transfer, the payload in any others. -/
structure BulkSent where
  pkt : Packet
  checksum : Checksum
  pieces : List Bytes
  pieces_ne : ∀ p ∈ pieces, p ≠ []
  pieces_all : pieces.flatten = pkt.data
  data_le : pkt.data.length ≤ maxPayloadConst

namespace BulkSent

def frame (x : BulkSent) : Bytes := x.pkt.frame x.checksum

def header (x : BulkSent) : Bytes := x.frame.take messageSize

def transfers (x : BulkSent) : List Bytes := x.header :: x.pieces

omit [Usize] in
theorem length_frame (x : BulkSent) : x.frame.length = messageSize + x.pkt.data.length := by
  rw [frame, Packet.frame, List.length_append, Message.length_bytes]

omit [Usize] in
theorem length_header (x : BulkSent) : x.header.length = messageSize := by
  rw [header, List.length_take, length_frame]
  omega

omit [Usize] in
theorem header_append (x : BulkSent) : x.header ++ x.pkt.data = x.frame := by
  have hdrop : x.frame.drop messageSize = x.pkt.data := by
    rw [frame, Packet.frame, List.drop_left' (Message.length_bytes _)]
  rw [header, ← hdrop, List.take_append_drop]

omit [Usize] in
theorem announced_frame (x : BulkSent) : Packet.announced x.frame = x.frame.length := by
  have hlen : (UInt32.ofNat x.pkt.data.length).toNat = x.pkt.data.length := by
    rw [UInt32.toNat_ofNat']
    apply Nat.mod_eq_of_lt
    have := x.data_le
    unfold maxPayloadConst at this
    omega
  rw [length_frame, Packet.announced, frame, Packet.frame, Message.read_bytes]
  exact congrArg (messageSize + ·) hlen

variable {x : BulkSent} {k : ℕ}

/-- Once the header is in, `missing` is what the packet lacks. -/
theorem missing_take (hk : messageSize ≤ k) (hlt : k ≤ x.frame.length) :
    Packet.missing (x.frame.take k) = x.frame.length - k := by
  have hlen : (x.frame.take k).length = k := by
    rw [List.length_take]
    omega
  have hann : Packet.announced (x.frame.take k) = x.frame.length := by
    rw [← Packet.announced_append (x.frame.drop k) (hlen.symm ▸ hk), List.take_append_drop, announced_frame]
  have hbig : x.frame.length < 2 ^ Usize.bits := by
    have h32 : 2 ^ 32 - 1 ≤ usizeMax := u32Max_le_usizeMax
    have := x.data_le
    rw [length_frame]
    unfold usizeMax at h32
    unfold messageSize
    unfold maxPayloadConst at this
    omega
  rw [Packet.missing, hlen, if_neg (by omega), hann, Nat.mod_eq_of_lt hbig]

omit [Usize] in
/-- Nothing is decoded before the packet is whole. -/
theorem decode_take {maxPayload : UInt32} (hmax : x.pkt.data.length ≤ maxPayload.toNat) (hlt : k < x.frame.length) :
    Packet.decode maxPayload (x.frame.take k) = (.ok none, x.frame.take k) := by
  have hwhole : Packet.decode maxPayload x.frame = (.ok (some x.pkt), []) := by
    have h := Packet.decode_frame x.pkt x.checksum [] hmax x.data_le
    rwa [List.append_nil] at h
  have hdrop : x.frame.drop k ≠ [] := by
    rw [← List.length_pos_iff, List.length_drop]
    omega
  have hcases := Packet.decode_cases maxPayload (x.frame.take k)
  cases hd : Packet.decode maxPayload (x.frame.take k) with
  | mk r left =>
    rw [hd] at hcases
    -- an answer now would be the answer for the whole packet, which leaves nothing
    have habsurd : r ≠ .ok none → False := by
      intro hr
      have happ := Packet.decode_append hd hr (x.frame.drop k)
      rw [List.take_append_drop, hwhole] at happ
      exact hdrop (List.append_eq_nil_iff.mp (congrArg Prod.snd happ).symm).2
    cases hcases with
    | short => rfl
    | partialPayload => rfl
    | bad => exact absurd nofun habsurd
    | checksum => exact absurd nofun habsurd
    | packet => exact absurd nofun habsurd

end BulkSent

/-! ## Reads -/

omit [Usize] in
/-- A read for all that is left of a packet comes back with some of it, whatever stands behind the packet. -/
theorem BulkIn.fill_exact (maxPacket : ℕ) {ts : List Bytes} (later : List Bytes) (hts : ts ≠ [])
    (hne : ∀ t ∈ ts, t ≠ []) :
    ∃ data left, BulkIn.fill maxPacket (ts ++ later) 0 ts.flatten.length = some (data, ⟨left ++ later, 0⟩) ∧
      data ≠ [] ∧ ts.flatten = data ++ left.flatten ∧ left.length < ts.length ∧ ∀ t ∈ left, t ≠ [] := by
  induction ts with
  | nil => exact absurd rfl hts
  | cons t ts ih =>
    have ht : t ≠ [] := hne t List.mem_cons_self
    have hrest : ∀ u ∈ ts, u ≠ [] := fun u hu => hne u (List.mem_cons_of_mem _ hu)
    have hn : min (t :: ts).flatten.length (t.length - 0) = t.length := by
      rw [List.flatten_cons, List.length_append]
      omega
    have hslice : slice t 0 t.length = t := by simp [slice]
    rw [List.cons_append, BulkIn.fill]
    simp only [hn, Nat.zero_add, hslice, if_true, true_and]
    split_ifs with hend
    · exact ⟨t, ts, rfl, ht, rfl, Nat.lt_succ_self _, hrest⟩
    · -- the transfer filled its last packet, so the read goes on with the next one
      rw [not_or, List.flatten_cons, List.length_append] at hend
      have hts' : ts ≠ [] := by
        rintro rfl
        simp at hend
      obtain ⟨data, left, hfill, hdata, hflat, hlen, hleft⟩ := ih hts' hrest
      refine ⟨t ++ data, left, ?_, by simp [ht], ?_, Nat.lt_succ_of_lt hlen, hleft⟩
      · rw [List.flatten_cons, List.length_append, Nat.add_sub_cancel_left, hfill]
        rfl
      · rw [List.flatten_cons, hflat, List.append_assoc]

section Receive

variable {maxPacket : ℕ} {maxPayload : UInt32} {x : BulkSent}

/-- What every read of a call asks for once the header is in: the rest of the packet, and some of it. -/
def AsksRest (x : BulkSent) (a : Asked) : Prop :=
  messageSize ≤ a.buffered → a.want = x.frame.length - a.buffered ∧ 1 ≤ a.want

/-- The next read's room, whether it goes on in the padding it has or in new padding. -/
theorem room_rest {st : Staged} {k : ℕ} (hk : messageSize ≤ k) (hlt : k < x.frame.length)
    (hcommitted : st.committed = x.frame.take k) (hspare : x.frame.length - k ≤ st.spare.length) :
    st.room = x.frame.length - k := by
  have hlen : (x.frame.take k).length = k := by
    rw [List.length_take]
    omega
  rw [Staged.room, hcommitted, readLimit, hlen, if_neg (by omega), BulkSent.missing_take hk hlt.le]
  omega

variable (maxPacket maxPayload x) in
/-- From any point behind the header the loop returns the packet and takes no more than it. -/
def Returns (later : List Bytes) (fuel : ℕ) : Prop :=
  ∀ (k : ℕ) (st : Staged) (ts : List Bytes) (asked : List Asked), messageSize ≤ k → k < x.frame.length →
    st.committed = x.frame.take k → st.room = x.frame.length - k → (∀ t ∈ ts, t ≠ []) → ts.flatten = x.frame.drop k →
    ts.length ≤ fuel →
    ∃ extra, recvLoopBulk maxPacket maxPayload fuel st ⟨ts ++ later, 0⟩ asked =
        some ⟨.ok x.pkt, [], ⟨later, 0⟩, asked ++ extra⟩ ∧ ∀ a ∈ extra, AsksRest x a

/-- What follows a read that brought the buffer to `k` bytes of the packet. -/
theorem Returns.after_read (hmax : x.pkt.data.length ≤ maxPayload.toNat) {later : List Bytes} {fuel k : ℕ}
    (h : Returns maxPacket maxPayload x later fuel) {st : Staged} {ts : List Bytes} (asked : List Asked)
    (hk : messageSize ≤ k) (hle : k ≤ x.frame.length) (hcommitted : st.committed = x.frame.take k)
    (hne : ∀ t ∈ ts, t ≠ []) (hts : ts.flatten = x.frame.drop k) (hfuel : ts.length ≤ fuel) :
    ∃ extra, (if st.wantsMore then recvLoopBulk maxPacket maxPayload fuel st ⟨ts ++ later, 0⟩ asked
        else match Packet.decode maxPayload st.drop with
          | (.ok (some pkt), buf) => some ⟨.ok pkt, buf, ⟨ts ++ later, 0⟩, asked⟩
          | (.error e, buf) => some ⟨.error (.protocol e), buf, ⟨ts ++ later, 0⟩, asked⟩
          | (.ok none, buf) => recvLoopBulk maxPacket maxPayload fuel (.new buf) ⟨ts ++ later, 0⟩ asked) =
        some ⟨.ok x.pkt, [], ⟨later, 0⟩, asked ++ extra⟩ ∧ ∀ a ∈ extra, AsksRest x a := by
  have hmissing : Packet.missing (x.frame.take k) = x.frame.length - k := BulkSent.missing_take hk hle
  rcases hle.eq_or_lt with rfl | hlt
  · -- the packet is whole
    have hwants : st.wantsMore = false := by
      rw [Staged.wantsMore, hcommitted, hmissing, Nat.sub_self]
      rfl
    have hnil : ts = [] := by
      rw [List.drop_length] at hts
      cases ts with
      | nil => rfl
      | cons t ts => exact absurd (List.append_eq_nil_iff.mp hts).1 (hne t List.mem_cons_self)
    have hdec := Packet.decode_frame x.pkt x.checksum [] hmax x.data_le
    rw [List.append_nil] at hdec
    rw [hwants, Staged.drop_eq, hcommitted, List.take_length, show Packet.decode maxPayload x.frame = _ from hdec, hnil]
    exact ⟨[], by simp, by simp⟩
  · by_cases hwants : st.wantsMore = true
    · rw [if_pos hwants]
      simp only [Staged.wantsMore, hcommitted, hmissing, Bool.and_eq_true, decide_eq_true_eq] at hwants
      exact h k st ts asked hk hlt hcommitted (room_rest hk hlt hcommitted hwants.2) hne hts hfuel
    · rw [if_neg hwants, Staged.drop_eq, hcommitted, BulkSent.decode_take hmax hlt]
      have hlen : (x.frame.take k).length = k := by
        rw [List.length_take]
        omega
      refine h k _ ts asked hk hlt (Staged.committed_new _) (room_rest hk hlt (Staged.committed_new _) ?_) hne hts hfuel
      simp only [Staged.spare, Staged.new, List.drop_left', List.length_replicate, readLimit, hlen, hmissing]
      rw [if_neg (by omega)]

/-- **The payload.** -/
theorem recvLoopBulk_returns (hmax : x.pkt.data.length ≤ maxPayload.toNat) (later : List Bytes) (fuel : ℕ) :
    Returns maxPacket maxPayload x later fuel := by
  induction fuel with
  | zero =>
    intro k st ts asked hk hlt hcommitted hroom hne hts hfuel
    obtain rfl := List.eq_nil_of_length_eq_zero (Nat.le_zero.mp hfuel)
    have := congrArg List.length hts
    rw [List.length_drop, List.flatten_nil, List.length_nil] at this
    omega
  | succ fuel ih =>
    intro k st ts asked hk hlt hcommitted hroom hne hts hfuel
    have hklen : (x.frame.take k).length = k := by
      rw [List.length_take]
      omega
    have htotal : ts.flatten.length = x.frame.length - k := by rw [hts, List.length_drop]
    have hts0 : ts ≠ [] := by
      rintro rfl
      rw [List.flatten_nil, List.length_nil] at htotal
      omega
    obtain ⟨data, left, hfill, hdata, hflat, hlen, hleft⟩ := BulkIn.fill_exact maxPacket later hts0 hne
    have hsum : data.length + left.flatten.length = x.frame.length - k := by
      rw [← htotal, hflat, List.length_append]
    have hnow : (st.commit data).committed = x.frame.take (k + data.length) := by
      rw [Staged.committed_commit, hcommitted, List.take_add, ← hts, hflat, List.take_left']
      rfl
    have hdrop : left.flatten = x.frame.drop (k + data.length) := by
      rw [← List.drop_drop, ← hts, hflat, List.drop_left']
      rfl
    have hask : AsksRest x ⟨st.committed.length, st.room⟩ := by
      intro _
      show st.room = x.frame.length - st.committed.length ∧ 1 ≤ st.room
      rw [hcommitted, hklen, hroom]
      exact ⟨rfl, by omega⟩
    rw [recvLoopBulk, BulkIn.read, hroom, ← htotal, hfill]
    dsimp only
    rw [if_neg hdata, htotal, ← hroom]
    obtain ⟨extra, hloop, hextra⟩ := ih.after_read hmax (asked ++ [⟨st.committed.length, st.room⟩]) (by omega)
      (by omega) hnow hleft hdrop (by omega)
    refine ⟨⟨st.committed.length, st.room⟩ :: extra, by rw [hloop]; simp, ?_⟩
    intro a ha
    rcases List.mem_cons.mp ha with rfl | ha
    · exact hask
    · exact hextra a ha

/-- **One call**: it returns the packet, empties the buffer and leaves the later transfers alone. -/
theorem recvPktBulk_packet (hpacket : ¬ maxPacket ∣ messageSize) (hmax : x.pkt.data.length ≤ maxPayload.toNat)
    (later : List Bytes) {fuel : ℕ} (hfuel : x.transfers.length ≤ fuel) :
    ∃ asked, recvPktBulk maxPacket maxPayload fuel [] ⟨x.transfers ++ later, 0⟩ =
        some ⟨.ok x.pkt, [], ⟨later, 0⟩, asked⟩ ∧ ∀ a ∈ asked, AsksRest x a := by
  have hempty : Packet.decode maxPayload [] = (.ok none, []) := rfl
  have hhlen := x.length_header
  have hflen := x.length_frame
  -- the header is a short transfer, so the padded read ends with it
  have hread : BulkIn.read maxPacket ⟨x.transfers ++ later, 0⟩ minRead = some (x.header, ⟨x.pieces ++ later, 0⟩) := by
    have hmin : min minRead messageSize = messageSize := rfl
    have hshort : messageSize % maxPacket ≠ 0 := fun h => hpacket (Nat.dvd_of_mod_eq_zero h)
    have hslice : slice x.header 0 messageSize = x.header := by
      rw [← hhlen]
      simp [slice]
    rw [BulkIn.read, BulkSent.transfers, List.cons_append, BulkIn.fill]
    simp only [hhlen, Nat.sub_zero, Nat.zero_add, hmin, hslice, true_and]
    rw [if_pos (Or.inr hshort), if_pos trivial]
  have hroom : (Staged.new []).room = minRead := by
    have hlimit : readLimit [] = minRead := rfl
    have hspare : (Staged.new []).spare.length = minRead := by simp [Staged.spare, Staged.new, hlimit]
    rw [Staged.room, Staged.committed_new, hlimit, hspare, min_self]
  cases fuel with
  | zero => exact absurd hfuel (by simp [BulkSent.transfers])
  | succ fuel =>
    have hne : x.header ≠ [] := List.ne_nil_of_length_pos (by rw [hhlen]; decide)
    have hcommit : ((Staged.new []).commit x.header).committed = x.frame.take messageSize := by
      rw [Staged.committed_commit, Staged.committed_new, List.nil_append, BulkSent.header]
    have hpieces : x.pieces.flatten = x.frame.drop messageSize := by
      rw [x.pieces_all, ← x.header_append, List.drop_left' hhlen]
    have hfirst : AsksRest x ⟨(Staged.new []).committed.length, minRead⟩ := by
      intro h
      rw [Staged.committed_new] at h
      exact absurd h (by decide)
    rw [recvPktBulk, hempty]
    dsimp only
    rw [recvLoopBulk, hroom, hread]
    dsimp only
    rw [if_neg hne]
    have hreturns : Returns maxPacket maxPayload x later fuel := recvLoopBulk_returns hmax later fuel
    obtain ⟨extra, hloop, hextra⟩ := hreturns.after_read hmax
      ([] ++ [⟨(Staged.new []).committed.length, minRead⟩]) le_rfl (by omega) hcommit x.pieces_ne hpieces
      (Nat.le_of_succ_le_succ hfuel)
    refine ⟨_, hloop, ?_⟩
    intro a ha
    rcases List.mem_append.mp ha with ha | ha
    · rw [List.mem_singleton.mp ha]
      exact hfirst
    · exact hextra a ha

/-! ## A sequence of packets -/

variable (maxPacket maxPayload) in
/-- `recv_pkt` called `n` times, one call after the other, with what each returned and asked for. -/
def recvAllBulk (fuel : ℕ) : ℕ → Bytes → BulkIn → Option (List (Except Error Packet × List Asked) × Bytes × BulkIn)
  | 0, buf, t => some ([], buf, t)
  | n + 1, buf, t =>
    (recvPktBulk maxPacket maxPayload fuel buf t).bind fun r =>
      (recvAllBulk fuel n r.buf r.transport).map fun rs => ((r.result, r.asked) :: rs.1, rs.2)

/-- **Receiving over bulk never waits past a packet.**  For every sequence of packets, however their payloads are cut,
and whatever stands behind them (nothing, in particular): each call returns its packet, the buffer is empty after it
and the later transfers are untouched, and once the header is in every read asks for exactly what the packet lacks. -/
theorem bulk_never_waits (hpacket : ¬ maxPacket ∣ messageSize) (sent : List BulkSent)
    (hmax : ∀ x ∈ sent, x.pkt.data.length ≤ maxPayload.toNat) (later : List Bytes) (fuel : ℕ)
    (hfuel : ∀ x ∈ sent, x.transfers.length ≤ fuel) :
    ∃ rs, recvAllBulk maxPacket maxPayload fuel sent.length [] ⟨(sent.map BulkSent.transfers).flatten ++ later, 0⟩ =
        some (rs, [], ⟨later, 0⟩) ∧
      List.Forall₂ (fun x r => r.1 = .ok x.pkt ∧ ∀ a ∈ r.2, AsksRest x a) sent rs := by
  induction sent with
  | nil => exact ⟨[], rfl, .nil⟩
  | cons x sent ih =>
    obtain ⟨rs, hrs, hall⟩ := ih (fun y hy => hmax y (List.mem_cons_of_mem _ hy))
      (fun y hy => hfuel y (List.mem_cons_of_mem _ hy))
    obtain ⟨asked, hcall, hasks⟩ := recvPktBulk_packet hpacket (hmax x List.mem_cons_self)
      ((sent.map BulkSent.transfers).flatten ++ later) (hfuel x List.mem_cons_self)
    refine ⟨(.ok x.pkt, asked) :: rs, ?_, .cons ⟨rfl, hasks⟩ hall⟩
    rw [List.length_cons, recvAllBulk, List.map_cons, List.flatten_cons, List.append_assoc, hcall]
    rw [Option.bind_some, hrs]
    rfl

end Receive

/-- A WRTE of two bytes, each in a transfer of its own. -/
def cutWrite : BulkSent where
  pkt := ⟨.write, 1, 2, [3, 4]⟩
  checksum := .skip
  pieces := [[3], [4]]
  pieces_ne := by decide
  pieces_all := rfl
  data_le := by decide

omit [Usize] in
theorem bulk_never_waits_cut :
    ∃ rs, @recvAllBulk usize64 512 4096 3 1 [] ⟨cutWrite.transfers, 0⟩ = some (rs, [], ⟨[], 0⟩) ∧
      List.Forall₂ (fun x r => r.1 = .ok x.pkt ∧ ∀ a ∈ r.2, AsksRest x a) [cutWrite] rs := by
  have h := @bulk_never_waits usize64 512 4096 (by decide) [cutWrite] (by decide) [] 3 (by decide)
  simpa using h

end LibAdb
