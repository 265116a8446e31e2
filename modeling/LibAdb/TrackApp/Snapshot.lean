import LibAdb.Base.Protobuf

/-!
# LibAdb.TrackApp.Snapshot — the process list of `track-app`

`decode_app_processes` and `decode_process_entry` of `track_app.rs`.  `EntryField` and `ProcessesField` are the schema
`adb.proto.AppProcesses`: what the bytes of one field make of the message in front of it, the last value of a field
winning, names in their order, and fields that are not in the schema left out.
-/

namespace LibAdb.TrackApp

open Protobuf

/-- `ProcessEntry`; a `String` is its UTF-8. -/
structure ProcessEntry where
  pid : Int64 := 0
  debuggable : Bool := false
  profileable : Bool := false
  architecture : Bytes := []
  userId : Option Int64 := none
  processName : Option Bytes := none
  packageNames : List Bytes := []
  waitingForDebugger : Option Bool := none
  uid : Option Int64 := none
  deriving DecidableEq, Repr

/-- `ProcessEntry::default` -/
def ProcessEntry.default : ProcessEntry := {}

section Decoding

variable [Usize]

/-- A field whose value is read and put into the entry. -/
def keep {α : Type} (read : Bytes → Protobuf.Outcome (α × ℕ)) (rest : Bytes) (set : α → ProcessEntry) :
    Protobuf.Outcome (ProcessEntry × ℕ) := do
  let p ← read rest
  pure (set p.1, p.2)

/-- The `match` of `decode_process_entry`. -/
def processField (field wire : UInt64) (rest : Bytes) (entry : ProcessEntry) : Protobuf.Outcome (ProcessEntry × ℕ) :=
  if field = 1 ∧ wire = 0 then keep readVarint rest fun v => { entry with pid := v.toInt64 }
  else if field = 2 ∧ wire = 0 then keep readVarint rest fun v => { entry with debuggable := v ≠ 0 }
  else if field = 3 ∧ wire = 0 then keep readVarint rest fun v => { entry with profileable := v ≠ 0 }
  else if field = 4 ∧ wire = 2 then keep readString rest fun s => { entry with architecture := s }
  else if field = 5 ∧ wire = 0 then keep readVarint rest fun v => { entry with userId := some v.toInt64 }
  else if field = 6 ∧ wire = 2 then keep readString rest fun s => { entry with processName := some s }
  else if field = 7 ∧ wire = 2 then
    keep readString rest fun s => { entry with packageNames := entry.packageNames ++ [s] }
  else if field = 8 ∧ wire = 0 then keep readVarint rest fun v => { entry with waitingForDebugger := some (v ≠ 0) }
  else if field = 9 ∧ wire = 0 then keep readVarint rest fun v => { entry with uid := some v.toInt64 }
  else skipHandle wire rest entry

/-- `decode_process_entry` -/
def decodeProcessEntry (buf : Bytes) : Protobuf.Outcome ProcessEntry := decodeFields processField buf .default

/-- `decode_app_processes` -/
def decodeAppProcesses (buf : Bytes) : Protobuf.Outcome (List ProcessEntry) :=
  decodeRepeatedField1 buf decodeProcessEntry

end Decoding

/-! ## The schema -/

/-- The numbers of an entry: `int64` and `bool` fields. -/
def ProcessEntry.setNumber (entry : ProcessEntry) (field v : UInt64) : Option ProcessEntry :=
  if field = 1 then some { entry with pid := v.toInt64 }
  else if field = 2 then some { entry with debuggable := v ≠ 0 }
  else if field = 3 then some { entry with profileable := v ≠ 0 }
  else if field = 5 then some { entry with userId := some v.toInt64 }
  else if field = 8 then some { entry with waitingForDebugger := some (v ≠ 0) }
  else if field = 9 then some { entry with uid := some v.toInt64 }
  else none

/-- The texts of an entry: `string` fields, one of them repeated. -/
def ProcessEntry.setText (entry : ProcessEntry) (field : UInt64) (s : Bytes) : Option ProcessEntry :=
  if field = 4 then some { entry with architecture := s }
  else if field = 6 then some { entry with processName := some s }
  else if field = 7 then some { entry with packageNames := entry.packageNames ++ [s] }
  else none

/-- A field of the schema, under the wire type it has there. -/
def InSchema (field wire : UInt64) : Prop :=
  (wire = 0 ∧ field ∈ ([1, 2, 3, 5, 8, 9] : List UInt64)) ∨ (wire = 2 ∧ field ∈ ([4, 6, 7] : List UInt64))

/-- One field of a `ProcessEntry`. -/
inductive EntryField : Bytes → ProcessEntry → ProcessEntry → Prop
  | number {tag body : Bytes} {field v : UInt64} {entry entry' : ProcessEntry} (htag : Tag tag field 0)
      (hv : Varint body v) (hset : entry.setNumber field v = some entry') : EntryField (tag ++ body) entry entry'
  | text {tag lenBytes s : Bytes} {field len : UInt64} {entry entry' : ProcessEntry} (htag : Tag tag field 2)
      (hlen : Varint lenBytes len) (hsize : len.toNat = s.length) (hutf8 : validUtf8 s = true)
      (hset : entry.setText field s = some entry') : EntryField (tag ++ (lenBytes ++ s)) entry entry'
  | unknown {tag body : Bytes} {field wire : UInt64} {entry : ProcessEntry} (htag : Tag tag field wire)
      (hout : ¬ InSchema field wire) (hbody : Payload wire body) : EntryField (tag ++ body) entry entry

/-- One field of `AppProcesses`. -/
inductive ProcessesField : Bytes → List ProcessEntry → List ProcessEntry → Prop
  | process {tag lenBytes body : Bytes} {len : UInt64} {entries : List ProcessEntry} {entry : ProcessEntry}
      (htag : Tag tag 1 2) (hlen : Varint lenBytes len) (hsize : len.toNat = body.length)
      (hbody : Fields EntryField .default body entry) :
      ProcessesField (tag ++ (lenBytes ++ body)) entries (entries ++ [entry])
  | unknown {tag body : Bytes} {field wire : UInt64} {entries : List ProcessEntry} (htag : Tag tag field wire)
      (hout : ¬ (field = 1 ∧ wire = 2)) (hbody : Payload wire body) : ProcessesField (tag ++ body) entries entries

/-- The bytes are an encoding of the list. -/
def Encodes (buf : Bytes) (entries : List ProcessEntry) : Prop := Fields ProcessesField [] buf entries

section Decoding

variable [Usize]

omit [Usize] in
theorem keep_number {body : Bytes} {v : UInt64} (hv : Varint body v) (rest : Bytes) (set : UInt64 → ProcessEntry) :
    keep readVarint (body ++ rest) set = .ok (set v, body.length) := by
  rw [keep, readVarint, decodeVarint_append hv]
  rfl

theorem keep_text {lenBytes s : Bytes} {len : UInt64} (hlen : Varint lenBytes len) (hsize : len.toNat = s.length)
    (hutf8 : validUtf8 s = true) (rest : Bytes) (hfits : (lenBytes ++ s ++ rest).length ≤ usizeMax)
    (set : Bytes → ProcessEntry) :
    keep readString (lenBytes ++ s ++ rest) set = .ok (set s, (lenBytes ++ s).length) := by
  rw [keep, readString_append hlen hsize hutf8 rest hfits, List.length_append]
  rfl

theorem skipHandle_payload {σ : Type} {wire : UInt64} {body : Bytes} (h : Payload wire body) (rest : Bytes)
    (hfits : (body ++ rest).length ≤ usizeMax) (st : σ) :
    skipHandle wire (body ++ rest) st = .ok (st, body.length) := by
  rw [skipHandle, skipField_append h rest hfits]
  rfl

/-- A number of the schema is read as the schema says. -/
theorem processField_number {body : Bytes} {field v : UInt64} {entry entry' : ProcessEntry} (hv : Varint body v)
    (hset : entry.setNumber field v = some entry') (rest : Bytes) :
    processField field 0 (body ++ rest) entry = .ok (entry', body.length) := by
  have hwire : ∀ k : UInt64, ¬ (field = k ∧ (0 : UInt64) = 2) := fun k h => absurd h.2 (by decide)
  unfold ProcessEntry.setNumber at hset
  unfold processField
  by_cases h1 : field = 1
  · rw [if_pos h1] at hset
    rw [if_pos ⟨h1, rfl⟩, keep_number hv, ← Option.some.inj hset]
  rw [if_neg h1] at hset
  rw [if_neg fun h => h1 h.1]
  by_cases h2 : field = 2
  · rw [if_pos h2] at hset
    rw [if_pos ⟨h2, rfl⟩, keep_number hv, ← Option.some.inj hset]
  rw [if_neg h2] at hset
  rw [if_neg fun h => h2 h.1]
  by_cases h3 : field = 3
  · rw [if_pos h3] at hset
    rw [if_pos ⟨h3, rfl⟩, keep_number hv, ← Option.some.inj hset]
  rw [if_neg h3] at hset
  rw [if_neg fun h => h3 h.1, if_neg (hwire 4)]
  by_cases h5 : field = 5
  · rw [if_pos h5] at hset
    rw [if_pos ⟨h5, rfl⟩, keep_number hv, ← Option.some.inj hset]
  rw [if_neg h5] at hset
  rw [if_neg fun h => h5 h.1, if_neg (hwire 6), if_neg (hwire 7)]
  by_cases h8 : field = 8
  · rw [if_pos h8] at hset
    rw [if_pos ⟨h8, rfl⟩, keep_number hv, ← Option.some.inj hset]
  rw [if_neg h8] at hset
  rw [if_neg fun h => h8 h.1]
  by_cases h9 : field = 9
  · rw [if_pos h9] at hset
    rw [if_pos ⟨h9, rfl⟩, keep_number hv, ← Option.some.inj hset]
  · rw [if_neg h9] at hset
    cases hset

/-- And so is a text. -/
theorem processField_text {lenBytes s : Bytes} {field len : UInt64} {entry entry' : ProcessEntry}
    (hlen : Varint lenBytes len) (hsize : len.toNat = s.length) (hutf8 : validUtf8 s = true)
    (hset : entry.setText field s = some entry') (rest : Bytes) (hfits : (lenBytes ++ s ++ rest).length ≤ usizeMax) :
    processField field 2 (lenBytes ++ s ++ rest) entry = .ok (entry', (lenBytes ++ s).length) := by
  have hwire : ∀ k : UInt64, ¬ (field = k ∧ (2 : UInt64) = 0) := fun k h => absurd h.2 (by decide)
  unfold ProcessEntry.setText at hset
  unfold processField
  rw [if_neg (hwire 1), if_neg (hwire 2), if_neg (hwire 3)]
  by_cases h4 : field = 4
  · rw [if_pos h4] at hset
    rw [if_pos ⟨h4, rfl⟩, keep_text hlen hsize hutf8 rest hfits, ← Option.some.inj hset]
  rw [if_neg h4] at hset
  rw [if_neg fun h => h4 h.1, if_neg (hwire 5)]
  by_cases h6 : field = 6
  · rw [if_pos h6] at hset
    rw [if_pos ⟨h6, rfl⟩, keep_text hlen hsize hutf8 rest hfits, ← Option.some.inj hset]
  rw [if_neg h6] at hset
  rw [if_neg fun h => h6 h.1]
  by_cases h7 : field = 7
  · rw [if_pos h7] at hset
    rw [if_pos ⟨h7, rfl⟩, keep_text hlen hsize hutf8 rest hfits, ← Option.some.inj hset]
  · rw [if_neg h7] at hset
    cases hset

/-- Every field of the schema is read as the schema says. -/
theorem entryField_handled {limit : ℕ} (hlimit : limit ≤ usizeMax) {bytes : Bytes} {entry entry' : ProcessEntry}
    (h : EntryField bytes entry entry') : Handles processField limit bytes entry entry' := by
  cases h with
  | number htag hv hset => exact ⟨_, _, _, 0, rfl, htag, fun rest _ => processField_number hv hset rest⟩
  | text htag hlen hsize hutf8 hset =>
    refine ⟨_, _, _, 2, rfl, htag, fun rest hfits => ?_⟩
    exact processField_text hlen hsize hutf8 hset rest (hfits.trans hlimit)
  | unknown htag hout hbody =>
    rename_i tag body field wire
    refine ⟨tag, body, field, wire, rfl, htag, fun rest hfits => ?_⟩
    have hskip := skipHandle_payload hbody rest (hfits.trans hlimit) entry
    unfold processField
    have hnumber : ∀ k ∈ ([1, 2, 3, 5, 8, 9] : List UInt64), ¬ (field = k ∧ wire = 0) :=
      fun k hk h => hout (.inl ⟨h.2, h.1 ▸ hk⟩)
    have htext : ∀ k ∈ ([4, 6, 7] : List UInt64), ¬ (field = k ∧ wire = 2) := fun k hk h =>
      hout (.inr ⟨h.2, h.1 ▸ hk⟩)
    rw [if_neg (hnumber 1 (by decide)), if_neg (hnumber 2 (by decide)), if_neg (hnumber 3 (by decide)),
      if_neg (htext 4 (by decide)), if_neg (hnumber 5 (by decide)), if_neg (htext 6 (by decide)),
      if_neg (htext 7 (by decide)), if_neg (hnumber 8 (by decide)), if_neg (hnumber 9 (by decide)), hskip]

theorem decodeProcessEntry_fields {buf : Bytes} (hbuf : buf.length ≤ usizeMax) {entry : ProcessEntry}
    (h : Fields EntryField .default buf entry) : decodeProcessEntry buf = .ok entry :=
  decodeFields_fields (fun _ _ _ hfield => entryField_handled hbuf hfield) h

theorem decodeAppProcesses_encodes {buf : Bytes} (hbuf : buf.length ≤ usizeMax) {entries : List ProcessEntry}
    (h : Encodes buf entries) : decodeAppProcesses buf = .ok entries := by
  refine decodeFields_fields (fun bytes es es' hfield => ?_) h
  cases hfield with
  | process htag hlen hsize hbody =>
    rename_i tag lenBytes body len entry
    refine ⟨tag, lenBytes ++ body, 1, 2, rfl, htag, fun rest hfits => ?_⟩
    have hread := readBytes_append hlen hsize rest (hfits.trans hbuf)
    have hentry : decodeProcessEntry body = .ok entry := by
      refine decodeProcessEntry_fields ?_ hbody
      rw [List.length_append, List.length_append] at hfits
      omega
    dsimp only
    rw [if_pos ⟨rfl, rfl⟩, hread, Protobuf.Outcome.ok_bind]
    dsimp only
    rw [hentry, Protobuf.Outcome.ok_bind, List.length_append]
    rfl
  | unknown htag hout hbody =>
    rename_i tag body field wire
    refine ⟨tag, body, field, wire, rfl, htag, fun rest hfits => ?_⟩
    dsimp only
    rw [if_neg hout, skipHandle_payload hbody rest (hfits.trans hbuf)]

/-! ## Any bytes -/

omit [Usize] in
theorem inside_keep {α : Type} {read : Bytes → Protobuf.Outcome (α × ℕ)} (h : Inside read)
    (set : α → ProcessEntry) :
    Inside fun rest => keep read rest set :=
  h.then (f := .ok) (g := set) fun _ => trivial

theorem inside_processField (field wire : UInt64) (entry : ProcessEntry) :
    Inside fun rest => processField field wire rest entry := by
  have hnumber : ∀ set, Inside fun rest => keep readVarint rest set := inside_keep inside_readVarint
  have htext : ∀ set, Inside fun rest => keep readString rest set := inside_keep inside_readString
  refine (hnumber _).ite ((hnumber _).ite ((hnumber _).ite ((htext _).ite ?_)))
  exact (hnumber _).ite ((htext _).ite ((htext _).ite ((hnumber _).ite ((hnumber _).ite (inside_skipHandle _ _)))))

theorem decodeProcessEntry_safe (buf : Bytes) : (decodeProcessEntry buf).Safe :=
  decodeFields_safe inside_processField _

theorem decodeAppProcesses_safe (buf : Bytes) : (decodeAppProcesses buf).Safe := by
  refine decodeFields_safe (fun field wire entries => ?_) _
  refine Inside.ite ?_ (inside_skipHandle _ _)
  exact inside_readBytes.then (g := fun e => entries ++ [e]) decodeProcessEntry_safe

/-- **Process snapshots decode as protobuf says**, numbers are read for what they spell, and any bytes are decoded to an
end without leaving them. -/
theorem snapshots_decode_as_protobuf (buf : Bytes) (hbuf : buf.length ≤ usizeMax) :
    (∀ entries, Encodes buf entries → decodeAppProcesses buf = .ok entries) ∧
      (∀ bytes : Bytes, decodeVarint bytes =
        ((bytes.take 10).findIdx? isLast).map fun i => (UInt64.ofNat (base128 (bytes.take (i + 1))), i + 1)) ∧
      (∀ bytes : Bytes, decodeVarint bytes = none ↔ ∀ b ∈ bytes.take 10, isLast b = false) ∧
      ∀ bytes, decodeAppProcesses bytes ≠ .panic := by
  refine ⟨fun entries h => decodeAppProcesses_encodes hbuf h, decodeVarint_eq, fun bytes => ?_, fun bytes h => ?_⟩
  · rw [decodeVarint_eq, Option.map_eq_none_iff, List.findIdx?_eq_none_iff]
  · have hsafe := decodeAppProcesses_safe bytes
    rw [h] at hsafe
    exact hsafe

end Decoding

/-- A process whose number is spelt in two bytes, with a field of a later version behind it. -/
theorem snapshots_decode_as_protobuf_later :
    @decodeAppProcesses usize64 [0x0A, 8, 0x08, 0x85, 0, 0x55, 1, 2, 3, 4] = .ok [{ pid := 5 }] := by
  let _u := usize64
  -- one byte is a number, and so a tag
  have hone : ∀ b : Byte, isLast b = true → Varint [b] (UInt64.ofNat (base128 [b])) :=
    fun b hb => ⟨rfl, Nat.le_of_ble_eq_true rfl, [], b, rfl, by simp, hb⟩
  have hpid : EntryField ([0x08] ++ [0x85, 0]) .default { pid := 5 } :=
    .number ⟨_, hone 8 rfl, rfl, rfl⟩ ⟨rfl, by decide, [0x85], 0, rfl, List.forall_mem_singleton.mpr rfl, rfl⟩ rfl
  have hlater : EntryField ([0x55] ++ [1, 2, 3, 4]) { pid := 5 } { pid := 5 } :=
    .unknown ⟨_, hone 0x55 rfl, rfl, rfl⟩ (by unfold InSchema; decide) (.fixed32 rfl)
  have hentry : ProcessesField ([0x0A] ++ ([8] ++ [0x08, 0x85, 0, 0x55, 1, 2, 3, 4])) [] [{ pid := 5 }] :=
    .process ⟨_, hone 0x0A rfl, rfl, rfl⟩ (hone 8 rfl) rfl (.cons hpid (.cons hlater (.nil _)))
  exact (snapshots_decode_as_protobuf _ (by decide)).1 _ (.cons hentry (.nil _))

end LibAdb.TrackApp
