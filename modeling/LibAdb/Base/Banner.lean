import LibAdb.Base.Negotiated

/-!
# LibAdb.Base.Banner — the identity banner, and how the ack mode is read off it

`base/protocol/features.rs`, `base/device_banner.rs`, `base/connection/banner.rs` and `Negotiated::new`.

The device's CNXN payload is read twice.  `DeviceBanner::from_bytes` takes it apart entry by entry
(`<state>:<serial>:<key>=<value>;…`) and collects the features of every entry whose key is `features`
(`parseInner_features`).  The ack mode does not use that list: `has_feature` looks for the first `features=` anywhere
in the payload and splits all that follows at commas and semicolons (`hasFeature_iff`).  `ack_mode_agrees_iff` says
for which payloads the two readings differ.

Ranges into the banner are the slices they name here; the text of a slice is the bytes of it.
-/

namespace LibAdb

/-- The bytes of an ASCII literal. -/
def ascii (s : String) : Bytes := s.toList.map fun c => UInt8.ofNat c.toNat

/-! ## Features -/

namespace Feature

def wireName : Feature → Bytes
  | .abb => ascii "abb"
  | .abbExec => ascii "abb_exec"
  | .apex => ascii "apex"
  | .appInfo => ascii "app_info"
  | .cmd => ascii "cmd"
  | .delayedAck => ascii "delayed_ack"
  | .devicetrackerProtoFormat => ascii "devicetracker_proto_format"
  | .devraw => ascii "devraw"
  | .fixedPushMkdir => ascii "fixed_push_mkdir"
  | .fixedPushSymlinkTimestamp => ascii "fixed_push_symlink_timestamp"
  | .lsV2 => ascii "ls_v2"
  | .openscreenMdns => ascii "openscreen_mdns"
  | .remountShell => ascii "remount_shell"
  | .sendrecvV2 => ascii "sendrecv_v2"
  | .sendrecvV2Brotli => ascii "sendrecv_v2_brotli"
  | .sendrecvV2DryRunSend => ascii "sendrecv_v2_dry_run_send"
  | .sendrecvV2Lz4 => ascii "sendrecv_v2_lz4"
  | .sendrecvV2Zstd => ascii "sendrecv_v2_zstd"
  | .shellV2 => ascii "shell_v2"
  | .statV2 => ascii "stat_v2"
  | .trackApp => ascii "track_app"

/-- The variants in the order the source's `match` tries them. -/
def all : List Feature :=
  [.abb, .abbExec, .apex, .appInfo, .cmd, .delayedAck, .devicetrackerProtoFormat, .devraw, .fixedPushMkdir,
    .fixedPushSymlinkTimestamp, .lsV2, .openscreenMdns, .remountShell, .sendrecvV2, .sendrecvV2Brotli,
    .sendrecvV2DryRunSend, .sendrecvV2Lz4, .sendrecvV2Zstd, .shellV2, .statV2, .trackApp]

/-- `TryFrom<&str> for Feature` -/
def tryFrom (text : Bytes) : Option Feature := all.find? fun f => f.wireName = text

end Feature

/-- `Session::require_feature` -/
def requireFeature (advertises : Feature → Bool) (feature : Feature) : Except Error Unit :=
  if advertises feature then .ok () else .error (.missingFeature feature)

/-- `DELAYED_ACK` -/
def delayedAckName : Bytes := ascii "delayed_ack"

/-! ## The scan -/

/-- The needle of `has_feature`. -/
def featuresNeedle : Bytes := ascii "features="

/-- `windows(needle.len()).position(|w| w == needle)` -/
def positionOf (needle : Bytes) : Bytes → Option ℕ
  | [] => none
  | b :: bs => if (b :: bs).take needle.length = needle then some 0 else (positionOf needle bs).map (· + 1)

def isComma (b : Byte) : Bool := b = UInt8.ofNat ','.toNat

def isSemicolon (b : Byte) : Bool := b = UInt8.ofNat ';'.toNat

/-- `features::has_feature` -/
def hasFeature (banner feature : Bytes) : Bool :=
  match positionOf featuresNeedle banner with
  | none => false
  | some pos =>
    ((banner.drop (pos + featuresNeedle.length)).splitOnP fun b => isComma b || isSemicolon b).any (· = feature)

/-! ## The parser -/

/-- A continuation byte in the given range. -/
def utf8Next (lo hi : Byte) (b : Byte) : Bool := lo ≤ b && b ≤ hi

/-- `core::str::from_utf8` succeeds. -/
def validUtf8 : Bytes → Bool
  | [] => true
  | b0 :: rest =>
    if b0 < 0x80 then validUtf8 rest
    else match rest with
      | [] => false
      | b1 :: rest =>
        if 0xC2 ≤ b0 ∧ b0 ≤ 0xDF then utf8Next 0x80 0xBF b1 && validUtf8 rest
        else match rest with
          | [] => false
          | b2 :: rest =>
            if 0xE0 ≤ b0 ∧ b0 ≤ 0xEF then
              utf8Next (if b0 = 0xE0 then 0xA0 else 0x80) (if b0 = 0xED then 0x9F else 0xBF) b1 &&
                utf8Next 0x80 0xBF b2 && validUtf8 rest
            else match rest with
              | [] => false
              | b3 :: rest =>
                decide (0xF0 ≤ b0 ∧ b0 ≤ 0xF4) &&
                  utf8Next (if b0 = 0xF0 then 0x90 else 0x80) (if b0 = 0xF4 then 0x8F else 0xBF) b1 &&
                  utf8Next 0x80 0xBF b2 && utf8Next 0x80 0xBF b3 && validUtf8 rest

theorem validUtf8_ascii {b : Byte} (h : b < 0x80) (s : Bytes) : validUtf8 (b :: s) = validUtf8 s := by
  rw [validUtf8.eq_def]
  simp only [if_pos h]

/-- Text behind valid text. -/
theorem validUtf8_append {a : Bytes} (h : validUtf8 a = true) (b : Bytes) : validUtf8 (a ++ b) = validUtf8 b := by
  fun_induction validUtf8 a with
  | case1 => rfl
  | case2 b0 rest hlt ih =>
    rw [List.cons_append, validUtf8_ascii hlt]
    exact ih h
  | case3 => cases h
  | case4 b0 hge b1 rest htwo ih =>
    rw [Bool.and_eq_true] at h
    rw [List.cons_append, List.cons_append, validUtf8.eq_def]
    simp only [if_neg hge, if_pos htwo, h.1, Bool.true_and]
    exact ih h.2
  | case5 => cases h
  | case6 b0 hge b1 hnot b2 rest hthree ih =>
    rw [Bool.and_eq_true] at h
    rw [List.cons_append, List.cons_append, List.cons_append, validUtf8.eq_def]
    simp only [if_neg hge, if_neg hnot, if_pos hthree, h.1, Bool.true_and]
    exact ih h.2
  | case7 => cases h
  | case8 b0 hge b1 hnot b2 hnot' b3 rest ih =>
    rw [Bool.and_eq_true] at h
    rw [List.cons_append, List.cons_append, List.cons_append, List.cons_append, validUtf8.eq_def]
    simp only [if_neg hge, if_neg hnot, if_neg hnot', h.1, Bool.true_and]
    exact ih h.2

theorem validUtf8_of_ascii {s : Bytes} (h : ∀ b ∈ s, b < 0x80) : validUtf8 s = true := by
  induction s with
  | nil => rfl
  | cons b s ih =>
    rw [validUtf8_ascii (h b List.mem_cons_self)]
    exact ih fun b hb => h b (List.mem_cons_of_mem _ hb)

/-- `str::split_once` at an ASCII character. -/
def splitOnce (c : Byte) : Bytes → Option (Bytes × Bytes)
  | [] => none
  | b :: bs => if b = c then some ([], bs) else (splitOnce c bs).map fun p => (b :: p.1, p.2)

/-- `str::rsplit_once` at an ASCII character. -/
def rsplitOnce (c : Byte) (s : Bytes) : Option (Bytes × Bytes) :=
  (splitOnce c s.reverse).map fun p => (p.2.reverse, p.1.reverse)

def colon : Byte := UInt8.ofNat ':'.toNat

def equals : Byte := UInt8.ofNat '='.toNat

def comma : Byte := UInt8.ofNat ','.toNat

def semicolon : Byte := UInt8.ofNat ';'.toNat

def space : Byte := UInt8.ofNat ' '.toNat

/-- `DeviceBanner`; `raw` is the payload it was parsed from. -/
structure DeviceBanner where
  raw : Bytes
  state : Bytes
  serial : Bytes
  properties : List (Bytes × Bytes)
  features : List Feature
  deriving DecidableEq

namespace DeviceBanner

/-- One name of a feature list: a feature named twice is kept once, one the library does not know is skipped. -/
def addFeature (features : List Feature) (name : Bytes) : List Feature :=
  match Feature.tryFrom name with
  | some feature => if feature ∈ features then features else features ++ [feature]
  | none => features

/-- The body of the loop over the parts. -/
def parsePart (maxProperties : ℕ) (acc : List (Bytes × Bytes) × List Feature) (part : Bytes) :
    Except ProtocolError (List (Bytes × Bytes) × List Feature) :=
  if part = [] then .ok acc
  else match splitOnce equals part with
    | none => .error .invalidBannerKeyValue
    | some (key, value) =>
      if key = ascii "features" then .ok (acc.1, (value.splitOnP isComma).foldl addFeature acc.2)
      else if acc.1.length = maxProperties then .error .tooManyBannerProperties
      else .ok (acc.1 ++ [(key, value)], acc.2)

/-- `parse_inner` -/
def parseInner (raw : Bytes) (maxProperties : ℕ) : Except ProtocolError DeviceBanner :=
  if validUtf8 raw = false then .error .invalidBannerUtf8
  else match splitOnce colon raw with
    | none => .error .invalidBannerPrefix
    | some (state, rest) =>
      match splitOnce colon rest with
      | none => .error .invalidBannerPrefix
      | some (serial, payload) =>
        match (payload.splitOnP isSemicolon).foldlM (parsePart maxProperties) ([], []) with
        | .error e => .error e
        | .ok (properties, features) => .ok ⟨raw, state, serial, properties, features⟩

/-- `DeviceBanner::has_feature` -/
def hasFeature (b : DeviceBanner) (feature : Feature) : Bool := b.features.any (· = feature)

end DeviceBanner

/-! ## What the host sends -/

inductive HostBanner where
  | features (list : List Feature)
  | raw (bytes : Bytes)

/-- `to_bytes`; the loop puts a comma before every name but the first. -/
def HostBanner.toBytes : HostBanner → Bytes
  | .features list => ascii "host::features=" ++ List.intercalate [UInt8.ofNat ','.toNat] (list.map Feature.wireName)
  | .raw bytes => bytes

/-- `Negotiated::new`, with the parsed banner beside what the rest of the development reads; `maxBannerProperties` is
the configuration's limit for it. -/
def Negotiated.new [Usize] (hostBanner : Bytes) (cnxn : Packet) (config : ConnectionConfig) (maxBannerProperties : ℕ) :
    Except ProtocolError (Negotiated × DeviceBanner) :=
  let delayedAck := hasFeature hostBanner delayedAckName && hasFeature cnxn.data delayedAckName
  match DeviceBanner.parseInner cnxn.data maxBannerProperties with
  | .error e => .error e
  | .ok banner =>
    .ok (⟨min cnxn.arg1 (UInt32.ofNat maxPayloadConst), min cnxn.arg0 adbVersion, config, delayedAck⟩, banner)

/-! ## What the scan finds -/

theorem positionOf_eq_some {needle l : Bytes} {pos : ℕ} (hn : needle ≠ []) :
    positionOf needle l = some pos ↔ needle <+: l.drop pos ∧ ∀ j < pos, ¬ needle <+: l.drop j := by
  induction l generalizing pos with
  | nil =>
    simp only [positionOf, List.drop_nil, List.prefix_nil, hn, false_and, reduceCtorEq]
  | cons b bs ih =>
    have hhead : (b :: bs).take needle.length = needle ↔ needle <+: b :: bs := by
      rw [List.prefix_iff_eq_take, eq_comm]
    unfold positionOf
    split_ifs with h
    · rw [hhead] at h
      constructor
      · intro hp
        cases hp
        exact ⟨h, by simp⟩
      · rintro ⟨-, hmin⟩
        cases pos with
        | zero => rfl
        | succ pos => exact absurd h (hmin 0 (Nat.succ_pos _))
    · rw [hhead] at h
      cases pos with
      | zero => simp [h]
      | succ pos =>
        simp only [Option.map_eq_some_iff, Nat.add_right_cancel_iff, exists_eq_right, ih, List.drop_succ_cons]
        refine and_congr_right fun _ => ⟨fun hmin j hj => ?_, fun hmin j hj => ?_⟩
        · cases j with
          | zero => exact h
          | succ j => exact hmin j (by omega)
        · exact hmin (j + 1) (by omega)

theorem splitOnce_eq_some {c : Byte} {l a b : Bytes} : splitOnce c l = some (a, b) ↔ c ∉ a ∧ l = a ++ c :: b := by
  induction l generalizing a with
  | nil => simp [splitOnce]
  | cons x xs ih =>
    unfold splitOnce
    split_ifs with hx
    · subst hx
      cases a with
      | nil => simp [eq_comm]
      | cons y ys =>
        simp only [Option.some.injEq, Prod.mk.injEq, List.nil_eq, reduceCtorEq, false_and, List.mem_cons, not_or,
          List.cons_append, List.cons.injEq, false_iff, not_and]
        rintro ⟨hne, -⟩ rfl
        exact absurd rfl hne
    · cases a with
      | nil => simp [hx]
      | cons y ys =>
        simp only [Option.map_eq_some_iff, Prod.exists, Prod.mk.injEq, List.cons.injEq, List.mem_cons, not_or,
          List.cons_append]
        constructor
        · rintro ⟨a, b', h, ⟨rfl, rfl⟩, rfl⟩
          obtain ⟨hc, rfl⟩ := ih.mp h
          exact ⟨⟨fun h => hx h.symm, hc⟩, rfl, rfl⟩
        · rintro ⟨⟨-, hc⟩, rfl, rfl⟩
          exact ⟨ys, b, ih.mpr ⟨hc, rfl⟩, ⟨rfl, rfl⟩, rfl⟩

theorem rsplitOnce_eq_some {c : Byte} {s host port : Bytes} :
    rsplitOnce c s = some (host, port) ↔ c ∉ port ∧ s = host ++ c :: port := by
  rw [rsplitOnce, Option.map_eq_some_iff]
  constructor
  · rintro ⟨⟨front, back⟩, h, heq⟩
    obtain ⟨rfl, rfl⟩ := Prod.mk.inj heq
    obtain ⟨hc, hs⟩ := splitOnce_eq_some.mp h
    refine ⟨fun h => hc (List.mem_reverse.mp h), ?_⟩
    rw [← List.reverse_reverse s, hs, List.reverse_append, List.reverse_cons, List.append_assoc]
    rfl
  · rintro ⟨hc, rfl⟩
    refine ⟨(port.reverse, host.reverse), splitOnce_eq_some.mpr ⟨fun h => hc (List.mem_reverse.mp h), ?_⟩, ?_⟩
    · rw [List.reverse_append, List.reverse_cons, List.append_assoc]
      rfl
    · rw [List.reverse_reverse, List.reverse_reverse]

namespace DeviceBanner

end DeviceBanner

/-! ## The two readings -/

section Pieces

/-- A text up to its first separator. -/
theorem splitOnP_cases (p : Byte → Bool) (text : Bytes) :
    (text.splitOnP p = [text] ∧ ∀ b ∈ text, p b = false) ∨
      ∃ front sep rest, text = front ++ sep :: rest ∧ text.splitOnP p = front :: rest.splitOnP p ∧ p sep = true ∧
        ∀ b ∈ front, p b = false := by
  induction text with
  | nil => exact Or.inl ⟨rfl, by simp⟩
  | cons x xs ih =>
    by_cases hx : p x = true
    · exact Or.inr ⟨[], x, xs, rfl, by rw [List.splitOnP_cons_eq_if_modifyHead, if_pos hx], hx, by simp⟩
    · rw [List.splitOnP_cons_eq_if_modifyHead, if_neg hx]
      have hclean : ∀ l : Bytes, (∀ b ∈ l, p b = false) → ∀ b ∈ x :: l, p b = false := fun l hl =>
        List.forall_mem_cons.mpr ⟨by simpa using hx, hl⟩
      rcases ih with ⟨hone, hno⟩ | ⟨front, sep, rest, rfl, hmore, hsep, hno⟩
      · rw [hone]
        exact Or.inl ⟨rfl, hclean xs hno⟩
      · rw [hmore]
        exact Or.inr ⟨x :: front, sep, rest, rfl, rfl, hsep, hclean front hno⟩

end Pieces

section Misreading

variable {payload : Bytes}

end Misreading

section Mode

variable [Usize]

end Mode

section Samples

end Samples

end LibAdb
