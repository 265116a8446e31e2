import LibAdb.Base.Banner
import LibAdb.Lib.Numerals

/-!
# LibAdb.Transport.Uri — transport addresses

`transport/uri.rs`.  `Spells` is the grammar of the module's documentation.  `parse` reads every address of it, and
besides only those of `Signed`: Rust's parsers take a `+` in front of a number.
-/

namespace LibAdb.Uri

open Numerals

/-- `UsbSelector` -/
inductive UsbSelector where
  | any
  | vidPid (vid pid : UInt16)
  | serial (serial : Bytes)
  deriving DecidableEq, Repr

/-- `Uri` -/
inductive Address where
  | tcp (host : Bytes) (port : UInt16)
  | usb (selector : UsbSelector)
  deriving DecidableEq, Repr

inductive UriError where
  | missingScheme
  | unknownScheme
  | invalidHost
  | invalidPort
  | invalidUsbSelector
  deriving DecidableEq, Repr

def bracket : Byte := UInt8.ofNat '['.toNat

def endBracket : Byte := UInt8.ofNat ']'.toNat

/-! ## The parser -/

/-- `str::split_once` at a string. -/
def splitOnceAt (sep s : Bytes) : Option (Bytes × Bytes) :=
  (positionOf sep s).map fun pos => (s.take pos, s.drop (pos + sep.length))

/-- `u16::from_str_radix`; `str::parse` has radix 10. -/
def parseU16 (radix : ℕ) (s : Bytes) : Option UInt16 := (parseUnsigned radix 65535 s).map UInt16.ofNat

/-- `parse_tcp` -/
def parseTcp (rest : Bytes) : Except UriError Address :=
  match rest with
  | [] => .error .invalidHost
  | b :: afterBracket =>
    if b = bracket then
      match splitOnce endBracket afterBracket with
      | none => .error .invalidHost
      | some (host, after) =>
        if host = [] then .error .invalidHost
        else match after with
          | [] => .error .invalidPort
          | c :: portStr =>
            if c = colon then
              match parseU16 10 portStr with
              | some port => .ok (.tcp host port)
              | none => .error .invalidPort
            else .error .invalidPort
    else
      match rsplitOnce colon rest with
      | none => .error .invalidPort
      | some (host, portStr) =>
        if host = [] then .error .invalidHost
        else if colon ∈ host then .error .invalidHost
        else match parseU16 10 portStr with
          | some port => .ok (.tcp host port)
          | none => .error .invalidPort

/-- `parse_usb` -/
def parseUsb (rest : Bytes) : Except UriError Address :=
  if rest = [] then .ok (.usb .any)
  else if (ascii "serial/").isPrefixOf rest then
    if rest.drop 7 = [] then .error .invalidUsbSelector else .ok (.usb (.serial (rest.drop 7)))
  else match splitOnce colon rest with
    | none => .error .invalidUsbSelector
    | some (vidS, pidS) =>
      if vidS.length ≠ 4 ∨ pidS.length ≠ 4 then .error .invalidUsbSelector
      else match parseU16 16 vidS, parseU16 16 pidS with
        | some vid, some pid => .ok (.usb (.vidPid vid pid))
        | _, _ => .error .invalidUsbSelector

/-- `parse` -/
def parse (s : Bytes) : Except UriError Address :=
  match splitOnceAt (ascii "://") s with
  | none => .error .missingScheme
  | some (scheme, rest) =>
    if scheme = ascii "tcp" then parseTcp rest
    else if scheme = ascii "usb" then parseUsb rest
    else .error .unknownScheme

/-! ## The grammar -/

/-- A host as it stands in front of the port: bare, or in brackets. -/
inductive Host : Bytes → Bytes → Prop
  | bare (host : Bytes) (hne : host ≠ []) (hcolon : colon ∉ host) (hbracket : host.head? ≠ some bracket) :
      Host host host
  | bracketed (host : Bytes) (hne : host ≠ []) (hend : endBracket ∉ host) :
      Host host (bracket :: host ++ [endBracket])

/-- One or more decimal digits of at most 65535. -/
def Port (text : Bytes) (port : UInt16) : Prop :=
  text ≠ [] ∧ text.all (Numerals.isDigit 10) = true ∧ numeral 10 0 text = port.toNat

/-- Exactly four hexadecimal digits. -/
def Hex4 (text : Bytes) (id : UInt16) : Prop :=
  text.length = 4 ∧ text.all (Numerals.isDigit 16) = true ∧ numeral 16 0 text = id.toNat

/-- **The grammar**: the addresses, and what they name. -/
inductive Spells : Bytes → Address → Prop
  | tcp {host hostText portText : Bytes} {port : UInt16} (hhost : Host host hostText) (hport : Port portText port) :
      Spells (ascii "tcp://" ++ (hostText ++ colon :: portText)) (.tcp host port)
  | any : Spells (ascii "usb://") (.usb .any)
  | serial {serial : Bytes} (hne : serial ≠ []) : Spells (ascii "usb://serial/" ++ serial) (.usb (.serial serial))
  | vidPid {vidText pidText : Bytes} {vid pid : UInt16} (hvid : Hex4 vidText vid) (hpid : Hex4 pidText pid) :
      Spells (ascii "usb://" ++ (vidText ++ colon :: pidText)) (.usb (.vidPid vid pid))

/-- A `+` and three hexadecimal digits. -/
def PlusHex (text : Bytes) (id : UInt16) : Prop :=
  ∃ digits, text = plus :: digits ∧ digits.length = 3 ∧ digits.all (Numerals.isDigit 16) = true ∧
    numeral 16 0 digits = id.toNat

/-- An address with a `+` in front of its port, its vendor or its product. -/
inductive Signed : Bytes → Prop
  | port {host hostText digits : Bytes} {port : UInt16} (hhost : Host host hostText) (hport : Port digits port) :
      Signed (ascii "tcp://" ++ (hostText ++ colon :: plus :: digits))
  | vid {vidText pidText : Bytes} {vid pid : UInt16} (hvid : PlusHex vidText vid)
      (hpid : Hex4 pidText pid ∨ PlusHex pidText pid) : Signed (ascii "usb://" ++ (vidText ++ colon :: pidText))
  | pid {vidText pidText : Bytes} {vid pid : UInt16} (hvid : Hex4 vidText vid) (hpid : PlusHex pidText pid) :
      Signed (ascii "usb://" ++ (vidText ++ colon :: pidText))

/-! ## What each piece reads -/

variable {s rest text : Bytes} {v : UInt16} {a : Address}

/-- The first `://` ends the scheme. -/
theorem splitOnceAt_scheme {scheme : Bytes} (hscheme : colon ∉ scheme) :
    splitOnceAt (ascii "://") s = some (scheme, rest) ↔ s = scheme ++ (ascii "://" ++ rest) := by
  have hne : ascii "://" ≠ [] := by decide
  have hsep : ascii "://" = [colon, UInt8.ofNat '/'.toNat, UInt8.ofNat '/'.toNat] := rfl
  constructor
  · intro h
    obtain ⟨pos, hpos, heq⟩ := Option.map_eq_some_iff.mp h
    obtain ⟨⟨tail, htail⟩, -⟩ := (positionOf_eq_some hne).mp hpos
    obtain ⟨rfl, rfl⟩ := Prod.mk.inj heq
    have hdrop : s.drop (pos + (ascii "://").length) = tail := by
      rw [← List.drop_drop, ← htail, List.drop_left]
    rw [hdrop, htail, List.take_append_drop]
  · rintro rfl
    have hpos : positionOf (ascii "://") (scheme ++ (ascii "://" ++ rest)) = some scheme.length := by
      refine (positionOf_eq_some hne).mpr ⟨?_, ?_⟩
      · rw [List.drop_left]
        exact List.prefix_append _ _
      · -- a separator further left would put its colon into the scheme
        rintro j hj ⟨tail, htail⟩
        rw [List.drop_append_of_le_length hj.le, hsep, List.drop_eq_getElem_cons hj] at htail
        exact hscheme ((List.cons.inj htail).1 ▸ List.getElem_mem hj)
    rw [splitOnceAt, hpos, Option.map_some, List.take_left, ← List.drop_drop, List.drop_left, List.drop_left]

/-- **A 16-bit number**, with or without a `+`. -/
theorem parseU16_eq_some {radix : ℕ} (hradix : 0 < radix) :
    parseU16 radix text = some v ↔ ∃ digits, (text = digits ∨ text = plus :: digits) ∧ digits ≠ [] ∧
      digits.all (Numerals.isDigit radix) = true ∧ numeral radix 0 digits = v.toNat := by
  rw [parseU16, Option.map_eq_some_iff]
  constructor
  · rintro ⟨n, h, rfl⟩
    obtain ⟨digits, htext, hne, hall, rfl, hle⟩ := (parseUnsigned_eq_some hradix).mp h
    refine ⟨digits, htext, hne, hall, ?_⟩
    rw [UInt16.toNat_ofNat']
    omega
  · rintro ⟨digits, htext, hne, hall, hv⟩
    have hlt := v.toNat_lt
    refine ⟨v.toNat, (parseUnsigned_eq_some hradix).mpr ⟨digits, htext, hne, hall, hv, by omega⟩, ?_⟩
    exact UInt16.ofNat_toNat

theorem parseU16_port : parseU16 10 text = some v ↔ Port text v ∨ ∃ digits, text = plus :: digits ∧ Port digits v := by
  rw [parseU16_eq_some (by decide)]
  constructor
  · rintro ⟨digits, rfl | rfl, hport⟩
    · exact Or.inl hport
    · exact Or.inr ⟨digits, rfl, hport⟩
  · rintro (hport | ⟨digits, rfl, hport⟩)
    · exact ⟨text, Or.inl rfl, hport⟩
    · exact ⟨digits, Or.inr rfl, hport⟩

/-- **An id of four characters**: digits, or a `+` and digits. -/
theorem parseU16_hex : text.length = 4 ∧ parseU16 16 text = some v ↔ Hex4 text v ∨ PlusHex text v := by
  rw [parseU16_eq_some (by decide)]
  constructor
  · rintro ⟨hlen, digits, rfl | rfl, -, hall, hv⟩
    · exact Or.inl ⟨hlen, hall, hv⟩
    · exact Or.inr ⟨digits, rfl, Nat.succ_injective hlen, hall, hv⟩
  · rintro (⟨hlen, hv⟩ | ⟨digits, rfl, hlen, hv⟩)
    · exact ⟨hlen, text, Or.inl rfl, List.ne_nil_of_length_pos (by omega), hv⟩
    · exact ⟨congrArg Nat.succ hlen, digits, Or.inr rfl, List.ne_nil_of_length_pos (by omega), hv⟩

theorem colon_notMem_digits {radix : ℕ} (h : text.all (Numerals.isDigit radix) = true) : colon ∉ text := fun hmem =>
  absurd (List.all_eq_true.mp h _ hmem) (by simp [Numerals.isDigit, digit, colon])

theorem plus_notMem_digits {radix : ℕ} (h : text.all (Numerals.isDigit radix) = true) : plus ∉ text := fun hmem =>
  absurd (List.all_eq_true.mp h _ hmem) (by simp [Numerals.isDigit, digit, plus])

theorem PlusHex.no_colon (h : PlusHex text v) : colon ∉ text := by
  obtain ⟨digits, rfl, -, hall, -⟩ := h
  exact List.not_mem_cons_of_ne_of_not_mem (by decide) (colon_notMem_digits hall)

theorem Port.no_colon (h : Port text v) : colon ∉ text := colon_notMem_digits h.2.1

theorem parseU16_no_colon (h : parseU16 10 text = some v) : colon ∉ text := by
  rcases parseU16_port.mp h with hport | ⟨digits, rfl, hport⟩
  · exact hport.no_colon
  · exact List.not_mem_cons_of_ne_of_not_mem (by decide) hport.no_colon

/-! ## The forms -/

/-- **`parse_tcp`**: a host, and a port as `u16` reads it. -/
theorem parseTcp_eq_ok : parseTcp rest = .ok a ↔ ∃ host hostText portText port, Host host hostText ∧
    parseU16 10 portText = some port ∧ rest = hostText ++ colon :: portText ∧ a = .tcp host port := by
  constructor
  · intro h
    unfold parseTcp at h
    split at h
    · cases h
    · rename_i b after
      split_ifs at h with hb
      · -- in brackets
        subst hb
        split at h
        · cases h
        · rename_i host after' hsplit
          obtain ⟨hend, rfl⟩ := splitOnce_eq_some.mp hsplit
          split_ifs at h with hne
          split at h
          · cases h
          · rename_i c portStr
            split_ifs at h with hc
            subst hc
            split at h
            · rename_i port hport
              cases h
              refine ⟨host, _, portStr, port, .bracketed host hne hend, hport, ?_, rfl⟩
              rw [List.cons_append, List.cons_append, List.append_assoc]
              rfl
            · cases h
      · split at h
        · cases h
        · rename_i host portStr hsplit
          obtain ⟨-, hrest⟩ := rsplitOnce_eq_some.mp hsplit
          split_ifs at h with hne hcolon
          split at h
          · rename_i port hport
            cases h
            refine ⟨host, host, portStr, port, .bare host hne hcolon ?_, hport, hrest, rfl⟩
            -- the host begins where the address does
            cases host with
            | nil => exact absurd rfl hne
            | cons c host =>
              rintro ⟨⟩
              exact hb (List.cons.inj hrest).1
          · cases h
  · rintro ⟨host, hostText, portText, port, hhost, hport, rfl, rfl⟩
    cases hhost with
    | bare hne hcolon hbracket =>
      cases host with
      | nil => exact absurd rfl hne
      | cons b host =>
        have hb : b ≠ bracket := fun h => hbracket (by rw [h]; rfl)
        have hsplit : rsplitOnce colon (b :: host ++ colon :: portText) = some (b :: host, portText) :=
          rsplitOnce_eq_some.mpr ⟨parseU16_no_colon hport, rfl⟩
        rw [List.cons_append] at hsplit ⊢
        rw [parseTcp, if_neg hb, hsplit]
        dsimp only
        rw [if_neg hne, if_neg hcolon, hport]
    | bracketed hne hend =>
      have hsplit : splitOnce endBracket (host ++ endBracket :: colon :: portText) = some (host, colon :: portText) :=
        splitOnce_eq_some.mpr ⟨hend, rfl⟩
      rw [List.cons_append, List.cons_append, List.append_assoc, List.singleton_append, parseTcp, if_pos rfl, hsplit]
      dsimp only
      rw [if_neg hne, if_pos rfl, hport]

/-- The fifth character is a colon, and not that of `serial/`. -/
theorem not_serial {vidText pidText : Bytes} (h4 : vidText.length = 4) :
    ¬ ascii "serial/" <+: vidText ++ colon :: pidText := by
  intro hp
  have hfifth := hp.getElem (i := 4) (by decide)
  rw [List.getElem_append_right h4.le] at hfifth
  simp only [h4, Nat.sub_self, List.getElem_cons_zero] at hfifth
  exact absurd hfifth (by decide)

/-- **`parse_usb`** -/
theorem parseUsb_eq_ok : parseUsb rest = .ok a ↔ (rest = [] ∧ a = .usb .any) ∨
    (∃ serial, serial ≠ [] ∧ rest = ascii "serial/" ++ serial ∧ a = .usb (.serial serial)) ∨
    ∃ vidText pidText vid pid, vidText.length = 4 ∧ pidText.length = 4 ∧ colon ∉ vidText ∧
      parseU16 16 vidText = some vid ∧ parseU16 16 pidText = some pid ∧ rest = vidText ++ colon :: pidText ∧
      a = .usb (.vidPid vid pid) := by
  have hseven : (ascii "serial/").length = 7 := rfl
  constructor
  · intro h
    unfold parseUsb at h
    split_ifs at h with hnil hserial hempty
    · cases h
      exact Or.inl ⟨hnil, rfl⟩
    · cases h
      obtain ⟨serial, rfl⟩ := List.isPrefixOf_iff_prefix.mp hserial
      rw [← hseven, List.drop_left] at hempty ⊢
      exact Or.inr (Or.inl ⟨serial, hempty, rfl, rfl⟩)
    · split at h
      · cases h
      · rename_i vidS pidS hsplit
        obtain ⟨hcolon, rfl⟩ := splitOnce_eq_some.mp hsplit
        split_ifs at h with hlen
        push Not at hlen
        split at h
        · rename_i vid pid hvid hpid
          cases h
          exact Or.inr (Or.inr ⟨vidS, pidS, vid, pid, hlen.1, hlen.2, hcolon, hvid, hpid, rfl, rfl⟩)
        · cases h
  · rintro (⟨rfl, rfl⟩ | ⟨serial, hne, rfl, rfl⟩ | ⟨vidText, pidText, vid, pid, h4, h4', hcolon, hvid, hpid, rfl, rfl⟩)
    · rfl
    · have hprefix : (ascii "serial/").isPrefixOf (ascii "serial/" ++ serial) = true :=
        List.isPrefixOf_iff_prefix.mpr (List.prefix_append _ _)
      have hdrop : (ascii "serial/" ++ serial).drop 7 = serial := by rw [← hseven, List.drop_left]
      rw [parseUsb, if_neg (List.append_ne_nil_of_left_ne_nil (by decide) _), if_pos hprefix, hdrop, if_neg hne]
    · have hprefix : ¬ (ascii "serial/").isPrefixOf (vidText ++ colon :: pidText) = true := fun hp =>
        not_serial h4 (List.isPrefixOf_iff_prefix.mp hp)
      have hsplit : splitOnce colon (vidText ++ colon :: pidText) = some (vidText, pidText) :=
        splitOnce_eq_some.mpr ⟨hcolon, rfl⟩
      rw [parseUsb, if_neg (by simp), if_neg hprefix, hsplit]
      dsimp only
      rw [if_neg (by simp [h4, h4']), hvid, hpid]

/-- The two schemes. -/
theorem parse_eq_ok : parse s = .ok a ↔ (∃ rest, s = ascii "tcp://" ++ rest ∧ parseTcp rest = .ok a) ∨
    ∃ rest, s = ascii "usb://" ++ rest ∧ parseUsb rest = .ok a := by
  have htcp : colon ∉ ascii "tcp" := by decide
  have husb : colon ∉ ascii "usb" := by decide
  constructor
  · intro h
    unfold parse at h
    split at h
    · cases h
    · rename_i scheme rest hsplit
      split_ifs at h with h1 h2
      · subst h1
        exact Or.inl ⟨rest, (splitOnceAt_scheme htcp).mp hsplit, h⟩
      · subst h2
        exact Or.inr ⟨rest, (splitOnceAt_scheme husb).mp hsplit, h⟩
  · rintro (⟨rest, rfl, h⟩ | ⟨rest, rfl, h⟩)
    · have hsplit : splitOnceAt (ascii "://") (ascii "tcp://" ++ rest) = some (ascii "tcp", rest) :=
        (splitOnceAt_scheme htcp).mpr rfl
      rw [parse, hsplit]
      dsimp only
      rw [if_pos rfl, h]
    · have hsplit : splitOnceAt (ascii "://") (ascii "usb://" ++ rest) = some (ascii "usb", rest) :=
        (splitOnceAt_scheme husb).mpr rfl
      rw [parse, hsplit]
      dsimp only
      rw [if_neg (by decide), if_pos rfl, h]

/-- Two ids, each with or without a sign. -/
theorem parse_vidPid {vidText pidText : Bytes} {vid pid : UInt16} (hvid : Hex4 vidText vid ∨ PlusHex vidText vid)
    (hpid : Hex4 pidText pid ∨ PlusHex pidText pid) :
    parse (ascii "usb://" ++ (vidText ++ colon :: pidText)) = .ok (.usb (.vidPid vid pid)) := by
  have hcolon : colon ∉ vidText := hvid.elim (fun h => colon_notMem_digits h.2.1) PlusHex.no_colon
  obtain ⟨h4, hvid⟩ := parseU16_hex.mpr hvid
  obtain ⟨h4', hpid⟩ := parseU16_hex.mpr hpid
  exact parse_eq_ok.mpr (Or.inr ⟨_, rfl, parseUsb_eq_ok.mpr (Or.inr (Or.inr
    ⟨_, _, _, _, h4, h4', hcolon, hvid, hpid, rfl, rfl⟩))⟩)

theorem Spells.parse_ok (h : Spells s a) : parse s = .ok a := by
  cases h with
  | tcp hhost hport =>
    have hread := parseU16_port.mpr (Or.inl hport)
    exact parse_eq_ok.mpr (Or.inl ⟨_, rfl, parseTcp_eq_ok.mpr ⟨_, _, _, _, hhost, hread, rfl, rfl⟩⟩)
  | any => exact parse_eq_ok.mpr (Or.inr ⟨[], rfl, rfl⟩)
  | serial hne => exact parse_eq_ok.mpr (Or.inr ⟨_, rfl, parseUsb_eq_ok.mpr (Or.inr (Or.inl ⟨_, hne, rfl, rfl⟩))⟩)
  | vidPid hvid hpid => exact parse_vidPid (Or.inl hvid) (Or.inl hpid)

/-- What has a sign is read all the same. -/
theorem Signed.parse_ok (h : Signed s) : ∃ a, parse s = .ok a := by
  cases h with
  | port hhost hport =>
    have hread := parseU16_port.mpr (Or.inr ⟨_, rfl, hport⟩)
    exact ⟨_, parse_eq_ok.mpr (Or.inl ⟨_, rfl, parseTcp_eq_ok.mpr ⟨_, _, _, _, hhost, hread, rfl, rfl⟩⟩)⟩
  | vid hvid hpid => exact ⟨_, parse_vidPid (Or.inr hvid) hpid⟩
  | pid hvid hpid => exact ⟨_, parse_vidPid (Or.inl hvid) (Or.inr hpid)⟩

/-- What is read and is not in the grammar has a sign. -/
theorem spells_or_signed (h : parse s = .ok a) : Spells s a ∨ Signed s := by
  rcases parse_eq_ok.mp h with ⟨rest, rfl, h⟩ | ⟨rest, rfl, h⟩
  · obtain ⟨host, hostText, portText, port, hhost, hport, rfl, rfl⟩ := parseTcp_eq_ok.mp h
    rcases parseU16_port.mp hport with hplain | ⟨digits, rfl, hdigits⟩
    · exact Or.inl (.tcp hhost hplain)
    · exact Or.inr (.port hhost hdigits)
  · rcases parseUsb_eq_ok.mp h with ⟨rfl, rfl⟩ | ⟨serial, hne, rfl, rfl⟩ |
      ⟨vidText, pidText, vid, pid, h4, h4', -, hvid, hpid, rfl, rfl⟩
    · exact Or.inl .any
    · exact Or.inl (.serial hne)
    · have hpid' := parseU16_hex.mp ⟨h4', hpid⟩
      rcases parseU16_hex.mp ⟨h4, hvid⟩ with hvid | hvid
      · rcases hpid' with hpid | hpid
        · exact Or.inl (.vidPid hvid hpid)
        · exact Or.inr (.pid hvid hpid)
      · exact Or.inr (.vid hvid hpid')

/-- What stands behind the last colon. -/
theorem behind_last_colon {a a' b b' : Bytes} (hb : colon ∉ b) (hb' : colon ∉ b')
    (h : a ++ colon :: b = a' ++ colon :: b') : b = b' := by
  have h1 : rsplitOnce colon (a ++ colon :: b) = some (a, b) := rsplitOnce_eq_some.mpr ⟨hb, rfl⟩
  have h2 : rsplitOnce colon (a ++ colon :: b) = some (a', b') := rsplitOnce_eq_some.mpr ⟨hb', h⟩
  exact (Prod.mk.inj (Option.some.inj (h1.symm.trans h2))).2

/-- The schemes differ in their first letter. -/
theorem tcp_ne_usb (x y : Bytes) : ascii "tcp://" ++ x ≠ ascii "usb://" ++ y := fun h =>
  absurd (List.cons.inj h).1 (by decide)

/-- Four characters and a colon behind `usb://` are two ids. -/
theorem Spells.ids {front back : Bytes} (hlen : front.length = 4)
    (h : Spells (ascii "usb://" ++ (front ++ colon :: back)) a) : ∃ vidText pidText vid pid,
      Hex4 vidText vid ∧ Hex4 pidText pid ∧ front ++ colon :: back = vidText ++ colon :: pidText := by
  generalize hx : ascii "usb://" ++ (front ++ colon :: back) = x at h
  cases h with
  | tcp => exact absurd hx.symm (tcp_ne_usb _ _)
  | any => exact absurd (List.append_cancel_left (hx.trans (List.append_nil _).symm)) (by simp)
  | serial =>
    rw [show ascii "usb://serial/" = ascii "usb://" ++ ascii "serial/" from rfl, List.append_assoc] at hx
    exact absurd ⟨_, (List.append_cancel_left hx).symm⟩ (not_serial hlen)
  | vidPid hvid hpid => exact ⟨_, _, _, _, hvid, hpid, List.append_cancel_left hx⟩

/-- **A sign is not in the grammar.** -/
theorem Signed.not_spells (h : Signed s) : ¬ Spells s a := by
  intro hs
  cases h with
  | @port host hostText digits port hhost hport =>
    generalize hx : ascii "tcp://" ++ (hostText ++ colon :: plus :: digits) = x at hs
    cases hs with
    | @tcp host' hostText' portText' port' hhost' hport' =>
      rw [← List.append_assoc, ← List.append_assoc] at hx
      have hlast := behind_last_colon (List.not_mem_cons_of_ne_of_not_mem (by decide) hport.no_colon) hport'.no_colon hx
      exact plus_notMem_digits hport'.2.1 (hlast ▸ List.mem_cons_self)
    | any => exact tcp_ne_usb _ [] hx
    | serial => exact tcp_ne_usb _ (ascii "serial/" ++ _) hx
    | vidPid => exact tcp_ne_usb _ _ hx
  | @vid vidText pidText vid pid hvid hpid =>
    obtain ⟨digits, rfl, hthree, -⟩ := hvid
    obtain ⟨vidText', pidText', vid', pid', hvid', -, hx⟩ := hs.ids (by simp [hthree])
    obtain ⟨c, rest, rfl⟩ := List.exists_cons_of_length_eq_add_one hvid'.1
    exact plus_notMem_digits hvid'.2.1 ((List.cons.inj hx).1 ▸ List.mem_cons_self)
  | @pid vidText pidText vid pid hvid hpid =>
    obtain ⟨vidText', pidText', vid', pid', -, hpid', hx⟩ := hs.ids hvid.1
    have hlast := behind_last_colon hpid.no_colon (colon_notMem_digits hpid'.2.1) hx
    obtain ⟨digits, rfl, -⟩ := hpid
    exact plus_notMem_digits hpid'.2.1 (hlast ▸ List.mem_cons_self)

/-- **Addresses are read by the grammar exactly when no number in them has a sign.** -/
theorem parse_accepts_grammar_iff (s : Bytes) : (∀ a, parse s = .ok a ↔ Spells s a) ↔ ¬ Signed s := by
  constructor
  · intro h hsign
    obtain ⟨a, ha⟩ := hsign.parse_ok
    exact hsign.not_spells ((h a).mp ha)
  · exact fun hsign a => ⟨fun h => (spells_or_signed h).resolve_right hsign, Spells.parse_ok⟩

/-- A port with a sign is read, and is not in the grammar. -/
theorem parse_accepts_signed_port :
    parse (ascii "tcp://host:+80") = .ok (.tcp (ascii "host") 80) ∧ ¬ ∃ a, Spells (ascii "tcp://host:+80") a := by
  have hsign : Signed (ascii "tcp://host:+80") := @Signed.port (ascii "host") (ascii "host") (ascii "80") 80
    (.bare _ (by decide) (by decide) (by decide)) ⟨by decide, by decide, by decide⟩
  exact ⟨by decide +kernel, fun ⟨_, h⟩ => hsign.not_spells h⟩

end LibAdb.Uri
