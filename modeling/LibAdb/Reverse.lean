import LibAdb.Base.Banner
import LibAdb.Lib.Numerals

/-!
# LibAdb.Reverse — the replies of the `reverse:` service

The parsers of `reverse.rs`.  A `Block` is four hexadecimal digits and as many bytes as they say, a `listing` the lines
adbd prints its rules in, and a port is printed as an unsigned number or, by `%d`, as the `int` it is held in.
-/

namespace LibAdb.Reverse

open Numerals

inductive ReverseError where
  | failed (message : Bytes)
  | unexpectedReply
  deriving DecidableEq, Repr

/-- `ReverseRule` -/
structure Rule where
  serial : Bytes
  remote : Bytes
  «local» : Bytes
  deriving DecidableEq, Repr

def newline : Byte := UInt8.ofNat '\n'.toNat

/-! ## The parsers -/

section Blocks

variable [Usize]

/-- `hex4_block` -/
def hex4Block (b : Bytes) : Option Bytes :=
  if b.length < 4 then none
  else if (b.take 4).all (Numerals.isDigit 16) = false then none
  else if validUtf8 (b.take 4) = false then none
  else match parseUnsigned 16 usizeMax (b.take 4) with
    | none => none
    | some len => if (b.drop 4).length ≠ len then none else some (b.drop 4)

/-- `fail_message` -/
def failMessage (rest : Bytes) : ReverseError := .failed ((hex4Block rest).getD rest)

/-- `parse_status` -/
def parseStatus (reply : Bytes) : Except ReverseError Bytes :=
  if reply.length < 4 then .error .unexpectedReply
  else if reply.take 4 = ascii "OKAY" then
    if reply.drop 4 = [] then .ok []
    else match hex4Block (reply.drop 4) with
      | some data => .ok data
      | none => .error .unexpectedReply
  else if reply.take 4 = ascii "FAIL" then .error (failMessage (reply.drop 4))
  else .error .unexpectedReply

end Blocks

/-- `parse_port` -/
def parsePort (data : Bytes) : Except ReverseError (Option UInt32) :=
  if data = [] then .ok none
  else
    let negative := data.head? = some minus
    let digits := if negative then data.tail else data
    if digits.all (Numerals.isDigit 10) = false then .error .unexpectedReply
    else if validUtf8 data = false then .error .unexpectedReply
    else
      let port :=
        if negative then (parseSigned 10 32 data).map fun port => (Int32.ofInt port).toUInt32
        else (parseUnsigned 10 4294967295 data).map UInt32.ofNat
      match port with
      | some port => .ok (some port)
      | none => .error .unexpectedReply

/-- `slice::splitn` -/
def splitn (sep : Byte) : ℕ → Bytes → List Bytes
  | 0, _ => []
  | 1, s => [s]
  | n + 2, s =>
    match splitOnce sep s with
    | none => [s]
    | some (front, rest) => front :: splitn sep (n + 1) rest

/-- One line of the listing. -/
def parseRule (line : Bytes) : Except ReverseError Rule :=
  match splitn space 3 line with
  | [serial, remote, «local»] => .ok ⟨serial, remote, «local»⟩
  | _ => .error .unexpectedReply

/-- `parse_listing` -/
def parseListing (block : Bytes) : Except ReverseError (List Rule) :=
  if block = [] then .ok []
  else
    let lines := if block.getLast? = some newline then block.dropLast else block
    (lines.splitOn newline).mapM parseRule

/-! ## What adbd prints -/

def Rule.line (r : Rule) : Bytes := r.serial ++ space :: (r.remote ++ space :: r.local)

/-- `<serial> <remote> <local>\n` for each rule. -/
def listing (rules : List Rule) : Bytes := rules.flatMap fun r => r.line ++ [newline]

/-- A rule that can be told from the line it is printed in. -/
structure Rule.Printable (r : Rule) : Prop where
  serial : space ∉ r.serial ∧ newline ∉ r.serial
  remote : space ∉ r.remote ∧ newline ∉ r.remote
  «local» : newline ∉ r.local

/-- Four hexadecimal digits, and as many bytes as they say. -/
def Block (text body : Bytes) : Prop :=
  ∃ digits : Bytes, digits.length = 4 ∧ digits.all (Numerals.isDigit 16) = true ∧ text = digits ++ body ∧
    body.length = numeral 16 0 digits

def hexByte (d : ℕ) : Byte := UInt8.ofNat (if d < 10 then 48 + d else 87 + d)

/-- `%04x` -/
def hex4 (n : ℕ) : Bytes := [hexByte (n / 4096 % 16), hexByte (n / 256 % 16), hexByte (n / 16 % 16), hexByte (n % 16)]

/-- `%04x` and the bytes. -/
def block (body : Bytes) : Bytes := hex4 body.length ++ body

/-! ## Ports -/

theorem lt_of_isDigit {radix : ℕ} {b : Byte} (h : Numerals.isDigit radix b = true) : b < 0x80 := by
  rw [UInt8.lt_iff_toNat_lt]
  show b.toNat < 128
  by_contra hge
  rw [Numerals.isDigit, digit, if_neg (by omega), if_neg (by omega), if_neg (by omega)] at h
  cases h

theorem validUtf8_of_digits {radix : ℕ} {s : Bytes} (h : s.all (Numerals.isDigit radix) = true) : validUtf8 s = true :=
  validUtf8_of_ascii fun b hb => lt_of_isDigit (List.all_eq_true.mp h b hb)

/-- An unsigned number. -/
theorem parsePort_decimal {n : ℕ} (h : n < 2 ^ 32) : parsePort (decimal n) = .ok (some (UInt32.ofNat n)) := by
  have hdigits := decimal_digits n
  have hsign : ¬ (decimal n).head? = some minus := by
    intro hhead
    have hmem := List.mem_of_mem_head? hhead
    exact ne_minus_of_isDigit (List.all_eq_true.mp hdigits _ hmem) rfl
  rw [parsePort, if_neg (decimal_ne_nil n)]
  dsimp only
  rw [if_neg hsign, if_neg (by rw [hdigits]; decide), if_neg (by rw [validUtf8_of_digits hdigits]; decide),
    if_neg hsign, parseUnsigned_decimal (by omega)]
  rfl

/-- A negative number. -/
theorem parsePort_minus {n : ℕ} (h : n ≤ 2 ^ 31) :
    parsePort (minus :: decimal n) = .ok (some (Int32.ofInt (-(n : ℤ))).toUInt32) := by
  have hdigits := decimal_digits n
  have hutf8 : validUtf8 (minus :: decimal n) = true := by
    rw [validUtf8_ascii (by decide)]
    exact validUtf8_of_digits hdigits
  have hsign : (minus :: decimal n).head? = some minus := rfl
  rw [parsePort, if_neg (List.cons_ne_nil _ _)]
  dsimp only
  rw [if_pos hsign, List.tail_cons, if_neg (by rw [hdigits]; decide), if_neg (by rw [hutf8]; decide), if_pos hsign,
    parseSigned_minus_decimal h]
  rfl

/-- **A port is read from either text.** -/
theorem parsePort_texts (port : UInt32) : parsePort (decimal port.toNat) = .ok (some port) ∧
    parsePort (signedDecimal port.toInt32.toInt) = .ok (some port) := by
  have hlt := port.toNat_lt
  have hunsigned : parsePort (decimal port.toNat) = .ok (some port) := by
    rw [parsePort_decimal hlt, UInt32.ofNat_toNat]
  have hsigned : parsePort (signedDecimal port.toInt32.toInt) = .ok (some port) := by
    have hint : port.toInt32.toInt = if 2 * port.toNat < 2 ^ 32 then (port.toNat : ℤ) else port.toNat - 2 ^ 32 :=
      BitVec.toInt_eq_toNat_cond port.toBitVec
    have hback : (Int32.ofInt port.toInt32.toInt).toUInt32 = port := by
      rw [Int32.ofInt_toInt, UInt32.toUInt32_toInt32]
    cases hcase : port.toInt32.toInt with
    | ofNat m =>
      have hm : m = port.toNat := by
        rw [hcase, Int.ofNat_eq_natCast] at hint
        split_ifs at hint <;> omega
      rw [signedDecimal, hm, hunsigned]
    | negSucc m =>
      have hm : m + 1 ≤ 2 ^ 31 := by
        rw [hcase] at hint
        split_ifs at hint
        omega
      rw [signedDecimal, parsePort_minus hm]
      rw [hcase] at hback
      rw [← hback]
      rfl
  exact ⟨hunsigned, hsigned⟩

/-! ## Listings -/

theorem parseRule_line {r : Rule} (h : r.Printable) : parseRule r.line = .ok r := by
  have h1 : splitOnce space r.line = some (r.serial, r.remote ++ space :: r.local) :=
    splitOnce_eq_some.mpr ⟨h.serial.1, rfl⟩
  have h2 : splitOnce space (r.remote ++ space :: r.local) = some (r.remote, r.local) :=
    splitOnce_eq_some.mpr ⟨h.remote.1, rfl⟩
  rw [parseRule, splitn, h1]
  dsimp only
  rw [splitn, h2]
  rfl

theorem Rule.Printable.line {r : Rule} (h : r.Printable) : newline ∉ r.line := by
  have hspace : newline ≠ space := by decide
  simp [Rule.line, h.serial.2, h.remote.2, h.local, hspace]

/-- The lines without the last newline. -/
theorem listing_eq (r : Rule) (rules : List Rule) :
    listing (r :: rules) = [newline].intercalate ((r :: rules).map Rule.line) ++ [newline] := by
  induction rules generalizing r with
  | nil => simp [listing, List.intercalate]
  | cons r' rules ih =>
    have htail : listing (r :: r' :: rules) = r.line ++ [newline] ++ listing (r' :: rules) := List.flatMap_cons
    rw [htail, ih r', List.map_cons, List.map_cons, List.map_cons, List.intercalate_cons_cons]
    simp only [List.append_assoc]

/-- **A listing is read back.** -/
theorem parseListing_listing {rules : List Rule} (h : ∀ r ∈ rules, r.Printable) :
    parseListing (listing rules) = .ok rules := by
  cases rules with
  | nil => rfl
  | cons r rules =>
    have hlines : ∀ line ∈ (r :: rules).map Rule.line, newline ∉ line := by
      intro line hline
      obtain ⟨r', hr', rfl⟩ := List.mem_map.mp hline
      exact (h r' hr').line
    have hmap : ∀ rs : List Rule, (∀ r ∈ rs, r.Printable) → (rs.map Rule.line).mapM parseRule = .ok rs := by
      intro rs hrs
      induction rs with
      | nil => rfl
      | cons r rs ih =>
        rw [List.map_cons, List.mapM_cons, parseRule_line (hrs r List.mem_cons_self),
          ih fun r hr => hrs r (List.mem_cons_of_mem _ hr)]
        rfl
    rw [listing_eq, parseListing, if_neg (by simp)]
    dsimp only
    rw [List.getLast?_concat, if_pos rfl, List.dropLast_concat,
      List.splitOn_intercalate newline hlines (List.cons_ne_nil _ _)]
    exact hmap _ h

/-! ## Blocks -/

section Blocks

variable [Usize]

omit [Usize] in
/-- Four digits stay below 65536. -/
theorem numeral_hex4_le {digits : Bytes} (hlen : digits.length = 4) : numeral 16 0 digits ≤ 65535 := by
  obtain ⟨a, b, c, d, rfl⟩ : ∃ a b c d, digits = [a, b, c, d] := List.length_eq_four.mp hlen
  have hdigit : ∀ b, (digit 16 b).getD 0 ≤ 15 := by
    intro b
    cases hd : digit 16 b with
    | none => exact Nat.zero_le _
    | some v =>
      have hlt := of_decide_eq_true (Option.filter_eq_some_iff.mp hd).2
      exact Nat.le_of_lt_succ hlt
  have h1 := hdigit a
  have h2 := hdigit b
  have h3 := hdigit c
  have h4 := hdigit d
  simp only [numeral, List.foldl_cons, List.foldl_nil]
  omega

/-- **`hex4_block` takes blocks and nothing else.** -/
theorem hex4Block_eq_some {text body : Bytes} : hex4Block text = some body ↔ Block text body := by
  have hmax := u32Max_le_usizeMax
  constructor
  · intro h
    unfold hex4Block at h
    split_ifs at h with hlen hall hutf8
    rw [Bool.not_eq_false] at hall
    have hfour : (text.take 4).length = 4 := by
      rw [List.length_take]
      omega
    split at h
    · cases h
    · rename_i len hparse
      split_ifs at h with hbody
      cases h
      obtain ⟨digits, heq | heq, -, -, hval, -⟩ := (parseUnsigned_eq_some (by decide)).mp hparse
      · refine ⟨text.take 4, hfour, hall, (List.take_append_drop 4 text).symm, ?_⟩
        rw [heq, hval]
        exact not_not.mp hbody
      · -- the digits were looked at before: none of them is a sign
        rw [heq] at hall
        cases hall
  · rintro ⟨digits, hlen, hall, rfl, hbody⟩
    have htake : (digits ++ body).take 4 = digits := by rw [← hlen, List.take_left]
    have hdrop : (digits ++ body).drop 4 = body := by rw [← hlen, List.drop_left]
    have hparse : parseUnsigned 16 usizeMax digits = some (numeral 16 0 digits) := by
      refine (parseUnsigned_eq_some (by decide)).mpr
        ⟨digits, Or.inl rfl, List.ne_nil_of_length_pos (by omega), hall, rfl, ?_⟩
      have := numeral_hex4_le hlen
      omega
    have hshort : ¬ (digits ++ body).length < 4 := by
      rw [List.length_append]
      omega
    rw [hex4Block, if_neg hshort, htake, hdrop, if_neg (by rw [hall]; decide),
      if_neg (by rw [validUtf8_of_digits hall]; decide), hparse]
    exact if_neg (not_not.mpr hbody)

omit [Usize] in
theorem Block.ne_nil {text body : Bytes} (h : Block text body) : text ≠ [] := by
  obtain ⟨digits, hlen, -, rfl, -⟩ := h
  exact List.append_ne_nil_of_left_ne_nil (List.ne_nil_of_length_pos (by omega)) _

omit [Usize] in
theorem digit_hexByte {d : ℕ} (h : d < 16) : digit 16 (hexByte d) = some d := by
  have hall : ∀ d < 16, digit 16 (hexByte d) = some d := by decide
  exact hall d h

omit [Usize] in
/-- What adbd prints is a block. -/
theorem block_spec {body : Bytes} (h : body.length ≤ 65535) : Block (block body) body := by
  have h3 := @digit_hexByte (body.length / 4096 % 16) (Nat.mod_lt _ (by decide))
  have h2 := @digit_hexByte (body.length / 256 % 16) (Nat.mod_lt _ (by decide))
  have h1 := @digit_hexByte (body.length / 16 % 16) (Nat.mod_lt _ (by decide))
  have h0 := @digit_hexByte (body.length % 16) (Nat.mod_lt _ (by decide))
  refine ⟨hex4 body.length, rfl, ?_, rfl, ?_⟩
  · simp only [hex4, List.all_cons, List.all_nil, Numerals.isDigit, h3, h2, h1, h0, Option.isSome_some, Bool.and_self]
  · simp only [hex4, numeral, List.foldl_cons, List.foldl_nil, h3, h2, h1, h0, Option.getD_some]
    omega

/-- A status in front of a block. -/
theorem parseStatus_block {text body : Bytes} (h : Block text body) :
    parseStatus (ascii "OKAY" ++ text) = .ok body ∧ parseStatus (ascii "FAIL" ++ text) = .error (.failed body) := by
  have hread := hex4Block_eq_some.mpr h
  have hlen : ∀ status : Bytes, status.length = 4 → ¬ (status ++ text).length < 4 := by
    intro status hs
    rw [List.length_append]
    omega
  have htake : ∀ status : Bytes, status.length = 4 → (status ++ text).take 4 = status := fun status hs => by
    rw [← hs, List.take_left]
  have hdrop : ∀ status : Bytes, status.length = 4 → (status ++ text).drop 4 = text := fun status hs => by
    rw [← hs, List.drop_left]
  constructor
  · rw [parseStatus, if_neg (hlen _ rfl), htake _ rfl, hdrop _ rfl, if_pos rfl, if_neg h.ne_nil, hread]
  · rw [parseStatus, if_neg (hlen _ rfl), htake _ rfl, hdrop _ rfl, if_neg (by decide), if_pos rfl, failMessage, hread]
    rfl

/-- **Replies of the reverse service are read back**: a port from both of its texts, a listing as its rules, a block as
its bytes, and a status as what it carries. -/
theorem replies_read_back :
    (∀ port : UInt32, parsePort (decimal port.toNat) = .ok (some port) ∧
      parsePort (signedDecimal port.toInt32.toInt) = .ok (some port)) ∧
    (∀ rules : List Rule, (∀ r ∈ rules, r.Printable) → parseListing (listing rules) = .ok rules) ∧
    (∀ text body, hex4Block text = some body ↔ Block text body) ∧
    parseStatus (ascii "OKAY") = .ok [] ∧
    (∀ text body, Block text body →
      parseStatus (ascii "OKAY" ++ text) = .ok body ∧ parseStatus (ascii "FAIL" ++ text) = .error (.failed body)) ∧
    ∀ body : Bytes, body.length ≤ 65535 →
      parseStatus (ascii "OKAY" ++ block body) = .ok body ∧
      parseStatus (ascii "FAIL" ++ block body) = .error (.failed body) := by
  exact ⟨parsePort_texts, fun rules h => parseListing_listing h, fun text body => hex4Block_eq_some, rfl,
    fun text body h => parseStatus_block h, fun body h => parseStatus_block (block_spec h)⟩

end Blocks

/-- A rule with a space in its last field. -/
theorem replies_read_back_spaced :
    let rule : Rule := ⟨ascii "host-19", ascii "tcp:1", ascii "localabstract:a b"⟩
    parseListing (ascii "host-19 tcp:1 localabstract:a b\n") = .ok [rule] := by
  intro rule
  have hprintable : ∀ r ∈ [rule], r.Printable := by
    intro r hr
    obtain rfl := List.mem_singleton.mp hr
    exact ⟨by decide, by decide, by decide⟩
  exact (@replies_read_back usize64).2.1 [rule] hprintable

end LibAdb.Reverse
