import Mathlib.Tactic

/-!
# LibAdb.Lib.Numerals — numbers in text, as Rust's integer types parse them

`from_str_radix` of an integer type: an optional sign, and then digits that are folded into the number with every
product and sum checked.  The unsigned types take a `+` and no `-`.  `numeral` is the number some digits stand for, and
`parseDigits_eq` says that the loop gives it exactly when every byte is a digit and it fits.

`decimal` is the text of a number.
-/

namespace Numerals

/-- `char::to_digit` -/
def digit (radix : ℕ) (b : UInt8) : Option ℕ :=
  let d :=
    if 48 ≤ b.toNat ∧ b.toNat ≤ 57 then some (b.toNat - 48)
    else if 97 ≤ b.toNat ∧ b.toNat ≤ 122 then some (b.toNat - 87)
    else if 65 ≤ b.toNat ∧ b.toNat ≤ 90 then some (b.toNat - 55)
    else none
  d.filter (· < radix)

def isDigit (radix : ℕ) (b : UInt8) : Bool := (digit radix b).isSome

/-- The loop over the digits, for a type whose values reach up to `limit`. -/
def parseDigits (radix limit : ℕ) : ℕ → List UInt8 → Option ℕ
  | n, [] => some n
  | n, b :: bs =>
    match digit radix b with
    | none => none
    | some d =>
      if limit < n * radix then none
      else if limit < n * radix + d then none
      else parseDigits radix limit (n * radix + d) bs

def plus : UInt8 := 43

def minus : UInt8 := 45

/-- `from_str_radix` of an unsigned type. -/
def parseUnsigned (radix limit : ℕ) : List UInt8 → Option ℕ
  | [] => none
  | b :: bs =>
    if b = plus then if bs = [] then none else parseDigits radix limit 0 bs
    else parseDigits radix limit 0 (b :: bs)

/-- `from_str_radix` of a signed type: its negative numbers reach one further. -/
def parseSigned (radix bits : ℕ) : List UInt8 → Option ℤ
  | [] => none
  | b :: bs =>
    if b = minus then
      if bs = [] then none else (parseDigits radix (2 ^ (bits - 1)) 0 bs).map fun n => -(n : ℤ)
    else (parseUnsigned radix (2 ^ (bits - 1) - 1) (b :: bs)).map fun n => (n : ℤ)

/-- The number some digits stand for, behind `n`. -/
def numeral (radix n : ℕ) (digits : List UInt8) : ℕ :=
  digits.foldl (fun n b => n * radix + (digit radix b).getD 0) n

variable {radix limit n : ℕ} {b : UInt8} {bs : List UInt8}

theorem le_numeral (hradix : 0 < radix) (n : ℕ) (bs : List UInt8) : n ≤ numeral radix n bs := by
  induction bs generalizing n with
  | nil => exact le_rfl
  | cons b bs ih =>
    calc n ≤ n * radix := Nat.le_mul_of_pos_right n hradix
      _ ≤ n * radix + (digit radix b).getD 0 := Nat.le_add_right _ _
      _ ≤ numeral radix n (b :: bs) := ih _

/-- **The loop gives the number, if it is one and fits.** -/
theorem parseDigits_eq (hradix : 0 < radix) (hn : n ≤ limit) :
    parseDigits radix limit n bs =
      if bs.all (isDigit radix) = true ∧ numeral radix n bs ≤ limit then some (numeral radix n bs) else none := by
  induction bs generalizing n with
  | nil => rw [parseDigits, if_pos ⟨rfl, hn⟩, numeral, List.foldl_nil]
  | cons b bs ih =>
    rw [parseDigits]
    cases hd : digit radix b with
    | none => simp [isDigit, hd]
    | some d =>
      have hnext : numeral radix n (b :: bs) = numeral radix (n * radix + d) bs := by
        rw [numeral, List.foldl_cons, hd]
        rfl
      have hhead : isDigit radix b = true := by rw [isDigit, hd]; rfl
      have hgrows := le_numeral hradix (n * radix + d) bs
      dsimp only
      rw [hnext, List.all_cons, hhead, Bool.true_and]
      by_cases hmul : limit < n * radix
      · rw [if_pos hmul, if_neg (by omega)]
      · rw [if_neg hmul]
        by_cases hadd : limit < n * radix + d
        · rw [if_pos hadd, if_neg (by omega)]
        · rw [if_neg hadd]
          exact ih (by omega)

theorem ne_minus_of_isDigit (h : isDigit radix b = true) : b ≠ minus := by
  rintro rfl
  cases h

/-- **What an unsigned type parses**: digits, with or without a `+`. -/
theorem parseUnsigned_eq_some (hradix : 0 < radix) {s : List UInt8} {v : ℕ} :
    parseUnsigned radix limit s = some v ↔
      ∃ digits, (s = digits ∨ s = plus :: digits) ∧ digits ≠ [] ∧ digits.all (isDigit radix) = true ∧
        numeral radix 0 digits = v ∧ v ≤ limit := by
  have hloop : ∀ digits, parseDigits radix limit 0 digits = some v ↔
      digits.all (isDigit radix) = true ∧ numeral radix 0 digits = v ∧ v ≤ limit := by
    intro digits
    rw [parseDigits_eq hradix (Nat.zero_le _)]
    split_ifs with h
    · rw [Option.some.injEq]
      exact ⟨fun hv => ⟨h.1, hv, hv ▸ h.2⟩, fun hv => hv.2.1⟩
    · refine ⟨fun hv => (by cases hv), fun hv => absurd ⟨hv.1, hv.2.1.trans_le hv.2.2⟩ h⟩
  cases s with
  | nil =>
    refine ⟨fun h => (by cases h), ?_⟩
    rintro ⟨digits, rfl | h, hne, -⟩
    · exact absurd rfl hne
    · cases h
  | cons b bs =>
    rw [parseUnsigned]
    split_ifs with hb hbs
    · subst hb hbs
      refine ⟨fun h => (by cases h), ?_⟩
      rintro ⟨digits, rfl | h, hne, hall, -⟩
      · cases hall
      · exact absurd (List.cons.inj h).2.symm hne
    · subst hb
      rw [hloop]
      constructor
      · exact fun h => ⟨bs, Or.inr rfl, hbs, h⟩
      · rintro ⟨digits, rfl | h, hne, hall, hv⟩
        · cases hall
        · obtain rfl := (List.cons.inj h).2
          exact ⟨hall, hv⟩
    · rw [hloop]
      constructor
      · exact fun h => ⟨b :: bs, Or.inl rfl, List.cons_ne_nil _ _, h⟩
      · rintro ⟨digits, rfl | h, hne, hv⟩
        · exact hv
        · exact absurd (List.cons.inj h).1 hb

/-! ## The text of a number -/

/-- A number in decimal. -/
def decimal (n : ℕ) : List UInt8 := (Nat.toDigits 10 n).map fun c => UInt8.ofNat c.toNat

/-- An integer in decimal. -/
def signedDecimal : ℤ → List UInt8
  | .ofNat n => decimal n
  | .negSucc n => minus :: decimal (n + 1)

theorem digit_of_isDigit {c : Char} (h : c.isDigit = true) :
    digit 10 (UInt8.ofNat c.toNat) = some (c.toNat - 48) := by
  obtain ⟨hlo, hhi⟩ : 48 ≤ c.toNat ∧ c.toNat ≤ 57 := by
    rw [Char.isDigit, Bool.and_eq_true, decide_eq_true_eq, decide_eq_true_eq] at h
    exact ⟨UInt32.le_iff_toNat_le.mp h.1, UInt32.le_iff_toNat_le.mp h.2⟩
  have hbyte : (UInt8.ofNat c.toNat).toNat = c.toNat := by
    rw [UInt8.toNat_ofNat']
    omega
  rw [digit, hbyte, if_pos ⟨hlo, hhi⟩, Option.filter_some, if_pos]
  rw [decide_eq_true_eq]
  omega

theorem decimal_ne_nil (n : ℕ) : decimal n ≠ [] := by
  rw [decimal, Ne, List.map_eq_nil_iff]
  exact Nat.toDigits_ne_nil

theorem decimal_digits (n : ℕ) : (decimal n).all (isDigit 10) = true := by
  rw [decimal, List.all_map, List.all_eq_true]
  intro c hc
  have hdigit := Nat.isDigit_of_mem_toDigits (by decide) (by decide) hc
  rw [Function.comp_apply, isDigit, digit_of_isDigit hdigit]
  rfl

/-- **The text of a number stands for it.** -/
theorem numeral_decimal (n : ℕ) : numeral 10 0 (decimal n) = n := by
  have hfold : ∀ (cs : List Char) (k : ℕ), (∀ c ∈ cs, c.isDigit = true) →
      numeral 10 k (cs.map fun c => UInt8.ofNat c.toNat) = Nat.ofDigitChars 10 cs k := by
    intro cs
    induction cs with
    | nil => exact fun k _ => rfl
    | cons c cs ih =>
      intro k hcs
      have hc := digit_of_isDigit (hcs c List.mem_cons_self)
      have hrest := ih (k * 10 + (c.toNat - 48)) fun c hc => hcs c (List.mem_cons_of_mem _ hc)
      rw [List.map_cons, numeral, List.foldl_cons, hc]
      show numeral 10 (k * 10 + (c.toNat - 48)) _ = _
      rw [hrest, Nat.ofDigitChars, Nat.ofDigitChars, List.foldl_cons, mul_comm k 10]
      rfl
  have hdigits : ∀ c ∈ Nat.toDigits 10 n, c.isDigit = true := fun c hc =>
    Nat.isDigit_of_mem_toDigits (by decide) (by decide) hc
  rw [decimal, hfold _ _ hdigits, Nat.ofDigitChars_toDigits (by decide) le_rfl]

theorem parseUnsigned_decimal (h : n ≤ limit) : parseUnsigned 10 limit (decimal n) = some n :=
  (parseUnsigned_eq_some (by decide)).mpr
    ⟨decimal n, Or.inl rfl, decimal_ne_nil n, decimal_digits n, numeral_decimal n, h⟩

theorem parseSigned_minus_decimal {bits : ℕ} (h : n ≤ 2 ^ (bits - 1)) :
    parseSigned 10 bits (minus :: decimal n) = some (-(n : ℤ)) := by
  have hloop : parseDigits 10 (2 ^ (bits - 1)) 0 (decimal n) = some n := by
    rw [parseDigits_eq (by decide) (Nat.zero_le _), numeral_decimal, if_pos ⟨decimal_digits n, h⟩]
  rw [parseSigned, if_pos rfl, if_neg (decimal_ne_nil n), hloop]
  rfl

end Numerals
