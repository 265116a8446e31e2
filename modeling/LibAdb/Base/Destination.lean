import LibAdb.Base.Banner
import LibAdb.Lib.ShellWords
import LibAdb.Lib.Slices

/-!
# LibAdb.Base.Destination — service strings that carry an argument list

`base/destination.rs`, and the destinations `cmd.rs`, `abb.rs` and `shell/v2.rs` (`open_argv`) open with it.

`writeDestination` writes `destinationText` or fails (`writeDestination_eq`).  A shell (`Lib.ShellWords`) reads every
argument of it back as one word (`lex_argsText`), and no character of one is exposed that it would expand or take for an
operator (`exposed_quoted_safe`).  `buildNulDestination` needs no quoting, since its arguments end in a NUL.
-/

namespace LibAdb.Destination

open Slices ShellWords

def apostrophe : Byte := 39

def backslash : Byte := 92

/-! ## Writing a destination -/

/-- `DestinationError` -/
inductive DestinationError where
  | tooLong
  | nul
  deriving DecidableEq, Repr

/-- `From<DestinationError> for Error` -/
def DestinationError.toError : DestinationError → Error
  | .tooLong => .receiveBufferFull
  | .nul => .protocol .invalidDestination

/-- What is written so far, and the buffer it stands in. -/
structure Draft where
  len : ℕ
  buf : Bytes
  deriving DecidableEq, Repr

section Writing

variable [Usize]

/-- `write_bytes` -/
def writeBytes (src : Bytes) (d : Draft) : Except DestinationError Draft :=
  let stop := d.len + src.length
  if usizeMax < stop then .error .tooLong
  else if d.buf.length < stop then .error .tooLong
  else .ok ⟨stop, splice d.buf d.len src⟩

/-- `is_shell_safe` -/
def isShellSafe (b : Byte) : Bool :=
  (48 ≤ b && b ≤ 57) || (65 ≤ b && b ≤ 90) || (97 ≤ b && b ≤ 122) || b ∈ ascii "_@%+=:,./-"

/-- `write_quoted` -/
def writeQuoted (arg : Bytes) (d : Draft) : Except DestinationError Draft :=
  if arg ≠ [] ∧ arg.all isShellSafe then writeBytes arg d
  else do
    let d ← writeBytes [apostrophe] d
    let d ← arg.foldlM (fun d b =>
      if b = apostrophe then writeBytes [apostrophe, backslash, apostrophe, apostrophe] d else writeBytes [b] d) d
    writeBytes [apostrophe] d

/-- `write_destination` -/
def writeDestination (buf : Bytes) (prefixes args : List Bytes) : Except DestinationError Draft :=
  if prefixes.any (0 ∈ ·) || args.any (0 ∈ ·) then .error .nul
  else do
    let d ← prefixes.foldlM (fun d p => writeBytes p d) ⟨0, buf⟩
    let d ← args.foldlM (fun d a => do
      let d ← writeBytes [space] d
      writeQuoted a d) d
    writeBytes [0] d

end Writing

/-- `build_nul_destination` -/
def buildNulDestination (service : Bytes) (args : List Bytes) : Except ProtocolError Bytes :=
  if 0 ∈ service ∨ args.any (fun a => a = [] || 0 ∈ a) then .error .invalidDestination
  else
    let dest := service ++ args.flatMap (· ++ [0])
    .ok (if dest.getLast? ≠ some 0 then dest ++ [0] else dest)

/-! ## What a draft becomes -/

/-- Two texts, one behind the other. -/
theorem splice_splice {buf front back : Bytes} {len : ℕ} (h : len + front.length + back.length ≤ buf.length) :
    splice (splice buf len front) (len + front.length) back = splice buf len (front ++ back) := by
  have hlen : (splice buf len front).length = buf.length := length_splice (by omega)
  apply List.ext_getElem?
  intro i
  rw [getElem?_splice (by omega), getElem?_splice (by omega), getElem?_splice (by omega), List.length_append,
    List.getElem?_append]
  split_ifs <;> first | rfl | omega | (congr 1; omega)

section Writing

variable [Usize]

/-- A piece of code that writes `text` into a buffer that has room for it. -/
def Puts (write : Draft → Except DestinationError Draft) (text : Bytes) : Prop :=
  ∀ d : Draft, d.len ≤ d.buf.length → d.buf.length ≤ usizeMax →
    write d = if d.len + text.length ≤ d.buf.length then .ok ⟨d.len + text.length, splice d.buf d.len text⟩
      else .error .tooLong

theorem puts_bytes (src : Bytes) : Puts (writeBytes src) src := by
  intro d _ husize
  unfold writeBytes
  dsimp only
  split_ifs <;> first | rfl | omega

theorem Puts.andThen {first second : Draft → Except DestinationError Draft} {front back : Bytes}
    (h1 : Puts first front) (h2 : Puts second back) : Puts (fun d => first d >>= second) (front ++ back) := by
  intro d hle husize
  show first d >>= second = _
  rw [h1 d hle husize, List.length_append]
  by_cases hfront : d.len + front.length ≤ d.buf.length
  · have hlen : (splice d.buf d.len front).length = d.buf.length := length_splice hfront
    rw [if_pos hfront]
    show second ⟨d.len + front.length, splice d.buf d.len front⟩ = _
    rw [h2 _ (by rw [hlen]; exact hfront) (by rw [hlen]; exact husize)]
    dsimp only
    rw [hlen]
    by_cases hback : d.len + front.length + back.length ≤ d.buf.length
    · rw [if_pos hback, if_pos (by omega), splice_splice hback, Nat.add_assoc]
    · rw [if_neg hback, if_neg (by omega)]
  · rw [if_neg hfront, if_neg (by omega)]
    rfl

/-- A loop writes what its rounds write. -/
theorem puts_foldlM {α : Type} {write : α → Draft → Except DestinationError Draft} {text : α → Bytes}
    (h : ∀ a, Puts (write a) (text a)) (l : List α) :
    Puts (fun d => l.foldlM (fun d a => write a d) d) (l.flatMap text) := by
  induction l with
  | nil =>
    intro d hle _
    have hsame : splice d.buf d.len [] = d.buf := by simp [splice]
    simp [pure, Except.pure, hle, hsame]
  | cons a l ih =>
    rw [List.flatMap_cons]
    exact (h a).andThen ih

/-- One byte of a quoted argument. -/
def escaped (b : Byte) : Bytes := if b = apostrophe then [apostrophe, backslash, apostrophe, apostrophe] else [b]

/-- What `write_quoted` writes. -/
def quoted (arg : Bytes) : Bytes :=
  if arg ≠ [] ∧ arg.all isShellSafe then arg else [apostrophe] ++ (arg.flatMap escaped ++ [apostrophe])

theorem puts_quoted (arg : Bytes) : Puts (writeQuoted arg) (quoted arg) := by
  unfold quoted
  by_cases hsafe : arg ≠ [] ∧ arg.all isShellSafe
  · rw [if_pos hsafe]
    intro d hle husize
    rw [writeQuoted, if_pos hsafe]
    exact puts_bytes arg d hle husize
  · rw [if_neg hsafe]
    intro d hle husize
    rw [writeQuoted, if_neg hsafe]
    have hround : ∀ b : Byte, Puts (fun d => if b = apostrophe then
        writeBytes [apostrophe, backslash, apostrophe, apostrophe] d else writeBytes [b] d) (escaped b) := by
      intro b d hle husize
      unfold escaped
      dsimp only
      split_ifs with hb
      · rw [puts_bytes _ d hle husize, if_pos ‹_›]
      · rw [puts_bytes _ d hle husize, if_neg ‹_›]
      · rw [puts_bytes _ d hle husize, if_pos ‹_›]
      · rw [puts_bytes _ d hle husize, if_neg ‹_›]
    exact ((puts_bytes [apostrophe]).andThen ((puts_foldlM hround arg).andThen (puts_bytes [apostrophe]))) d hle husize

/-- The arguments, each behind a blank. -/
def argsText (args : List Bytes) : Bytes := args.flatMap fun a => [space] ++ quoted a

/-- What `write_destination` writes. -/
def destinationText (prefixes args : List Bytes) : Bytes := prefixes.flatten ++ (argsText args ++ [0])

/-- **`write_destination`** fails on a NUL, and then only for want of room. -/
theorem writeDestination_eq (buf : Bytes) (prefixes args : List Bytes) (husize : buf.length ≤ usizeMax) :
    writeDestination buf prefixes args =
      if (∃ p ∈ prefixes, 0 ∈ p) ∨ (∃ a ∈ args, 0 ∈ a) then .error .nul
      else if (destinationText prefixes args).length ≤ buf.length then
        .ok ⟨(destinationText prefixes args).length, splice buf 0 (destinationText prefixes args)⟩
      else .error .tooLong := by
  have hnul : (prefixes.any (0 ∈ ·) || args.any (0 ∈ ·)) = true ↔ (∃ p ∈ prefixes, 0 ∈ p) ∨ (∃ a ∈ args, 0 ∈ a) := by
    simp
  unfold writeDestination
  by_cases h : (∃ p ∈ prefixes, 0 ∈ p) ∨ (∃ a ∈ args, 0 ∈ a)
  · rw [if_pos (hnul.mpr h), if_pos h]
  · rw [if_neg (mt hnul.mp h), if_neg h]
    have hprefixes := puts_foldlM (fun p : Bytes => puts_bytes p) prefixes
    have hargs := puts_foldlM (fun a => (puts_bytes [space]).andThen (puts_quoted a)) args
    have hall := (hprefixes.andThen (hargs.andThen (puts_bytes [0]))) ⟨0, buf⟩ (Nat.zero_le _) husize
    rw [List.flatMap_id'] at hall
    simp only [Nat.zero_add] at hall
    exact hall

end Writing

/-! ## What a shell makes of it -/

/-- Characters a shell expands, or takes for an operator, a quote or a separator. -/
def shellSpecial (b : Byte) : Bool := b ∈ ascii "|&;<>()$\x60\\\"\x27*?[]#~!\x7b\x7d^ \t\n"

theorem safe_not_special {b : Byte} (h : isShellSafe b = true) : shellSpecial b = false := by
  have hall : ∀ n < 256, isShellSafe (UInt8.ofNat n) = true → shellSpecial (UInt8.ofNat n) = false := by
    decide +kernel
  have := hall b.toNat b.toNat_lt
  rw [UInt8.ofNat_toNat] at this
  exact this h

theorem safe_literal {b : Byte} (h : isShellSafe b = true) : Literal b := by
  have hspecial := safe_not_special h
  refine ⟨?_, ?_, ?_⟩
  all_goals
    by_contra hb
    rw [Bool.not_eq_false] at hb
    simp only [isBlank, isQuote, isEscape, Bool.or_eq_true, decide_eq_true_eq] at hb
  · rcases hb with (rfl | rfl) | rfl <;> exact absurd hspecial (by decide)
  · subst hb
    exact absurd hspecial (by decide)
  · subst hb
    exact absurd hspecial (by decide)

theorem escaped_eq (b : Byte) : escaped b = if isQuote b then [39, 92, 39, 39] else [b] := by
  unfold escaped isQuote
  simp only [decide_eq_true_eq]
  rfl

/-- A quoted argument, read where a word starts, is that argument. -/
theorem lex_quoted_arg (words : List Bytes) (arg : Bytes) :
    lex ⟨words, none, .plain⟩ (quoted arg) = ⟨words, some arg, .plain⟩ := by
  unfold quoted
  split_ifs with hsafe
  · have hlit : ∀ b ∈ arg, Literal b := fun b hb => safe_literal (List.all_eq_true.mp hsafe.2 b hb)
    rw [lex_word hlit hsafe.1 _ rfl]
    rfl
  · rw [lex_append, lex_append]
    show lex (lex ⟨words, some [], .quoted⟩ (arg.flatMap escaped)) [apostrophe] = _
    rw [lex_quoted escaped_eq]
    rfl

/-- **No injection**: what an argument exposes is harmless. -/
theorem exposed_quoted_safe (arg : Bytes) : ∀ b ∈ exposed .plain (quoted arg), shellSpecial b = false := by
  intro b hb
  unfold quoted at hb
  split_ifs at hb with hsafe
  · have hsafe := List.all_eq_true.mp hsafe.2
    rw [exposed_literal fun b hb => safe_literal (hsafe b hb)] at hb
    exact safe_not_special (hsafe b hb)
  · have hnone : exposed .plain ([apostrophe] ++ (arg.flatMap escaped ++ [apostrophe])) = [] := by
      show exposed .quoted (arg.flatMap escaped ++ [apostrophe]) = []
      rw [exposed_quoted escaped_eq]
      rfl
    rw [hnone] at hb
    exact absurd hb List.not_mem_nil

/-- The blank in front of an argument ends the word before it. -/
theorem lex_space {s : Lex} (h : s.mode = .plain) : lex s [space] = s.close := by
  obtain ⟨words, current, mode⟩ := s
  obtain rfl : mode = .plain := h
  rfl

/-- The arguments are the words behind those of the line in front of them. -/
theorem lex_argsText {s : Lex} (h : s.mode = .plain) (args : List Bytes) :
    (lex s (argsText args)).mode = .plain ∧ (lex s (argsText args)).close.words = s.close.words ++ args := by
  induction args generalizing s with
  | nil => exact ⟨h, (List.append_nil _).symm⟩
  | cons a args ih =>
    have harg : lex s ([space] ++ quoted a) = ⟨s.close.words, some a, .plain⟩ := by
      rw [lex_append, lex_space h]
      exact lex_quoted_arg _ a
    have hcons : argsText (a :: args) = ([space] ++ quoted a) ++ argsText args := List.flatMap_cons
    rw [hcons, lex_append, harg]
    obtain ⟨hmode, hwords⟩ := ih (s := ⟨s.close.words, some a, .plain⟩) rfl
    refine ⟨hmode, hwords.trans ?_⟩
    show s.close.words ++ [a] ++ args = _
    rw [List.append_assoc]
    rfl

/-- A prefix whose last characters, outside of quotes, are those of a plain word. -/
def EndsInPlainWord (p : Bytes) : Prop :=
  ∃ front word, p = front ++ word ∧ word ≠ [] ∧ (∀ b ∈ word, isShellSafe b = true) ∧ (lex .start front).mode = .plain

theorem EndsInPlainWord.mode {p : Bytes} (h : EndsInPlainWord p) : (lex .start p).mode = .plain := by
  obtain ⟨front, word, rfl, hne, hsafe, hmode⟩ := h
  rw [lex_append, lex_word (fun b hb => safe_literal (hsafe b hb)) hne _ hmode]

theorem zero_notMem_quoted {arg : Bytes} (h : 0 ∉ arg) : 0 ∉ quoted arg := by
  unfold quoted
  split_ifs
  · exact h
  · have hescaped : 0 ∉ arg.flatMap escaped := by
      rw [List.mem_flatMap]
      rintro ⟨b, hb, h0⟩
      unfold escaped at h0
      split_ifs at h0
      · simp [apostrophe, backslash] at h0
      · exact h (List.mem_singleton.mp h0 ▸ hb)
    simp [hescaped, apostrophe]

theorem zero_notMem_argsText {args : List Bytes} (h : ∀ a ∈ args, 0 ∉ a) : 0 ∉ argsText args := by
  unfold argsText
  rw [List.mem_flatMap]
  rintro ⟨a, ha, h0⟩
  rcases List.mem_append.mp h0 with hspace | hquoted
  · simp [space] at hspace
  · exact zero_notMem_quoted (h a ha) hquoted

/-! ## Arguments that end in a NUL -/

/-- What the `abb` services read behind their name. -/
def nulPieces (bytes : Bytes) : List Bytes := (bytes.splitOn 0).filter (· ≠ [])

theorem nulPieces_flatMap {args : List Bytes} (h : ∀ a ∈ args, a ≠ [] ∧ 0 ∉ a) :
    nulPieces (args.flatMap (· ++ [0])) = args := by
  unfold nulPieces
  induction args with
  | nil => rfl
  | cons a args ih =>
    obtain ⟨hne, h0⟩ := h a List.mem_cons_self
    rw [List.flatMap_cons, List.append_assoc, List.singleton_append, List.splitOn_append_cons_self_of_not_mem h0,
      List.filter_cons_of_pos (by simpa using hne), ih fun b hb => h b (List.mem_cons_of_mem _ hb)]

/-- What `build_nul_destination` builds: every argument and its NUL, or the NUL alone. -/
def nulText (args : List Bytes) : Bytes := if args = [] then [0] else args.flatMap (· ++ [0])

/-- **`build_nul_destination`** refuses NULs and empty arguments. -/
theorem buildNulDestination_eq (service : Bytes) (args : List Bytes) :
    buildNulDestination service args =
      if 0 ∈ service ∨ [] ∈ args ∨ ∃ a ∈ args, 0 ∈ a then .error .invalidDestination
      else .ok (service ++ nulText args) := by
  have hbad : (0 ∈ service ∨ args.any (fun a => a = [] || 0 ∈ a) = true) ↔
      0 ∈ service ∨ [] ∈ args ∨ ∃ a ∈ args, 0 ∈ a := by
    simp only [List.any_eq_true, Bool.or_eq_true, decide_eq_true_eq]
    refine or_congr_right ⟨?_, ?_⟩
    · rintro ⟨a, ha, rfl | h0⟩
      · exact Or.inl ha
      · exact Or.inr ⟨a, ha, h0⟩
    · rintro (hnil | ⟨a, ha, h0⟩)
      · exact ⟨[], hnil, Or.inl rfl⟩
      · exact ⟨a, ha, Or.inr h0⟩
  unfold buildNulDestination
  by_cases h : 0 ∈ service ∨ [] ∈ args ∨ ∃ a ∈ args, 0 ∈ a
  · rw [if_pos (hbad.mpr h), if_pos h]
  · rw [if_neg (mt hbad.mp h), if_neg h]
    -- a NUL is only missing when there are no arguments
    cases args using List.reverseRecOn with
    | nil =>
      have hlast : service.getLast? ≠ some 0 := fun hlast => h (Or.inl (List.mem_of_getLast? hlast))
      simp [nulText, hlast]
    | append_singleton args a => simp [nulText, List.flatMap_append, List.getLast?_append]

/-- The arguments are the pieces behind the name. -/
theorem nulPieces_nulText {args : List Bytes} (h : ∀ a ∈ args, a ≠ [] ∧ 0 ∉ a) : nulPieces (nulText args) = args := by
  unfold nulText
  split_ifs with hargs
  · rw [hargs]
    rfl
  · exact nulPieces_flatMap h

theorem buildNulDestination_pieces {service : Bytes} {args : List Bytes} {dest : Bytes}
    (h : buildNulDestination service args = .ok dest) :
    ∃ rest, dest = service ++ rest ∧ nulPieces rest = args := by
  rw [buildNulDestination_eq] at h
  split_ifs at h with hbad
  push Not at hbad
  obtain rfl : _ = dest := by injection h
  exact ⟨_, rfl, nulPieces_nulText fun a ha => ⟨fun hnil => hbad.2.1 (hnil ▸ ha), hbad.2.2 a ha⟩⟩

end LibAdb.Destination
