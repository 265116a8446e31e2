import Mathlib.Tactic

/-!
# LibAdb.Lib.ShellWords — how a POSIX shell takes a line apart

Blanks separate words, what stands between single quotes is literal, and a backslash outside of them escapes one
character.  `lex` runs over a line and `shellWords` are the words it ends with; `exposed` are the characters of a line
that are read outside of quotes and are not escaped, which are the ones a shell may expand or take for an operator.
-/

namespace ShellWords

/-- The space, the tab and the newline. -/
def isBlank (b : UInt8) : Bool := b = 32 || b = 9 || b = 10

/-- `'` -/
def isQuote (b : UInt8) : Bool := b = 39

/-- `\` -/
def isEscape (b : UInt8) : Bool := b = 92

/-- Where in a line the shell is. -/
inductive Mode where
  | plain
  | quoted
  | escaped
  deriving DecidableEq, Repr

/-- The words so far, and the one being read. -/
structure Lex where
  words : List (List UInt8)
  current : Option (List UInt8)
  mode : Mode
  deriving DecidableEq, Repr

namespace Lex

def start : Lex := ⟨[], none, .plain⟩

/-- A character of the word. -/
def push (s : Lex) (b : UInt8) : Lex := ⟨s.words, some (s.current.getD [] ++ [b]), s.mode⟩

/-- A quote or an escape starts a word, if there is none. -/
def enter (s : Lex) (mode : Mode) : Lex := ⟨s.words, some (s.current.getD []), mode⟩

/-- The end of a word, if there is one. -/
def close (s : Lex) : Lex := ⟨s.words ++ s.current.toList, none, .plain⟩

def step (s : Lex) (b : UInt8) : Lex :=
  match s.mode with
  | .quoted => if isQuote b then { s with mode := .plain } else s.push b
  | .escaped => { s.push b with mode := .plain }
  | .plain =>
    if isBlank b then s.close
    else if isQuote b then s.enter .quoted
    else if isEscape b then s.enter .escaped
    else s.push b

end Lex

/-- The shell has read `line`. -/
def lex (s : Lex) (line : List UInt8) : Lex := line.foldl Lex.step s

/-- The words of a line. -/
def shellWords (line : List UInt8) : List (List UInt8) := (lex .start line).close.words

/-- The characters that are read outside of quotes, from `mode` on; quotes and backslashes that work are none. -/
def exposed : Mode → List UInt8 → List UInt8
  | _, [] => []
  | .plain, b :: rest =>
    if isQuote b then exposed .quoted rest
    else if isEscape b then exposed .escaped rest
    else b :: exposed .plain rest
  | .quoted, b :: rest => if isQuote b then exposed .plain rest else exposed .quoted rest
  | .escaped, _ :: rest => exposed .plain rest

/-- A character that stands for itself anywhere. -/
def Literal (b : UInt8) : Prop := isBlank b = false ∧ isQuote b = false ∧ isEscape b = false

theorem lex_append (s : Lex) (front back : List UInt8) : lex s (front ++ back) = lex (lex s front) back :=
  List.foldl_append

/-- Characters of the word under way. -/
theorem lex_literal {line : List UInt8} (h : ∀ b ∈ line, Literal b) (words : List (List UInt8)) (current : List UInt8) :
    lex ⟨words, some current, .plain⟩ line = ⟨words, some (current ++ line), .plain⟩ := by
  induction line generalizing current with
  | nil => rw [List.append_nil]; rfl
  | cons b line ih =>
    obtain ⟨hblank, hquote, hescape⟩ := h b List.mem_cons_self
    have hstep : Lex.step ⟨words, some current, .plain⟩ b = ⟨words, some (current ++ [b]), .plain⟩ := by
      simp [Lex.step, hblank, hquote, hescape, Lex.push]
    show lex (Lex.step _ b) line = _
    rw [hstep, ih (fun c hc => h c (List.mem_cons_of_mem _ hc)), List.append_assoc]
    rfl

/-- A word of such characters. -/
theorem lex_word {line : List UInt8} (h : ∀ b ∈ line, Literal b) (hne : line ≠ []) (s : Lex) (hmode : s.mode = .plain) :
    lex s line = ⟨s.words, some (s.current.getD [] ++ line), .plain⟩ := by
  obtain ⟨words, current, mode⟩ := s
  obtain rfl : mode = .plain := hmode
  cases line with
  | nil => exact absurd rfl hne
  | cons b line =>
    obtain ⟨hblank, hquote, hescape⟩ := h b List.mem_cons_self
    have hstep : Lex.step ⟨words, current, .plain⟩ b = ⟨words, some (current.getD [] ++ [b]), .plain⟩ := by
      simp [Lex.step, hblank, hquote, hescape, Lex.push]
    show lex (Lex.step _ b) line = _
    rw [hstep, lex_literal (fun c hc => h c (List.mem_cons_of_mem _ hc)), List.append_assoc]
    rfl

theorem exposed_literal {line : List UInt8} (h : ∀ b ∈ line, Literal b) : exposed .plain line = line := by
  induction line with
  | nil => rfl
  | cons b line ih =>
    obtain ⟨-, hquote, hescape⟩ := h b List.mem_cons_self
    simp [exposed, hquote, hescape, ih fun c hc => h c (List.mem_cons_of_mem _ hc)]

/-- Inside single quotes, `text` stands for `arg` when each character is written as itself or, for the quote, by leaving
the quotes for an escaped one. -/
theorem lex_quoted {escape : UInt8 → List UInt8}
    (h : ∀ b, escape b = if isQuote b then [39, 92, 39, 39] else [b]) (words : List (List UInt8))
    (current arg : List UInt8) :
    lex ⟨words, some current, .quoted⟩ (arg.flatMap escape) = ⟨words, some (current ++ arg), .quoted⟩ := by
  induction arg generalizing current with
  | nil => rw [List.append_nil]; rfl
  | cons b arg ih =>
    have hbyte : lex ⟨words, some current, .quoted⟩ (escape b) = ⟨words, some (current ++ [b]), .quoted⟩ := by
      rw [h]
      cases hquote : isQuote b with
      | true =>
        obtain rfl : b = 39 := by simpa [isQuote] using hquote
        rfl
      | false => simp [lex, Lex.step, hquote, Lex.push]
    rw [List.flatMap_cons, lex_append, hbyte, ih, List.append_assoc]
    rfl

theorem exposed_quoted {escape : UInt8 → List UInt8} (h : ∀ b, escape b = if isQuote b then [39, 92, 39, 39] else [b])
    (arg rest : List UInt8) : exposed .quoted (arg.flatMap escape ++ rest) = exposed .quoted rest := by
  induction arg with
  | nil => rfl
  | cons b arg ih =>
    rw [List.flatMap_cons, List.append_assoc, h]
    cases hquote : isQuote b with
    | true => exact ih
    | false => simpa [exposed, hquote] using ih

end ShellWords
