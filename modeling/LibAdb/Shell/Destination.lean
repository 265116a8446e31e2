import LibAdb.Base.Banner

/-!
# LibAdb.Shell.Destination — the service string of a shell_v2 session

`destination` of `shell/v2.rs`.  `ShellRequest.read` is what adbd makes of a destination: it ends at the first NUL, the
options stand in front of the first `:`, separated by commas, and the last mode among them wins.  The two are inverse
(`read_destination`), up to an empty terminal name being none.
-/

namespace LibAdb.Shell

open DeviceBanner

/-- `ShellMode` -/
inductive ShellMode where
  | raw
  | pty (term : Option Bytes)
  deriving DecidableEq, Repr

/-- `destination` -/
def destination (mode : ShellMode) (command : Bytes) : Except ProtocolError Bytes :=
  if 0 ∈ command then .error .invalidDestination
  else match mode with
    | .raw => .ok (ascii "shell,v2,raw:" ++ command ++ [0])
    | .pty none | .pty (some []) => .ok (ascii "shell,v2,pty:" ++ command ++ [0])
    | .pty (some term) =>
      if comma ∈ term ∨ colon ∈ term ∨ 0 ∈ term then .error .invalidDestination
      else .ok (ascii "shell,v2,pty,TERM=" ++ term ++ [colon] ++ command ++ [0])

/-! ## The device's side -/

/-- Whether there is a terminal on the device. -/
inductive SubprocessType where
  | raw
  | pty
  deriving DecidableEq, Repr

/-- What adbd reads. -/
structure ShellRequest where
  kind : Option SubprocessType
  term : Option Bytes
  command : Bytes
  deriving DecidableEq, Repr

namespace ShellRequest

/-- One option, on top of those in front of it. -/
def option (r : ShellRequest) (opt : Bytes) : ShellRequest :=
  if opt = ascii "raw" then { r with kind := some .raw }
  else if opt = ascii "pty" then { r with kind := some .pty }
  else if opt.take 5 = ascii "TERM=" then { r with term := some (opt.drop 5) }
  else r

/-- The options and the command of a destination. -/
def read (dest : Bytes) : Option ShellRequest :=
  (splitOnce colon (dest.takeWhile (· ≠ 0))).map fun (options, command) =>
    (options.splitOn comma).foldl option ⟨none, none, command⟩

/-- What was asked for; an empty terminal name is none. -/
def asked (mode : ShellMode) (command : Bytes) : ShellRequest :=
  match mode with
  | .raw => ⟨some .raw, none, command⟩
  | .pty none | .pty (some []) => ⟨some .pty, none, command⟩
  | .pty (some term) => ⟨some .pty, some term, command⟩

/-- A destination is read up to its NUL, and its options up to the first colon. -/
theorem read_append (options : Bytes) {command : Bytes} (hcolon : colon ∉ options) (hopt : 0 ∉ options)
    (hcmd : 0 ∉ command) :
    read (options ++ [colon] ++ command ++ [0]) =
      some ((options.splitOn comma).foldl option ⟨none, none, command⟩) := by
  have hline : (options ++ [colon] ++ command ++ [0]).takeWhile (· ≠ 0) = options ++ colon :: command := by
    rw [List.takeWhile_append_of_pos, List.takeWhile_cons_of_neg (by simp), List.append_nil, List.append_assoc]
    · rfl
    · intro b hb
      rw [decide_eq_true_eq]
      rintro rfl
      simp only [List.mem_append, List.mem_singleton] at hb
      rcases hb with (h | h) | h
      · exact hopt h
      · exact absurd h (by decide)
      · exact hcmd h
  have hsplit : splitOnce colon (options ++ colon :: command) = some (options, command) :=
    splitOnce_eq_some.mpr ⟨hcolon, rfl⟩
  rw [read, hline, hsplit]
  rfl

end ShellRequest

open ShellRequest

/-- The device reads what was asked for. -/
theorem read_destination {mode : ShellMode} {command dest : Bytes} (h : destination mode command = .ok dest) :
    read dest = some (asked mode command) := by
  unfold destination at h
  split_ifs at h with hcmd
  split at h
  · obtain rfl : _ = dest := by injection h
    exact read_append (ascii "shell,v2,raw") (by decide) (by decide) hcmd
  · obtain rfl : _ = dest := by injection h
    exact read_append (ascii "shell,v2,pty") (by decide) (by decide) hcmd
  · obtain rfl : _ = dest := by injection h
    exact read_append (ascii "shell,v2,pty") (by decide) (by decide) hcmd
  · rename_i term hne
    split_ifs at h with hterm
    obtain rfl : _ = dest := by injection h
    push Not at hterm
    obtain ⟨hcomma, hcolon, h0⟩ := hterm
    have hservice : ∀ b, b ∉ ascii "shell,v2,pty,TERM=" → b ∉ term → b ∉ ascii "shell,v2,pty,TERM=" ++ term :=
      fun b h1 h2 hmem => (List.mem_append.mp hmem).elim h1 h2
    have hread := read_append (ascii "shell,v2,pty,TERM=" ++ term) (hservice _ (by decide) hcolon)
      (hservice _ (by decide) h0) hcmd
    -- the commas are the four of the service, and the last option is the terminal
    have hsplit : (ascii "shell,v2,pty,TERM=" ++ term).splitOn comma =
        [ascii "shell", ascii "v2", ascii "pty", ascii "TERM=" ++ term] := by
      have hlast : (ascii "TERM=" ++ term).splitOn comma = [ascii "TERM=" ++ term] :=
        List.splitOn_eq_singleton fun hmem => (List.mem_append.mp hmem).elim (by decide) hcomma
      rw [← hlast]
      rfl
    rw [hread, hsplit]
    cases term with
    | nil => exact absurd rfl hne
    | cons b term => rfl

/-- **Shell destinations are unambiguous**: the device reads back the mode, the terminal and the command, so two accepted
inputs with one destination ask for the same. -/
theorem shell_destination_unambiguous (mode : ShellMode) (command dest : Bytes)
    (h : destination mode command = .ok dest) :
    read dest = some (asked mode command) ∧
      ∀ mode' command', destination mode' command' = .ok dest → asked mode' command' = asked mode command := by
  refine ⟨read_destination h, fun mode' command' h' => ?_⟩
  have hsame := (read_destination h').symm.trans (read_destination h)
  exact Option.some.inj hsame

/-- A terminal whose name is that of a mode, and a command with a colon. -/
theorem shell_destination_unambiguous_raw :
    read (ascii "shell,v2,pty,TERM=raw:ls,pty:x\x00") = some ⟨some .pty, some (ascii "raw"), ascii "ls,pty:x"⟩ :=
  (shell_destination_unambiguous (.pty (some (ascii "raw"))) (ascii "ls,pty:x") _ rfl).1

end LibAdb.Shell
