import LibAdb.Base.Destination

/-!
# LibAdb.Cmd — one argument list, two routes

`cmd.rs`, with `abb::open_exec`, `abb::open` and `shell::v2::open_argv` under it, up to the destination they open.  The
`abb` services are given the arguments as they are, and a shell gets them quoted; `deviceArgs` is what either side
reads.
-/

namespace LibAdb

open Destination ShellWords Slices

/-- What `abb::open_exec` and `abb::open` open: a feature and the name of a service. -/
def Abb.openService (feature : Feature) (service : Bytes) (advertises : Feature → Bool) (args : List Bytes) :
    Except Error Bytes := do
  requireFeature advertises feature
  (buildNulDestination service args).mapError .protocol

/-- `abb::open_exec` -/
def Abb.openExec : (Feature → Bool) → List Bytes → Except Error Bytes := Abb.openService .abbExec (ascii "abb_exec:")

/-- `abb::open` -/
def Abb.open : (Feature → Bool) → List Bytes → Except Error Bytes := Abb.openService .abb (ascii "abb:")

section Shell

variable [Usize]

/-- `shell::v2::open_argv` -/
def Shell.openArgv (advertises : Feature → Bool) (program : Bytes) (args : List Bytes) (buf : Bytes) :
    Except Error Bytes := do
  requireFeature advertises .shellV2
  let d ← (writeDestination buf [ascii "shell,v2,raw:", program] args).mapError DestinationError.toError
  pure (d.buf.take d.len)

namespace Cmd

/-- `PROGRAM` -/
def program : Bytes := ascii "cmd"

/-- `needs_shell` -/
def needsShell (args : List Bytes) : Bool := args.any (· = [])

/-- `cmd::exec` -/
def exec (advertises : Feature → Bool) (args : List Bytes) (rx : Bytes) : Except Error Bytes :=
  if advertises .abbExec && !needsShell args then Abb.openExec advertises args
  else Shell.openArgv advertises program args rx

/-- `cmd::open` -/
def «open» (advertises : Feature → Bool) (args : List Bytes) (rx : Bytes) : Except Error Bytes :=
  if advertises .abb && !needsShell args then Abb.open advertises args
  else Shell.openArgv advertises program args rx

end Cmd

end Shell

/-- The arguments a device takes out of a destination: the `abb` services split at NULs, and the shell runs the line up
to the first one, with `cmd` as its first word. -/
def deviceArgs (dest : Bytes) : Option (List Bytes) :=
  if ascii "abb_exec:" = dest.take 9 then some (nulPieces (dest.drop 9))
  else if ascii "abb:" = dest.take 4 then some (nulPieces (dest.drop 4))
  else if ascii "shell,v2,raw:" = dest.take 13 then
    match shellWords ((dest.drop 13).takeWhile (· ≠ 0)) with
    | word :: words => if word = Cmd.program then some words else none
    | [] => none
  else none

/-- **What a call opens**: the service, when the device has it and no argument is empty, and a shell otherwise.  It
fails when the device has neither, on a NUL, and when the shell's line is longer than the buffer. -/
def Cmd.destinationOf (feature : Feature) (service : Bytes) (advertises : Feature → Bool) (args : List Bytes) (room : ℕ) :
    Except Error Bytes :=
  let line := destinationText [ascii "shell,v2,raw:", Cmd.program] args
  if advertises feature ∧ [] ∉ args then
    if ∃ a ∈ args, 0 ∈ a then .error (.protocol .invalidDestination) else .ok (service ++ nulText args)
  else if ¬ advertises .shellV2 then .error (.missingFeature .shellV2)
  else if ∃ a ∈ args, 0 ∈ a then .error (.protocol .invalidDestination)
  else if line.length ≤ room then .ok line
  else .error .receiveBufferFull

theorem Abb.openService_eq {feature : Feature} {service : Bytes} {advertises : Feature → Bool} {args : List Bytes}
    (hfeature : advertises feature = true) (hservice : 0 ∉ service) (hargs : [] ∉ args) :
    Abb.openService feature service advertises args =
      if ∃ a ∈ args, 0 ∈ a then .error (.protocol .invalidDestination) else .ok (service ++ nulText args) := by
  have hnul : (0 ∈ service ∨ [] ∈ args ∨ ∃ a ∈ args, 0 ∈ a) ↔ ∃ a ∈ args, 0 ∈ a := by
    rw [or_iff_right hservice, or_iff_right hargs]
  simp only [Abb.openService, requireFeature, hfeature, if_true, buildNulDestination_eq, hnul]
  split_ifs <;> rfl

/-- The words of a line that ends in the arguments. -/
theorem shellWords_argsText {p : Bytes} (h : (lex .start p).mode = .plain) (args : List Bytes) :
    shellWords (p ++ argsText args) = shellWords p ++ args := by
  unfold shellWords
  rw [lex_append]
  exact (lex_argsText h args).2

/-- What a shell is given up to its NUL, split into words, without `cmd`. -/
theorem deviceArgs_shell {line : Bytes} {args : List Bytes} (h0 : 0 ∉ line)
    (hwords : shellWords line = Cmd.program :: args) :
    deviceArgs (ascii "shell,v2,raw:" ++ (line ++ [0])) = some args := by
  have hlen : (ascii "shell,v2,raw:").length = 13 := rfl
  have hexec : ascii "abb_exec:" ≠ (ascii "shell,v2,raw:" ++ (line ++ [0])).take 9 := by
    rw [List.take_append_of_le_length (by rw [hlen]; decide)]
    decide
  have habb : ascii "abb:" ≠ (ascii "shell,v2,raw:" ++ (line ++ [0])).take 4 := by
    rw [List.take_append_of_le_length (by rw [hlen]; decide)]
    decide
  have hcommand : (line ++ [0]).takeWhile (· ≠ 0) = line := by
    rw [List.takeWhile_append_of_pos, List.takeWhile_cons_of_neg (by simp), List.append_nil]
    intro b hb
    rw [decide_eq_true_eq]
    rintro rfl
    exact h0 hb
  rw [deviceArgs, if_neg hexec, if_neg habb, if_pos (by rw [← hlen, List.take_left]), ← hlen, List.drop_left, hcommand,
    hwords]
  exact if_pos rfl

/-- What the `abb` services are given, split at the NULs. -/
theorem deviceArgs_abb (args : List Bytes) (h : ∀ a ∈ args, a ≠ [] ∧ 0 ∉ a) :
    deviceArgs (ascii "abb_exec:" ++ nulText args) = some args ∧ deviceArgs (ascii "abb:" ++ nulText args) = some args := by
  have hpieces := nulPieces_nulText h
  constructor
  · rw [deviceArgs, if_pos (show ascii "abb_exec:" = (ascii "abb_exec:" ++ nulText args).take 9 from rfl)]
    exact congrArg some hpieces
  · have hexec : ascii "abb_exec:" ≠ (ascii "abb:" ++ nulText args).take 9 := by
      intro heq
      have hfour := congrArg (List.take 4) heq
      rw [List.take_take] at hfour
      exact absurd hfour (by simp [ascii])
    rw [deviceArgs, if_neg hexec, if_pos (show ascii "abb:" = (ascii "abb:" ++ nulText args).take 4 from rfl)]
    exact congrArg some hpieces

/-- What the shell is given. -/
theorem deviceArgs_line {args : List Bytes} (h : ∀ a ∈ args, 0 ∉ a) :
    deviceArgs (destinationText [ascii "shell,v2,raw:", Cmd.program] args) = some args := by
  have h0 : 0 ∉ Cmd.program ++ argsText args := fun hmem =>
    (List.mem_append.mp hmem).elim (by decide) (zero_notMem_argsText h)
  have htext : destinationText [ascii "shell,v2,raw:", Cmd.program] args =
      ascii "shell,v2,raw:" ++ (Cmd.program ++ argsText args ++ [0]) := by
    simp only [destinationText, List.flatten_cons, List.flatten_nil, List.append_nil, List.append_assoc]
  rw [htext]
  exact deviceArgs_shell h0 (shellWords_argsText (by decide) args)

/-- Either way, the device gets the arguments. -/
theorem Cmd.destinationOf_args {feature : Feature} {service : Bytes} {advertises : Feature → Bool} {args : List Bytes}
    {room : ℕ} {dest : Bytes} (hservice : service = ascii "abb_exec:" ∨ service = ascii "abb:")
    (h : Cmd.destinationOf feature service advertises args room = .ok dest) : deviceArgs dest = some args := by
  unfold Cmd.destinationOf at h
  dsimp only at h
  split_ifs at h with hdirect hnul hshell hnul
  · obtain rfl : _ = dest := by injection h
    push Not at hnul
    have habb := deviceArgs_abb args fun a ha => ⟨fun hnil => hdirect.2 (hnil ▸ ha), hnul a ha⟩
    rcases hservice with rfl | rfl
    · exact habb.1
    · exact habb.2
  · obtain rfl : _ = dest := by injection h
    push Not at hnul
    exact deviceArgs_line hnul

section Shell

variable [Usize]

/-- What is written, as a line and its NUL. -/
theorem writeDestination_line {buf : Bytes} {prefixes args : List Bytes} {d : Draft} (husize : buf.length ≤ usizeMax)
    (h : writeDestination buf prefixes args = .ok d) :
    d.buf.take d.len = prefixes.flatten ++ argsText args ++ [0] ∧ 0 ∉ prefixes.flatten ++ argsText args := by
  rw [writeDestination_eq buf prefixes args husize] at h
  split_ifs at h with hnul hfits
  obtain rfl : _ = d := by injection h
  push Not at hnul
  refine ⟨?_, ?_⟩
  · have hself := slice_splice_self (d := destinationText prefixes args) (Nat.zero_le buf.length)
    rw [Nat.zero_add] at hself
    rw [List.append_assoc]
    exact hself
  · intro h0
    rcases List.mem_append.mp h0 with hp | ha
    · obtain ⟨p, hp, h0⟩ := List.mem_flatten.mp hp
      exact hnul.1 p hp h0
    · exact zero_notMem_argsText hnul.2 ha

theorem Shell.openArgv_eq (advertises : Feature → Bool) (args : List Bytes) {buf : Bytes}
    (husize : buf.length ≤ usizeMax) :
    Shell.openArgv advertises Cmd.program args buf =
      if ¬ advertises .shellV2 then .error (.missingFeature .shellV2)
      else if ∃ a ∈ args, 0 ∈ a then .error (.protocol .invalidDestination)
      else if (destinationText [ascii "shell,v2,raw:", Cmd.program] args).length ≤ buf.length then
        .ok (destinationText [ascii "shell,v2,raw:", Cmd.program] args)
      else .error .receiveBufferFull := by
  have hprefixes : ((∃ p ∈ [ascii "shell,v2,raw:", Cmd.program], 0 ∈ p) ∨ ∃ a ∈ args, 0 ∈ a) ↔ ∃ a ∈ args, 0 ∈ a :=
    or_iff_right (by decide)
  have hself := slice_splice_self (d := destinationText [ascii "shell,v2,raw:", Cmd.program] args) (Nat.zero_le buf.length)
  rw [Nat.zero_add] at hself
  simp only [Shell.openArgv, requireFeature, writeDestination_eq _ _ _ husize, hprefixes]
  split_ifs <;> first | rfl | contradiction | exact congrArg Except.ok hself

/-- `cmd::exec` and `cmd::open` differ in the service and its feature. -/
theorem Cmd.exec_eq (advertises : Feature → Bool) (args : List Bytes) {rx : Bytes} (husize : rx.length ≤ usizeMax) :
    Cmd.exec advertises args rx = Cmd.destinationOf .abbExec (ascii "abb_exec:") advertises args rx.length ∧
      Cmd.open advertises args rx = Cmd.destinationOf .abb (ascii "abb:") advertises args rx.length := by
  have hshell : Cmd.needsShell args = false ↔ [] ∉ args := by
    rw [Cmd.needsShell, List.any_eq_false]
    exact ⟨fun h hnil => h [] hnil (decide_eq_true rfl), fun h a ha hnil => h (of_decide_eq_true hnil ▸ ha)⟩
  have hroute : ∀ feature service, 0 ∉ service →
      (if advertises feature && !Cmd.needsShell args then Abb.openService feature service advertises args
        else Shell.openArgv advertises Cmd.program args rx) =
        Cmd.destinationOf feature service advertises args rx.length := by
    intro feature service hservice
    rw [Shell.openArgv_eq advertises args husize]
    simp only [Bool.and_eq_true, Bool.not_eq_true', hshell, Cmd.destinationOf]
    split_ifs with hdirect
    all_goals first
      | rfl
      | exact (Abb.openService_eq hdirect.1 hservice hdirect.2).trans (if_pos ‹_›)
      | exact (Abb.openService_eq hdirect.1 hservice hdirect.2).trans (if_neg ‹_›)
  exact ⟨hroute _ _ (by decide), hroute _ _ (by decide)⟩

/-- **Arguments reach the device unchanged**, quoted for a shell or ended by NULs. -/
theorem arguments_reach_device (buf : Bytes) (prefixes args : List Bytes) (husize : buf.length ≤ usizeMax) :
    (writeDestination buf prefixes args = .error .nul ↔ (∃ p ∈ prefixes, 0 ∈ p) ∨ ∃ a ∈ args, 0 ∈ a) ∧
    (writeDestination buf prefixes args = .error .tooLong ↔
      ¬ ((∃ p ∈ prefixes, 0 ∈ p) ∨ ∃ a ∈ args, 0 ∈ a) ∧ buf.length < (destinationText prefixes args).length) ∧
    (∀ d, writeDestination buf prefixes args = .ok d → EndsInPlainWord prefixes.flatten →
      ∃ line, d.buf.take d.len = line ++ [0] ∧ 0 ∉ line ∧ shellWords line = shellWords prefixes.flatten ++ args ∧
        ∀ front a back, args = front ++ a :: back → ∃ before after, line = before ++ quoted a ++ after ∧
          (lex .start before).mode = .plain ∧ ∀ b ∈ exposed (lex .start before).mode (quoted a), shellSpecial b = false) ∧
    (∀ service dest, buildNulDestination service args = .ok dest →
      ∃ rest, dest = service ++ rest ∧ nulPieces rest = args) ∧
    ∀ advertises,
      Cmd.exec advertises args buf = Cmd.destinationOf .abbExec (ascii "abb_exec:") advertises args buf.length ∧
      Cmd.open advertises args buf = Cmd.destinationOf .abb (ascii "abb:") advertises args buf.length ∧
      ∀ dest, Cmd.exec advertises args buf = .ok dest ∨ Cmd.open advertises args buf = .ok dest →
        deviceArgs dest = some args := by
  have hwrite := writeDestination_eq buf prefixes args husize
  refine ⟨?_, ?_, ?_, ?_, ?_⟩
  · rw [hwrite]
    split_ifs with hnul hfits <;> simp [hnul]
  · rw [hwrite]
    split_ifs with hnul hfits
    · simp [hnul]
    · simp [hnul, hfits]
    · simp [hnul, not_le.mp hfits]
  · intro d hd hword
    obtain ⟨hline, h0⟩ := writeDestination_line husize hd
    refine ⟨_, hline, h0, shellWords_argsText hword.mode args, ?_⟩
    rintro front a back rfl
    -- in front of the argument stand the prefix, the arguments before it and a blank
    have hmode : (lex .start (prefixes.flatten ++ argsText front ++ [space])).mode = .plain := by
      rw [lex_append, lex_append, lex_space (lex_argsText hword.mode front).1]
      rfl
    refine ⟨prefixes.flatten ++ argsText front ++ [space], argsText back, ?_, hmode, ?_⟩
    · simp only [argsText, List.flatMap_append, List.flatMap_cons, List.append_assoc]
    · rw [hmode]
      exact exposed_quoted_safe a
  · intro service dest hdest
    exact buildNulDestination_pieces hdest
  · intro advertises
    obtain ⟨hexec, hopen⟩ := Cmd.exec_eq advertises args husize
    refine ⟨hexec, hopen, ?_⟩
    rintro dest (h | h)
    · exact Cmd.destinationOf_args (Or.inl rfl) (hexec ▸ h)
    · exact Cmd.destinationOf_args (Or.inr rfl) (hopen ▸ h)

end Shell

/-- A quote and an empty argument, behind `cmd`. -/
theorem arguments_reach_device_quote :
    let _u := usize64
    let buf : Bytes := List.replicate 40 0
    ∃ d, writeDestination buf [ascii "shell,v2,raw:", Cmd.program] [ascii "it\x27s", []] = .ok d ∧
      shellWords (d.buf.take d.len).dropLast = [ascii "shell,v2,raw:cmd", ascii "it\x27s", []] := by
  intro _u buf
  obtain ⟨-, -, hwords, -, -⟩ := arguments_reach_device buf [ascii "shell,v2,raw:", Cmd.program] [ascii "it\x27s", []]
    (by decide)
  have hok := writeDestination_eq buf [ascii "shell,v2,raw:", Cmd.program] [ascii "it\x27s", []] (by decide)
  rw [if_neg (by decide), if_pos (by decide)] at hok
  refine ⟨_, hok, ?_⟩
  obtain ⟨line, hline, -, hsplit, -⟩ := hwords _ hok
    ⟨[], ascii "shell,v2,raw:cmd", rfl, by decide, List.all_eq_true.mp rfl, rfl⟩
  rw [hline, List.dropLast_concat, hsplit]
  decide

end LibAdb
