import LibAdb.Base.Banner
import LibAdb.Lib.Runs

/-!
# LibAdb.Keys.Store — processes that share a key directory

`keys/store.rs`.  The directory is a map from names to files, so that a hard link is a second name of one file; a file
system call is one step, and a process is stopped between two calls at most.  `Proc.step` is `load_or_generate` call by
call, with every way a call can fail.  Processes are known by their id: no two that are alive have the same, and the
one of a process that stopped can be used again.

A temporary file belongs to the process whose id is in its name, and while it is being written it has no other name
(`Draft`).  A step of one process leaves the drafts of the others and a key that is there as they are (`Leaves`); the
commit point is the link, and what it publishes is a finished draft.
-/

namespace LibAdb.KeyStore

/-! ## The directory -/

/-- `PRIVATE_KEY_FILE` and `PUBLIC_KEY_FILE` -/
inductive Target where
  | adbkey
  | adbkeyPub
  deriving DecidableEq, Repr

/-- The names in the directory; `temp target pid seq` is `.{target}.{pid}.{seq}.tmp`. -/
inductive FileName where
  | file (target : Target)
  | temp (target : Target) (pid : ℕ) (seq : UInt32)
  deriving DecidableEq, Repr

/-- The directory and the files: a name stands for a file that exists. -/
structure Disk where
  dir : FileName → Option ℕ
  files : ℕ → Option Bytes
  linked : ∀ {name ino}, dir name = some ino → (files ino).isSome

namespace Disk

/-- `fs::read` -/
def read (d : Disk) (name : FileName) : Option Bytes := (d.dir name).bind d.files

/-- `create_new`, where the name is free and no file is numbered `ino`. -/
def createNew (d : Disk) (name : FileName) (ino : ℕ) : Disk where
  dir := Function.update d.dir name (some ino)
  files := Function.update d.files ino (some [])
  linked := by
    intro name' ino' h
    by_cases hi : ino' = ino
    · rw [hi, Function.update_self]
      rfl
    · rw [Function.update_of_ne hi]
      by_cases hn : name' = name
      · rw [hn, Function.update_self] at h
        exact absurd (Option.some.inj h).symm hi
      · rw [Function.update_of_ne hn] at h
        exact d.linked h

/-- A `write` at the end of a file. -/
def append (d : Disk) (ino : ℕ) (bytes : Bytes) : Disk where
  dir := d.dir
  files := Function.update d.files ino ((d.files ino).map (· ++ bytes))
  linked := by
    intro name ino' h
    by_cases hi : ino' = ino
    · subst hi
      rw [Function.update_self, Option.isSome_map]
      exact d.linked h
    · rw [Function.update_of_ne hi]
      exact d.linked h

/-- A second name. -/
def link (d : Disk) (src dst : FileName) : Disk where
  dir := Function.update d.dir dst (d.dir src)
  files := d.files
  linked := by
    intro name ino h
    by_cases hn : name = dst
    · rw [hn, Function.update_self] at h
      exact d.linked h
    · rw [Function.update_of_ne hn] at h
      exact d.linked h

/-- `remove_file` -/
def remove (d : Disk) (name : FileName) : Disk where
  dir := Function.update d.dir name none
  files := d.files
  linked := by
    intro name' ino h
    by_cases hn : name' = name
    · rw [hn, Function.update_self] at h
      cases h
    · rw [Function.update_of_ne hn] at h
      exact d.linked h

/-- `rename` -/
def rename (d : Disk) (src dst : FileName) : Disk := (d.link src dst).remove src

variable (d : Disk) (name other : FileName) (ino i : ℕ) (bytes : Bytes)

@[simp] theorem dir_createNew : (d.createNew name ino).dir other = if other = name then some ino else d.dir other :=
  Function.update_apply ..

@[simp] theorem files_createNew : (d.createNew name ino).files i = if i = ino then some [] else d.files i :=
  Function.update_apply ..

@[simp] theorem files_append :
    (d.append ino bytes).files i = if i = ino then (d.files ino).map (· ++ bytes) else d.files i :=
  Function.update_apply ..

@[simp] theorem dir_link (src dst : FileName) :
    (d.link src dst).dir other = if other = dst then d.dir src else d.dir other :=
  Function.update_apply ..

@[simp] theorem files_link (src dst : FileName) : (d.link src dst).files = d.files := rfl

@[simp] theorem dir_remove : (d.remove name).dir other = if other = name then none else d.dir other :=
  Function.update_apply ..

variable {d name other ino}

/-- A file no name stands for. -/
theorem not_linked (hino : d.files ino = none) (name : FileName) : d.dir name ≠ some ino := by
  intro h
  have := d.linked h
  rw [hino] at this
  cases this

/-- A name stands for the same bytes if it stands for the same file, and that file was not touched. -/
theorem read_congr {d' : Disk} (hdir : d'.dir name = d.dir name)
    (hfiles : ∀ i, d.dir name = some i → d'.files i = d.files i) : d'.read name = d.read name := by
  unfold read
  rw [hdir]
  cases h : d.dir name with
  | none => rfl
  | some i => exact hfiles i h

end Disk

/-! ## A process -/

/-- The file or directory an error names. -/
inductive StorePath where
  | dir
  | file (name : FileName)
  deriving DecidableEq, Repr

/-- `StoreError` -/
inductive StoreError where
  | io (path : StorePath)
  | malformed (path : StorePath)
  | notAKeyFile (path : StorePath)
  | key
  deriving DecidableEq, Repr

/-- What a PKCS#1 file has in its first line. -/
def pkcs1Label : Bytes := ascii "BEGIN RSA PRIVATE KEY"

/-- What is assumed of the key formats: a key that was encoded is read back. -/
structure KeyFormat (Key : Type) where
  toPkcs8Pem : Key → Bytes
  publicKeyLine : Key → Bytes
  isText : Bytes → Bool
  fromPkcs1Pem : Bytes → Option Key
  fromPkcs8Pem : Bytes → Option Key
  isText_toPkcs8Pem : ∀ key, isText (toPkcs8Pem key) = true
  /-- The label of a PKCS#8 file is another one. -/
  label_toPkcs8Pem : ∀ key, ¬ pkcs1Label <:+: toPkcs8Pem key
  fromPkcs8Pem_toPkcs8Pem : ∀ key, fromPkcs8Pem (toPkcs8Pem key) = some key

/-- `parse` -/
def KeyFormat.parse {Key : Type} (fmt : KeyFormat Key) (pem : Bytes) : Option Key :=
  if pkcs1Label <:+: pem then fmt.fromPkcs1Pem pem else fmt.fromPkcs8Pem pem

theorem KeyFormat.parse_toPkcs8Pem {Key : Type} (fmt : KeyFormat Key) (key : Key) :
    fmt.parse (fmt.toPkcs8Pem key) = some key := by
  rw [parse, if_neg (fmt.label_toPkcs8Pem key), fmt.fromPkcs8Pem_toPkcs8Pem]

/-- Where a process is: the call it makes next. -/
inductive Point (Key : Type) where
  /-- `File::open` of `load_or_generate` -/
  | opening
  /-- `create_dir` -/
  | creatingDir
  /-- `AdbKey::generate` -/
  | generating
  /-- `create` in `write_temp`, with `left` attempts left -/
  | creating (target : Target) (key : Key) (left : ℕ)
  /-- `set_permissions` -/
  | protecting (target : Target) (key : Key) (tmp : FileName) (ino : ℕ)
  /-- `write_all`, with `rest` still to write -/
  | writing (target : Target) (key : Key) (tmp : FileName) (ino : ℕ) (rest : Bytes)
  /-- `sync_all` -/
  | syncing (target : Target) (key : Key) (tmp : FileName)
  /-- `fs::hard_link` of `publish_new` -/
  | linking (key : Key) (tmp : FileName)
  /-- `fs::rename` of `install` -/
  | installing (key : Key) (tmp : FileName)
  /-- `fs::remove_file`, whose result is dropped -/
  | removing (tmp : FileName) (next : Point Key)
  /-- `fs::read` of `load` -/
  | reading
  /-- `exists` of `ensure_public_key` -/
  | looking (key : Key)
  /-- The call has returned. -/
  | done (result : Except StoreError Key)

/-- How a call goes; `go` is as the directory has it, `fail` with any error of its own. -/
inductive Choice (Key : Type) where
  | go
  | fail
  | generated (key : Key)
  | created (ino : ℕ)
  | wrote (n : ℕ)

/-- A process: its `NEXT`, and where it is. -/
structure Proc (Key : Type) where
  next : UInt32
  point : Point Key

variable {Key : Type} (fmt : KeyFormat Key)

/-- The bytes `write_temp` is given. -/
def KeyFormat.bytes (target : Target) (key : Key) : Bytes :=
  match target with
  | .adbkey => fmt.toPkcs8Pem key
  | .adbkeyPub => fmt.publicKeyLine key

/-- `load` -/
def load (d : Disk) : Except StoreError Key :=
  match d.read (.file .adbkey) with
  | none => .error (.io (.file (.file .adbkey)))
  | some bytes =>
    if fmt.isText bytes then
      match fmt.parse bytes with
      | some key => .ok key
      | none => .error (.malformed (.file (.file .adbkey)))
    else .error (.notAKeyFile (.file (.file .adbkey)))

/-- The attempts of `write_temp`. -/
def attempts : ℕ := 16

namespace Point

/-- An `Io` error about `path`. -/
def failed (path : StorePath) : Point Key := .done (.error (.io path))

/-- The temporary is removed on the way to the error. -/
def abandon (tmp : FileName) (path : StorePath) : Point Key := .removing tmp (failed path)

/-- After `write_temp`: `publish_new` links, `install` renames. -/
def written (target : Target) (key : Key) (tmp : FileName) : Point Key :=
  match target with
  | .adbkey => .linking key tmp
  | .adbkeyPub => .installing key tmp

/-- After `load` in `adopt`. -/
def adopted : Except StoreError Key → Point Key
  | .ok key => .looking key
  | .error e => .done (.error e)

end Point

/-- The link of `publish_new`: a key that is there is adopted, whoever wrote it. -/
def linkNew (d : Disk) (key : Key) (tmp : FileName) : Disk × Point Key :=
  if (d.dir (.file .adbkey)).isSome then (d, .removing tmp .reading)
  else if (d.dir tmp).isSome then (d.link tmp (.file .adbkey), .removing tmp (.creating .adbkeyPub key attempts))
  else (d, .abandon tmp (.file (.file .adbkey)))

/-- The rename of `install`. -/
def renameOver (d : Disk) (key : Key) (tmp : FileName) : Disk × Point Key :=
  if (d.dir tmp).isSome then (d.rename tmp (.file .adbkeyPub), .done (.ok key))
  else (d, .abandon tmp (.file (.file .adbkeyPub)))

/-- One attempt of `write_temp`: a name that is taken costs the attempt.  A new file gets a number no file has. -/
def createTemp (d : Disk) (target : Target) (key : Key) (left : ℕ) (tmp : FileName) (ino : ℕ) :
    Option (Disk × Point Key) :=
  if (d.dir tmp).isSome then some (d, .creating target key left)
  else if (d.files ino).isSome then none
  else some (d.createNew tmp ino, .protecting target key tmp ino)

/-- `write_all`: a piece of what is left. -/
def writePiece (d : Disk) (target : Target) (key : Key) (tmp : FileName) (ino : ℕ) (rest : Bytes) (n : ℕ) :
    Option (Disk × Point Key) :=
  if 0 < n ∧ n ≤ rest.length then some (d.append ino (rest.take n), .writing target key tmp ino (rest.drop n))
  else none

/-- One call of a process; `tmp` is the name `write_temp` would try. -/
def Point.step (choice : Choice Key) (pid : ℕ) (next : UInt32) (d : Disk) (point : Point Key) :
    Option (Disk × Point Key) :=
  match point with
  | .opening =>
    match choice with
    | .go => some (d, if (d.dir (.file .adbkey)).isSome then .reading else .creatingDir)
    | .fail => some (d, .failed (.file (.file .adbkey)))
    | _ => none
  | .creatingDir =>
    match choice with
    | .go => some (d, .generating)
    | .fail => some (d, .failed .dir)
    | _ => none
  | .generating =>
    match choice with
    | .generated key => some (d, .creating .adbkey key attempts)
    | .fail => some (d, .done (.error .key))
    | _ => none
  | .creating target _ 0 => some (d, .failed (.file (.file target)))
  | .creating target key (left + 1) =>
    match choice with
    | .created ino => createTemp d target key left (.temp target pid next) ino
    | .fail => some (d, .abandon (.temp target pid next) (.file (.temp target pid next)))
    | _ => none
  | .protecting target key tmp ino =>
    match choice with
    | .go => some (d, .writing target key tmp ino (fmt.bytes target key))
    | .fail => some (d, .abandon tmp (.file tmp))
    | _ => none
  | .writing target key tmp ino rest =>
    match choice with
    | .go => if rest = [] then some (d, .syncing target key tmp) else none
    | .wrote n => writePiece d target key tmp ino rest n
    | .fail => some (d, .abandon tmp (.file tmp))
    | _ => none
  | .syncing target key tmp =>
    match choice with
    | .go => some (d, .written target key tmp)
    | .fail => some (d, .abandon tmp (.file tmp))
    | _ => none
  | .linking key tmp =>
    match choice with
    | .go => some (linkNew d key tmp)
    | .fail => some (d, .abandon tmp (.file (.file .adbkey)))
    | _ => none
  | .installing key tmp =>
    match choice with
    | .go => some (renameOver d key tmp)
    | .fail => some (d, .abandon tmp (.file (.file .adbkeyPub)))
    | _ => none
  | .removing tmp next =>
    match choice with
    | .go => some (d.remove tmp, next)
    | .fail => some (d, next)
    | _ => none
  | .reading =>
    match choice with
    | .go => some (d, .adopted (load fmt d))
    | .fail => some (d, .failed (.file (.file .adbkey)))
    | _ => none
  | .looking key =>
    -- `exists` is false when it cannot tell
    match choice with
    | .go => some (d, if (d.dir (.file .adbkeyPub)).isSome then .done (.ok key) else .creating .adbkeyPub key attempts)
    | .fail => some (d, .creating .adbkeyPub key attempts)
    | _ => none
  | .done _ => none

/-- `NEXT.fetch_add(1)`, once for each attempt; the counter wraps. -/
def Point.drawn (next : UInt32) : Point Key → UInt32
  | .creating _ _ (_ + 1) => next + 1
  | _ => next

/-- The key a call returned. -/
def Point.key? : Point Key → Option Key
  | .done (.ok key) => some key
  | _ => none

/-! ## The system -/

/-- The directory, the processes that are alive, and the keys that calls have returned. -/
structure System (Key : Type) where
  disk : Disk
  procs : ℕ → Option (Proc Key)
  returned : List Key

/-- What happens next: a process starts, stops, makes one more call of `load_or_generate`, or takes a step of it. -/
inductive Move (Key : Type) where
  | spawn (pid : ℕ) (next : UInt32)
  | stop (pid : ℕ)
  | again (pid : ℕ)
  | act (pid : ℕ) (choice : Choice Key)

namespace System

/-- Any directory, and no process yet. -/
def start (disk : Disk) : System Key := ⟨disk, fun _ => none, []⟩

/-- Process `pid` is now `proc`. -/
def setProc (s : System Key) (pid : ℕ) (proc : Option (Proc Key)) : System Key :=
  { s with procs := Function.update s.procs pid proc }

/-- What a step of process `pid` leaves. -/
def advance (s : System Key) (pid : ℕ) (p : Proc Key) (d : Disk) (point : Point Key) : System Key :=
  { s.setProc pid (some ⟨p.point.drawn p.next, point⟩) with disk := d, returned := s.returned ++ point.key?.toList }

@[simp] theorem procs_setProc (s : System Key) (pid pid' : ℕ) (proc : Option (Proc Key)) :
    (s.setProc pid proc).procs pid' = if pid' = pid then proc else s.procs pid' :=
  Function.update_apply ..

@[simp] theorem procs_advance (s : System Key) (pid pid' : ℕ) (p : Proc Key) (d : Disk) (point : Point Key) :
    (s.advance pid p d point).procs pid' =
      if pid' = pid then some ⟨p.point.drawn p.next, point⟩ else s.procs pid' :=
  procs_setProc ..

def step (s : System Key) : Move Key → Option (System Key)
  | .spawn pid next =>
    if (s.procs pid).isSome then none else some (s.setProc pid (some ⟨next, .opening⟩))
  | .stop pid => some (s.setProc pid none)
  | .again pid =>
    match s.procs pid with
    | some ⟨next, .done _⟩ => some (s.setProc pid (some ⟨next, .opening⟩))
    | _ => none
  | .act pid choice =>
    match s.procs pid with
    | none => none
    | some p => (p.point.step fmt choice pid p.next s.disk).map fun out => s.advance pid p out.1 out.2

end System

/-! ## Drafts -/

/-- `tmp` is a file of process `pid`, numbered `ino`, that has no other name yet and holds `content`. -/
structure Draft (pid : ℕ) (d : Disk) (tmp : FileName) (ino : ℕ) (content : Bytes) : Prop where
  owned : ∃ target seq, tmp = .temp target pid seq
  here : d.dir tmp = some ino
  sole : ∀ name, d.dir name = some ino → name = tmp
  holds : d.files ino = some content

/-- The file `adbkey` holds `key`. -/
def Settled (d : Disk) (key : Key) : Prop := ∃ bytes, d.read (.file .adbkey) = some bytes ∧ fmt.parse bytes = some key

/-- What a step of process `pid` does to the directory, as the others see it. -/
structure Leaves (pid : ℕ) (d d' : Disk) : Prop where
  /-- A key that is there stays as it is. -/
  kept : ∀ {bytes}, d.read (.file .adbkey) = some bytes → d'.read (.file .adbkey) = some bytes
  /-- A key that appears is whole. -/
  whole : ∀ {bytes}, d'.read (.file .adbkey) = some bytes →
    d.read (.file .adbkey) = some bytes ∨ ∃ key, bytes = fmt.toPkcs8Pem key
  drafts : ∀ {pid' tmp ino content}, pid' ≠ pid → Draft pid' d tmp ino content → Draft pid' d' tmp ino content

variable {fmt} {pid : ℕ} {d d' : Disk} {tmp : FileName} {ino : ℕ} {content : Bytes} {key : Key}

theorem Draft.not_file (h : Draft pid d tmp ino content) (target : Target) : d.dir (.file target) ≠ some ino := by
  intro hfile
  obtain ⟨t, seq, htmp⟩ := h.owned
  cases (h.sole _ hfile).trans htmp

/-- Two processes have two names. -/
theorem Draft.ne_temp {pid' : ℕ} (h : Draft pid' d tmp ino content) (hpid : pid' ≠ pid) (target : Target)
    (seq : UInt32) : tmp ≠ .temp target pid seq := by
  rintro rfl
  obtain ⟨t, seq', htmp⟩ := h.owned
  cases htmp
  exact hpid rfl

/-- Two processes have two files. -/
theorem Draft.ne_ino {pid' ino' : ℕ} {tmp' : FileName} {content' : Bytes} (h : Draft pid d tmp ino content)
    (h' : Draft pid' d tmp' ino' content') (hpid : pid' ≠ pid) : ino' ≠ ino := by
  rintro rfl
  obtain ⟨target, seq, rfl⟩ := h.owned
  exact h'.ne_temp hpid _ _ (h'.sole _ h.here).symm

/-- A draft stays one if its name and its file were not touched, and the file got no other name. -/
theorem Draft.frame (h : Draft pid d tmp ino content) (hdir : d'.dir tmp = d.dir tmp)
    (hfiles : d'.files ino = d.files ino)
    (hnew : ∀ name, d'.dir name = some ino → d.dir name = some ino) : Draft pid d' tmp ino content :=
  ⟨h.owned, hdir.trans h.here, fun name hname => h.sole name (hnew name hname), hfiles.trans h.holds⟩

namespace Leaves

variable {target : Target} {seq : UInt32}

theorem refl (d : Disk) : Leaves fmt pid d d := ⟨id, Or.inl, fun _ h => h⟩

/-- Nothing happened under the name of the key. -/
theorem of_read (hread : d'.read (.file .adbkey) = d.read (.file .adbkey))
    (hdrafts : ∀ {pid' tmp ino content}, pid' ≠ pid → Draft pid' d tmp ino content → Draft pid' d' tmp ino content) :
    Leaves fmt pid d d' :=
  ⟨fun h => hread.trans h, fun h => .inl (hread.symm.trans h), hdrafts⟩

theorem createNew (hino : d.files ino = none) : Leaves fmt pid d (d.createNew (.temp target pid seq) ino) := by
  refine of_read (Disk.read_congr (by simp) ?_) ?_
  · intro i hi
    rw [Disk.files_createNew, if_neg]
    rintro rfl
    exact Disk.not_linked hino _ hi
  · intro pid' tmp i content hpid h
    have hi : i ≠ ino := by
      rintro rfl
      exact Disk.not_linked hino _ h.here
    refine h.frame (by simp [h.ne_temp hpid]) (by simp [hi]) ?_
    intro name hname
    rw [Disk.dir_createNew] at hname
    split_ifs at hname
    · exact absurd (Option.some.inj hname).symm hi
    · exact hname

theorem append {bytes : Bytes} (h : Draft pid d tmp ino content) : Leaves fmt pid d (d.append ino bytes) := by
  refine of_read (Disk.read_congr rfl ?_) ?_
  · intro i hi
    rw [Disk.files_append, if_neg]
    rintro rfl
    exact h.not_file .adbkey hi
  · intro pid' tmp' i content' hpid h'
    refine h'.frame rfl ?_ fun _ hname => hname
    rw [Disk.files_append, if_neg (h.ne_ino h' hpid)]

theorem remove : Leaves fmt pid d (d.remove (.temp target pid seq)) := by
  refine of_read (Disk.read_congr (by simp) fun _ _ => rfl) ?_
  intro pid' tmp i content hpid h
  refine h.frame (by simp [h.ne_temp hpid]) rfl ?_
  intro name hname
  rw [Disk.dir_remove] at hname
  split_ifs at hname
  exact hname

theorem rename : Leaves fmt pid d (d.rename (.temp target pid seq) (.file .adbkeyPub)) := by
  refine of_read (Disk.read_congr (by simp [Disk.rename]) fun _ _ => rfl) ?_
  intro pid' tmp i content hpid h
  have hpub : tmp ≠ .file .adbkeyPub := by
    rintro rfl
    exact h.not_file _ h.here
  refine h.frame (by simp [Disk.rename, h.ne_temp hpid, hpub]) rfl ?_
  intro name hname
  simp only [Disk.rename, Disk.dir_remove, Disk.dir_link] at hname
  split_ifs at hname with h1 h2
  · -- the name of the temporary moved, and it is not a name of this draft
    exact absurd (h.sole _ hname).symm (h.ne_temp hpid _ _)
  · exact hname

/-- **The commit point**: what is published is a finished draft. -/
theorem link (h : Draft pid d tmp ino (fmt.toPkcs8Pem key)) (hfree : d.dir (.file .adbkey) = none) :
    Leaves fmt pid d (d.link tmp (.file .adbkey)) := by
  have hread : (d.link tmp (.file .adbkey)).read (.file .adbkey) = some (fmt.toPkcs8Pem key) := by
    simp [Disk.read, h.here, h.holds]
  refine ⟨?_, ?_, ?_⟩
  · intro bytes hold
    simp [Disk.read, hfree] at hold
  · intro bytes hnew
    exact .inr ⟨key, Option.some.inj (hnew.symm.trans hread)⟩
  · intro pid' tmp' i content' hpid h'
    have hkey : tmp' ≠ .file .adbkey := by
      rintro rfl
      exact h'.not_file _ h'.here
    refine h'.frame (by simp [hkey]) rfl ?_
    intro name hname
    rw [Disk.dir_link] at hname
    split_ifs at hname
    · exact absurd (Option.some.inj (hname.symm.trans h.here)) (h.ne_ino h' hpid)
    · exact hname

theorem settled (h : Leaves fmt pid d d') (hs : Settled fmt d key) : Settled fmt d' key := by
  obtain ⟨bytes, hread, hparse⟩ := hs
  exact ⟨bytes, h.kept hread, hparse⟩

end Leaves

/-! ## What holds where a process is -/

/-- Only a key that is settled gets a public file. -/
def Backed (fmt : KeyFormat Key) (d : Disk) (target : Target) (key : Key) : Prop :=
  target = .adbkeyPub → Settled fmt d key

/-- What a process knows at each point. -/
def Point.Ok (fmt : KeyFormat Key) (pid : ℕ) (d : Disk) : Point Key → Prop
  | .creating target key _ => Backed fmt d target key
  | .protecting target key tmp ino => Draft pid d tmp ino [] ∧ Backed fmt d target key
  | .writing target key tmp ino rest =>
    (∃ written, Draft pid d tmp ino written ∧ written ++ rest = fmt.bytes target key) ∧ Backed fmt d target key
  | .syncing target key tmp => (∃ ino, Draft pid d tmp ino (fmt.bytes target key)) ∧ Backed fmt d target key
  | .linking key tmp => ∃ ino, Draft pid d tmp ino (fmt.toPkcs8Pem key)
  | .installing key tmp => (∃ target seq, tmp = .temp target pid seq) ∧ Settled fmt d key
  | .removing tmp next => (∃ target seq, tmp = .temp target pid seq) ∧
    -- what comes after does not depend on the temporary
    ∀ d', (∀ key, Settled fmt d key → Settled fmt d' key) → next.Ok fmt pid d'
  | .looking key => Settled fmt d key
  | .done (.ok key) => Settled fmt d key
  | _ => True

/-- A step of another process does not make it false. -/
theorem Point.Ok.frame {pid' : ℕ} (hl : Leaves fmt pid d d') (hpid : pid' ≠ pid) {point : Point Key}
    (h : point.Ok fmt pid' d) : point.Ok fmt pid' d' := by
  have hback : ∀ {target key}, Backed fmt d target key → Backed fmt d' target key :=
    fun hb htarget => hl.settled (hb htarget)
  cases point with
  | opening | creatingDir | generating | reading => trivial
  | creating target key left => exact hback h
  | protecting target key tmp ino => exact ⟨hl.drafts hpid h.1, hback h.2⟩
  | writing target key tmp ino rest =>
    obtain ⟨⟨written, hd, hw⟩, hb⟩ := h
    exact ⟨⟨written, hl.drafts hpid hd, hw⟩, hback hb⟩
  | syncing target key tmp =>
    obtain ⟨⟨ino, hd⟩, hb⟩ := h
    exact ⟨⟨ino, hl.drafts hpid hd⟩, hback hb⟩
  | linking key tmp =>
    obtain ⟨ino, hd⟩ := h
    exact ⟨ino, hl.drafts hpid hd⟩
  | installing key tmp => exact ⟨h.1, hl.settled h.2⟩
  | removing tmp next => exact ⟨h.1, fun d'' hs => h.2 d'' fun key hk => hs key (hl.settled hk)⟩
  | looking key => exact hl.settled h
  | done result =>
    cases result with
    | ok key => exact hl.settled h
    | error e => trivial

/-- What a process needs when it gives up. -/
theorem Point.ok_abandon {path : StorePath} (h : ∃ target seq, tmp = .temp target pid seq) :
    (Point.abandon tmp path : Point Key).Ok fmt pid d := ⟨h, fun _ _ => trivial⟩

/-! ## One step -/

/-- The step leaves the others alone, and leads to a point where the process is right. -/
def Good (fmt : KeyFormat Key) (pid : ℕ) (d : Disk) (out : Disk × Point Key) : Prop :=
  Leaves fmt pid d out.1 ∧ out.2.Ok fmt pid out.1

/-- A step that only moves the process. -/
theorem Good.stay {point : Point Key} (h : point.Ok fmt pid d) : Good fmt pid d (d, point) := ⟨.refl d, h⟩

theorem createTemp_good {target : Target} {left : ℕ} {seq : UInt32} {out : Disk × Point Key}
    (hback : Backed fmt d target key)
    (h : createTemp d target key left (.temp target pid seq) ino = some out) : Good fmt pid d out := by
  unfold createTemp at h
  split_ifs at h with htaken hused
  · cases h
    exact .stay hback
  · cases h
    have hino : d.files ino = none := by simpa using hused
    have hl : Leaves fmt pid d (d.createNew (.temp target pid seq) ino) := .createNew hino
    refine ⟨hl, ⟨⟨target, seq, rfl⟩, by simp, ?_, by simp⟩, fun ht => hl.settled (hback ht)⟩
    intro name hname
    rw [Disk.dir_createNew] at hname
    split_ifs at hname with hn
    · exact hn
    · exact absurd hname (Disk.not_linked hino name)

theorem writePiece_good {target : Target} {rest written : Bytes} {n : ℕ} {out : Disk × Point Key}
    (hd : Draft pid d tmp ino written) (hw : written ++ rest = fmt.bytes target key)
    (hback : Backed fmt d target key) (h : writePiece d target key tmp ino rest n = some out) :
    Good fmt pid d out := by
  unfold writePiece at h
  split_ifs at h
  cases h
  have hl : Leaves fmt pid d (d.append ino (rest.take n)) := .append hd
  refine ⟨hl, ⟨written ++ rest.take n, ⟨hd.owned, hd.here, hd.sole, by simp [hd.holds]⟩, ?_⟩,
    fun ht => hl.settled (hback ht)⟩
  rw [List.append_assoc, List.take_append_drop, hw]

theorem linkNew_good (hd : Draft pid d tmp ino (fmt.toPkcs8Pem key)) : Good fmt pid d (linkNew d key tmp) := by
  unfold linkNew
  split_ifs with hthere hhere
  · exact .stay ⟨hd.owned, fun _ _ => trivial⟩
  · have hfree : d.dir (.file .adbkey) = none := by simpa using hthere
    have hs : Settled fmt (d.link tmp (.file .adbkey)) key :=
      ⟨fmt.toPkcs8Pem key, by simp [Disk.read, hd.here, hd.holds], fmt.parse_toPkcs8Pem key⟩
    exact ⟨.link hd hfree, hd.owned, fun _ hkeep _ => hkeep key hs⟩
  · exact .stay (Point.ok_abandon hd.owned)

theorem renameOver_good (howned : ∃ target seq, tmp = .temp target pid seq) (hs : Settled fmt d key) :
    Good fmt pid d (renameOver d key tmp) := by
  unfold renameOver
  split_ifs
  · obtain ⟨target, seq, rfl⟩ := howned
    have hl : Leaves fmt pid d (d.rename (.temp target pid seq) (.file .adbkeyPub)) := .rename
    exact ⟨hl, hl.settled hs⟩
  · exact .stay (Point.ok_abandon howned)

/-- A key that was read is the key that is there. -/
theorem load_ok (h : load fmt d = .ok key) : Settled fmt d key := by
  unfold load at h
  split at h
  · cases h
  · rename_i bytes hread
    split_ifs at h
    split at h
    · rename_i k hparse
      cases h
      exact ⟨bytes, hread, hparse⟩
    · cases h

theorem adopted_ok : (Point.adopted (load fmt d)).Ok fmt pid d := by
  cases h : load fmt d with
  | ok key => exact load_ok h
  | error e => trivial

/-- **One step of a process**: the others are left alone, and it knows what it needs at the next point. -/
theorem Point.step_good {choice : Choice Key} {next : UInt32} {point : Point Key} {out : Disk × Point Key}
    (hok : point.Ok fmt pid d) (h : point.step fmt choice pid next d = some out) : Good fmt pid d out := by
  unfold Point.step at h
  cases point with
  | opening =>
    cases choice <;> cases h
    · split_ifs <;> exact .stay trivial
    · exact .stay trivial
  | creatingDir => cases choice <;> cases h <;> exact .stay trivial
  | generating =>
    cases choice <;> cases h
    · exact .stay trivial
    · exact .stay fun htarget => by cases htarget
  | creating target key left =>
    cases left with
    | zero =>
      cases h
      exact .stay trivial
    | succ left =>
      cases choice with
      | created ino => exact createTemp_good hok h
      | fail =>
        cases h
        exact .stay (ok_abandon ⟨target, next, rfl⟩)
      | go | generated _ | wrote _ => cases h
  | protecting target key tmp ino =>
    cases choice <;> cases h
    · exact .stay ⟨⟨[], hok.1, rfl⟩, hok.2⟩
    · exact .stay (ok_abandon hok.1.owned)
  | writing target key tmp ino rest =>
    obtain ⟨⟨written, hd, hw⟩, hback⟩ := hok
    cases choice with
    | go =>
      dsimp only at h
      split_ifs at h with hrest
      cases h
      rw [hrest, List.append_nil] at hw
      exact .stay ⟨⟨ino, hw ▸ hd⟩, hback⟩
    | wrote n => exact writePiece_good hd hw hback h
    | fail =>
      cases h
      exact .stay (ok_abandon hd.owned)
    | created _ | generated _ => cases h
  | syncing target key tmp =>
    obtain ⟨⟨ino, hd⟩, hback⟩ := hok
    cases choice <;> cases h
    · cases target with
      | adbkey => exact .stay ⟨ino, hd⟩
      | adbkeyPub => exact .stay ⟨hd.owned, hback rfl⟩
    · exact .stay (ok_abandon hd.owned)
  | linking key tmp =>
    obtain ⟨ino, hd⟩ := hok
    cases choice <;> cases h
    · exact linkNew_good hd
    · exact .stay (ok_abandon hd.owned)
  | installing key tmp =>
    cases choice <;> cases h
    · exact renameOver_good hok.1 hok.2
    · exact .stay (ok_abandon hok.1)
  | removing tmp next =>
    cases choice <;> cases h
    · obtain ⟨⟨target, seq, rfl⟩, hnext⟩ := hok
      have hl : Leaves fmt pid d (d.remove (.temp target pid seq)) := .remove
      exact ⟨hl, hnext _ fun _ hs => hl.settled hs⟩
    · exact .stay (hok.2 d fun _ hs => hs)
  | reading =>
    cases choice <;> cases h
    · exact .stay adopted_ok
    · exact .stay trivial
  | looking key =>
    cases choice <;> cases h
    · split_ifs
      · exact .stay hok
      · exact .stay fun _ => hok
    · exact .stay fun _ => hok
  | done result => cases h

/-! ## Whole runs -/

/-- Every process is right where it is, a key that is there was there at the start or is whole, and every key that was
returned is the one that is there. -/
structure Consistent (fmt : KeyFormat Key) (first : Disk) (s : System Key) : Prop where
  procs : ∀ {pid p}, s.procs pid = some p → p.point.Ok fmt pid s.disk
  whole : ∀ {bytes}, s.disk.read (.file .adbkey) = some bytes →
    first.read (.file .adbkey) = some bytes ∨ ∃ key, bytes = fmt.toPkcs8Pem key
  returned : ∀ key ∈ s.returned, Settled fmt s.disk key

namespace Consistent

variable {first : Disk} {s t : System Key} {p : Proc Key}

theorem start (first : Disk) : Consistent fmt first (System.start first) where
  procs h := by cases h
  whole h := .inl h
  returned _ h := by cases h

/-- A process comes, goes or begins again. -/
theorem setProc {proc : Option (Proc Key)} (h : Consistent fmt first s)
    (hproc : ∀ p, proc = some p → p.point.Ok fmt pid s.disk) : Consistent fmt first (s.setProc pid proc) := by
  refine ⟨?_, h.whole, h.returned⟩
  intro pid' p hp
  rw [System.procs_setProc] at hp
  split_ifs at hp with hpid
  · rw [hpid]
    exact hproc p hp
  · exact h.procs hp

/-- A process takes a step. -/
theorem advance {point : Point Key} (h : Consistent fmt first s) (hgood : Good fmt pid s.disk (d', point)) :
    Consistent fmt first (s.advance pid p d' point) := by
  obtain ⟨hl, hok⟩ := hgood
  refine ⟨?_, ?_, ?_⟩
  · intro pid' p' hp
    rw [System.procs_advance] at hp
    split_ifs at hp with hpid
    · cases hp
      rw [hpid]
      exact hok
    · exact (h.procs hp).frame hl hpid
  · intro bytes hread
    rcases hl.whole hread with hold | hnew
    · exact h.whole hold
    · exact .inr hnew
  · intro key hkey
    rcases List.mem_append.mp hkey with hkey | hkey
    · exact hl.settled (h.returned key hkey)
    · -- the call that has just returned
      cases point with
      | done result =>
        cases result with
        | ok k =>
          cases List.mem_singleton.mp hkey
          exact hok
        | error e => cases hkey
      | _ => cases hkey

/-- A step in the system is nothing to the key, or a step of one process. -/
theorem step_cases {m : Move Key} (h : Consistent fmt first s) (hstep : s.step fmt m = some t) :
    (∃ pid proc, t = s.setProc pid proc ∧ ∀ p, proc = some p → p.point.Ok fmt pid s.disk) ∨
      ∃ pid p d' point, t = s.advance pid p d' point ∧ Good fmt pid s.disk (d', point) := by
  cases m with
  | spawn pid next =>
    simp only [System.step] at hstep
    split_ifs at hstep
    cases hstep
    exact .inl ⟨pid, _, rfl, fun p hp => by cases hp; trivial⟩
  | stop pid =>
    cases hstep
    exact .inl ⟨pid, none, rfl, fun p hp => by cases hp⟩
  | again pid =>
    simp only [System.step] at hstep
    split at hstep
    · cases hstep
      exact .inl ⟨pid, _, rfl, fun p hp => by cases hp; trivial⟩
    · cases hstep
  | act pid choice =>
    simp only [System.step] at hstep
    cases hp : s.procs pid with
    | none =>
      rw [hp] at hstep
      cases hstep
    | some p =>
      rw [hp] at hstep
      obtain ⟨out, hout, rfl⟩ := Option.map_eq_some_iff.mp hstep
      exact .inr ⟨pid, p, out.1, out.2, rfl, Point.step_good (h.procs hp) hout⟩

theorem step {m : Move Key} (h : Consistent fmt first s) (hstep : s.step fmt m = some t) : Consistent fmt first t := by
  rcases h.step_cases hstep with ⟨pid, proc, rfl, hproc⟩ | ⟨pid, p, d', point, rfl, hgood⟩
  · exact h.setProc hproc
  · exact h.advance hgood

/-- No step changes a key that is there. -/
theorem step_kept {m : Move Key} {bytes : Bytes} (h : Consistent fmt first s) (hstep : s.step fmt m = some t)
    (hread : s.disk.read (.file .adbkey) = some bytes) : t.disk.read (.file .adbkey) = some bytes := by
  rcases h.step_cases hstep with ⟨pid, proc, rfl, -⟩ | ⟨pid, p, d', point, rfl, hgood⟩
  · exact hread
  · exact hgood.1.kept hread

end Consistent

/-- **A key is never replaced, and racers agree.**  In every run of any number of processes from any directory: a key
that is there in `t` is there in every later `u`; it was there at the start or is whole; and the calls that returned
a key returned the one that is there, so all of them returned the same. -/
theorem key_store_agrees {first : Disk} {ms ms' : List (Move Key)} {t u : System Key}
    (hrun : Runs.Run (System.step fmt) Runs.Any (System.start first) ms t)
    (hmore : Runs.Run (System.step fmt) Runs.Any t ms' u) :
    (∀ bytes, t.disk.read (.file .adbkey) = some bytes → u.disk.read (.file .adbkey) = some bytes) ∧
      (∀ bytes, t.disk.read (.file .adbkey) = some bytes →
        first.read (.file .adbkey) = some bytes ∨ ∃ key, bytes = fmt.toPkcs8Pem key) ∧
      (∀ key ∈ t.returned, ∃ bytes, t.disk.read (.file .adbkey) = some bytes ∧ fmt.parse bytes = some key) ∧
      ∀ key ∈ t.returned, ∀ key' ∈ t.returned, key = key' := by
  have ht : Consistent fmt first t := hrun.invariant (.start first) fun _ _ _ h _ hstep => h.step hstep
  refine ⟨?_, fun bytes => ht.whole, ht.returned, ?_⟩
  · intro bytes hread
    have hkept : Consistent fmt first u ∧ u.disk.read (.file .adbkey) = some bytes :=
      hmore.invariant (I := fun s => Consistent fmt first s ∧ s.disk.read (.file .adbkey) = some bytes) ⟨ht, hread⟩
        fun _ _ _ h _ hstep => ⟨h.1.step hstep, h.1.step_kept hstep h.2⟩
    exact hkept.2
  · intro key hkey key' hkey'
    obtain ⟨bytes, hread, hparse⟩ := ht.returned key hkey
    obtain ⟨bytes', hread', hparse'⟩ := ht.returned key' hkey'
    cases hread.symm.trans hread'
    exact Option.some.inj (hparse.symm.trans hparse')

/-! ## A race -/

/-- Keys that are bytes. -/
def plainKeys : KeyFormat Byte where
  toPkcs8Pem key := [key, 10]
  publicKeyLine key := [key]
  isText _ := true
  fromPkcs1Pem _ := none
  fromPkcs8Pem bytes := bytes.head?
  isText_toPkcs8Pem _ := rfl
  label_toPkcs8Pem _ h := absurd (show pkcs1Label.length ≤ 2 from h.length_le) (by decide +kernel)
  fromPkcs8Pem_toPkcs8Pem _ := rfl

def emptyDisk : Disk where
  dir _ := none
  files _ := none
  linked h := by cases h

/-- One process writes a private and a public key, `pid` numbering its files from `ino`. -/
def publishing (pid ino : ℕ) : List (Move Byte) :=
  [.act pid (.created ino), .act pid .go, .act pid (.wrote 1), .act pid (.wrote 1), .act pid .go, .act pid .go,
    .act pid .go, .act pid .go, .act pid (.created (ino + 1)), .act pid .go, .act pid (.wrote 1), .act pid .go,
    .act pid .go, .act pid .go]

/-- Processes 1 and 2 both find nothing and generate; 2 publishes, and 1 adopts its key. -/
def race : List (Move Byte) :=
  [.spawn 1 0, .spawn 2 0, .act 1 .go, .act 2 .go, .act 1 .go, .act 2 .go, .act 1 (.generated 65),
    .act 2 (.generated 66)] ++ publishing 2 0 ++
  [.act 1 (.created 2), .act 1 .go, .act 1 (.wrote 2), .act 1 .go, .act 1 .go, .act 1 .go, .act 1 .go, .act 1 .go,
    .act 1 .go]

/-- The race, and then a process that is stopped after it. -/
theorem key_store_agrees_race :
    ∃ t u, Runs.exec (System.step plainKeys) (System.start emptyDisk) race = some t ∧
      System.step plainKeys t (.stop 2) = some u ∧ t.returned = [66, 66] ∧
      t.disk.read (.file .adbkey) = some [66, 10] ∧ u.disk.read (.file .adbkey) = some [66, 10] := by
  obtain ⟨t, ht, hreturned, hread⟩ : ∃ t, Runs.exec (System.step plainKeys) (System.start emptyDisk) race = some t ∧
      t.returned = [66, 66] ∧ t.disk.read (.file .adbkey) = some [66, 10] := ⟨_, rfl, rfl, rfl⟩
  have hrun := Runs.Run.of_exec ht
  refine ⟨t, t.setProc 2 none, ht, rfl, hreturned, hread, ?_⟩
  have hstop : System.step plainKeys t (.stop 2) = some (t.setProc 2 none) := rfl
  exact (key_store_agrees hrun (.snoc (.nil t) trivial hstop)).1 _ hread

end LibAdb.KeyStore
