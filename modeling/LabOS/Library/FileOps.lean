import LabOS.Library.Exceptional
import LabOS.Library.FileTree

/-!
# File operations that may fail

The calls a program makes on a `FileTree`. A call raises `OSError` where the
kernel would, and besides that any call that changes the disk may fail for a
reason outside the program: the `fates` of a `Disk` say, one call after another,
which do. An interrupted write leaves nothing or a truncated file, an interrupted
`rmtree` leaves any part of the tree that is closed under going up.

A tree keeps the bytes of a file under its path, so two names of one file are two entries. Which
paths are names of one file is said beside the tree where that matters: `writeShared` is a write that
goes through to the other names.
-/

/-- Bytes, as far as an interrupted write is concerned. -/
class Content (β : Type) where
  /-- The first `n` bytes. -/
  truncate : ℕ → β → β
  truncate_truncate : ∀ m n b, truncate m (truncate n b) = truncate (min m n) b

/-- What becomes of a call that changes the disk: it is done, or it fails after
keeping the paths `kept` of a removal, or after writing some of the bytes, or
before anything. -/
inductive Fate where
  | done
  | failed (kept : PosixPath → Bool) (written : Option ℕ)

/-- A disk: its tree, and what becomes of the calls to come. With no fate left every
call is done. -/
structure Disk (β : Type) where
  tree : FileTree β
  fates : List Fate

/-- What a file operation raises. -/
inductive FileError where
  | osError
  | symlinkLoop
  | tarError
  | keyError
  | recursionError
  deriving DecidableEq, Repr

/-- Programs over a disk. -/
abbrev FileM (β : Type) := EStateM FileError (Disk β)

/-- The files with more than one name, each as the list of its names. -/
abbrev Sharing := List (List PosixPath)

namespace Sharing

/-- The names of the file at `q`, where it has more than one. -/
def names (shared : Sharing) (q : PosixPath) : List PosixPath := (shared.find? (·.contains q)).getD []

/-- The names of a file are kept together. -/
theorem mem_of_mem_names {shared : Sharing} {q r : PosixPath} (hr : r ∈ shared.names q) :
    ∃ g ∈ shared, q ∈ g ∧ r ∈ g := by
  unfold names at hr
  cases hfind : shared.find? (·.contains q) with
  | none =>
    rw [hfind] at hr
    exact absurd hr List.not_mem_nil
  | some g =>
    rw [hfind] at hr
    exact ⟨g, List.mem_of_find?_eq_some hfind, by simpa using List.find?_some hfind, hr⟩

/-- The name `q` is taken away. -/
def without (shared : Sharing) (q : PosixPath) : Sharing := shared.map fun g => g.filter (· ≠ q)

/-- The file at `q` gets the name `r`. -/
def link (shared : Sharing) (q r : PosixPath) : Sharing :=
  (r :: q :: shared.names q) :: shared.filter fun g => !g.contains q

/-- The names that still stand in a tree. -/
def present {β : Type} (shared : Sharing) (t : FileTree β) : Sharing :=
  shared.map fun g => g.filter fun r => (t.lookup r).isSome

/-- What was at `q` and below is at `r` and below, in the place of what was there. -/
def move (shared : Sharing) (q r : PosixPath) : Sharing :=
  if q = r then shared
  else
    shared.map fun g =>
      (g.filter fun x => ¬ r <+: x).map fun x => if q <+: x then r ++ x.drop q.length else x

end Sharing

namespace FileTree

variable {β : Type} (t : FileTree β)

/-- `os.stat`: the entry a path leads to. -/
def stat (p : PosixPath) : Option (Entry β) := (t.locate true p).bind t.lookup

/-- `os.mkdir`. -/
def mkdir (p : PosixPath) : Option (FileTree β) :=
  match t.locate false p with
  | some q => if (t.lookup q).isNone then some (t.set q .dir) else none
  | none => none

/-- `open(p, "wb")` and a write of everything. -/
def write (p : PosixPath) (b : β) : Option (FileTree β) :=
  match t.locate true p with
  | some q =>
    match t.lookup q with
    | none | some (.file _) => some (t.set q (.file b))
    | _ => none
  | none => none

/-- The bytes of a file under each of the paths where a file stands. -/
def setFiles (names : List PosixPath) (b : β) : FileTree β :=
  names.foldl (fun t r => if ((t.lookup r).bind Entry.bytes?).isSome then t.set r (.file b) else t) t

@[simp] theorem setFiles_nil (b : β) : t.setFiles [] b = t := rfl

/-- `open(p, "wb")` and a write of everything, where a file may have several names. -/
def writeShared (shared : Sharing) (p : PosixPath) (b : β) : Option (FileTree β) :=
  (t.write p b).map fun t' => t'.setFiles ((t.locate true p).elim [] shared.names) b

/-- `os.link`, which links to a link itself and to no directory. -/
def link (p p' : PosixPath) : Option (FileTree β) :=
  match t.locate false p, t.locate false p' with
  | some q, some q' =>
    match t.lookup q with
    | some (.file b) => if (t.lookup q').isNone then some (t.set q' (.file b)) else none
    | some (.symlink tgt) => if (t.lookup q').isNone then some (t.set q' (.symlink tgt)) else none
    | _ => none
  | _, _ => none

/-- `os.symlink`. -/
def symlink (p : PosixPath) (tgt : PathText) : Option (FileTree β) :=
  match t.locate false p with
  | some q => if (t.lookup q).isNone then some (t.set q (.symlink tgt)) else none
  | none => none

/-- `os.unlink`. -/
def unlink (p : PosixPath) : Option (FileTree β) :=
  match t.locate false p with
  | some q =>
    match t.lookup q with
    | some (.file _) | some (.symlink _) => some (t.prune q fun _ => false)
    | _ => none
  | none => none

/-- `os.rmdir`. -/
def rmdir (p : PosixPath) : Option (FileTree β) :=
  match t.locate false p with
  | some q =>
    if q ≠ [] ∧ t.lookup q = some .dir ∧ t.children q = [] then some (t.prune q fun _ => false) else none
  | none => none

/-- What an `rmtree` of `q` that was interrupted leaves: the entries on the way to one
of the paths `kept`. -/
def removeSome (q : PosixPath) (kept : PosixPath → Bool) : FileTree β :=
  t.prune q fun x => t.rows.any fun y => x.isPrefixOf y.1 && q.isPrefixOf y.1 && kept y.1

/-- `shutil.rmtree`, which refuses a symbolic link. -/
def rmtree (p : PosixPath) (kept : PosixPath → Bool) : Option (FileTree β) :=
  match t.locate false p with
  | some q => if t.lookup q = some .dir then some (t.removeSome q kept) else none
  | none => none

/-- `os.replace` of a file, a link or a whole directory. -/
def rename (p p' : PosixPath) : Option (FileTree β) :=
  match t.locate false p, t.locate false p' with
  | some q, some q' =>
    if q = q' then some t
    else if q <+: q' ∨ q' <+: q then none
    else match t.lookup q, t.lookup q' with
      | none, _ => none
      | some .dir, some (.file _) => none
      | some .dir, some (.symlink _) => none
      | some (.file _), some .dir => none
      | some (.symlink _), some .dir => none
      | some _, e' =>
        if e' = some .dir ∧ t.children q' ≠ [] then none
        else some <|
          (t.rows.filter fun x => q.isPrefixOf x.1).foldl
            (fun t x => t.set (q' ++ x.1.drop q.length) x.2) (t.prune q fun _ => false)
  | _, _ => none

end FileTree

namespace FileOps

open Exceptional

variable {α β : Type}

/-! ### Calls -/

/-- A call that reads the disk. -/
def look (f : FileTree β → Option α) (e : FileError) : FileM β α := do
  let d ← get
  orRaise (f d.tree) e

/-- A decision made on the disk as it is. -/
def consult (f : FileTree β → Except FileError α) : FileM β α := do
  let d ← get
  fromExcept (f d.tree)

/-- A call that changes the disk by `op`, or leaves it as `cutShort` when it is interrupted. -/
def effect (op : FileTree β → Option (FileTree β))
    (cutShort : (PosixPath → Bool) → Option ℕ → FileTree β → FileTree β) : FileM β Unit := fun d =>
  match d.fates with
  | .failed kept written :: fates => .error .osError ⟨cutShort kept written d.tree, fates⟩
  | fates =>
    match op d.tree with
    | some t => .ok () ⟨t, fates.tail⟩
    | none => .error .osError ⟨d.tree, fates.tail⟩

/-- `PosixPath.exists`. -/
def pathExists (p : PosixPath) : FileM β Bool := look (fun t => some (t.stat p).isSome) .osError

/-- `PosixPath.is_dir`. -/
def isDir (p : PosixPath) : FileM β Bool :=
  look (fun t => some (match t.stat p with | some .dir => true | _ => false)) .osError

/-- `PosixPath.is_file`. -/
def isFile (p : PosixPath) : FileM β Bool :=
  look (fun t => some (match t.stat p with | some (.file _) => true | _ => false)) .osError

/-- `PosixPath.resolve`, which raises where what it comes to cannot be followed for a loop of links. -/
def resolve (p : PosixPath) : FileM β PosixPath :=
  look (fun t => if t.loops (t.realpath p).1 then none else some (t.realpath p).1) .symlinkLoop

/-- `os.path.lexists`. -/
def lexists (p : PosixPath) : FileM β Bool :=
  look (fun t => some (match t.locate false p with | some q => (t.lookup q).isSome | none => false)) .osError

/-- `PosixPath.iterdir`. -/
def iterdir (p : PosixPath) : FileM β (List String) :=
  look (fun t =>
    match t.locate true p with
    | some q => if t.lookup q = some .dir then some (t.children q) else none
    | none => none) .osError

/-- `open(p, "rb").read()`. -/
def readBytes (p : PosixPath) : FileM β β :=
  look (fun t => match t.stat p with | some (.file b) => some b | _ => none) .osError

/-- `os.mkdir`. -/
def mkdir (p : PosixPath) : FileM β Unit := effect (·.mkdir p) fun _ _ t => t

/-- `PosixPath.mkdir(parents=True, exist_ok=True)`: every directory of the path that is not there yet. -/
def makeDirs (p : PosixPath) : FileM β Unit :=
  p.inits.forM fun q => do
    let there ← isDir q
    whenever (!there) (mkdir q)

/-- `open(p, "wb").write(b)`. -/
def writeBytes [Content β] (p : PosixPath) (b : β) : FileM β Unit :=
  effect (·.write p b) fun _ written t =>
    match written with
    | some n => (t.write p (Content.truncate n b)).getD t
    | none => t

/-- `open(p, "wb").write(b)`, where a file may have several names. -/
def writeThrough [Content β] (shared : Sharing) (p : PosixPath) (b : β) : FileM β Unit :=
  effect (·.writeShared shared p b) fun _ written t =>
    match written with
    | some n => (t.writeShared shared p (Content.truncate n b)).getD t
    | none => t

/-- `os.link`. -/
def link (p p' : PosixPath) : FileM β Unit := effect (·.link p p') fun _ _ t => t

/-- `os.symlink`. -/
def symlink (p : PosixPath) (tgt : PathText) : FileM β Unit := effect (·.symlink p tgt) fun _ _ t => t

/-- `os.unlink`. -/
def unlink (p : PosixPath) : FileM β Unit := effect (·.unlink p) fun _ _ t => t

/-- `os.rmdir`. -/
def rmdir (p : PosixPath) : FileM β Unit := effect (·.rmdir p) fun _ _ t => t

/-- `shutil.rmtree`. -/
def rmtree (p : PosixPath) : FileM β Unit :=
  effect (·.rmtree p fun _ => false) fun kept _ t => (t.rmtree p kept).getD t

/-- `os.replace`. -/
def rename (p p' : PosixPath) : FileM β Unit := effect (·.rename p p') fun _ _ t => t

/-- `os.replace`, and which files then have which names. -/
def renameShared (shared : Sharing) (p p' : PosixPath) : FileM β Sharing := do
  let places ← look (fun t => some (t.locate false p, t.locate false p')) .osError
  rename p p'
  match places with
  | (some q, some r) => return shared.move q r
  | _ => return shared

/-- `shutil.copy2`: into `dst` where that is a directory, else at `dst`; never onto itself. -/
def copy2 [Content β] (src dst : PosixPath) : FileM β Unit := do
  let into ← isDir dst
  let dst := if into then dst ++ [PosixPath.name src] else dst
  let same ← look (fun t =>
    some (t.locate true src = t.locate true dst ∧ (t.locate true src).isSome : Bool)) .osError
  raiseIf (same = true) .osError
  let b ← readBytes src
  writeBytes dst b

end FileOps
