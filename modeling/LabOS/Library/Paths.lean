import Mathlib.Data.List.DropRight
import Mathlib.Data.List.Infix
import Mathlib.Data.List.TakeDrop

/-!
# Posix paths

A `PosixPath` is an absolute path as the list of its names, from the file system's root
on. A `PathText` is a text as it is written, cut at its slashes and nowhere changed: the
target of a link, the name in an archive. A `PurePath` is what `pathlib` makes of a text before
anything is looked up: how it is anchored and its parts, where empty parts and `.` are dropped and
`..` is kept. The suffix functions work on a single name and follow `pathlib`.
-/

/-- An absolute path: the names from the root on. -/
abbrev PosixPath := List String

/-- The text of a path, cut at its slashes: `a//./b` is `["a", "", ".", "b"]`, and an absolute path
begins with an empty piece. -/
abbrev PathText := List String

/-- How the text of a path begins: not with `/`, with `/`, or with exactly two. -/
inductive Anchor where
  | relative
  | slash
  | doubled
  deriving DecidableEq, Repr

/-- A path as written. -/
structure PurePath where
  anchor : Anchor
  parts : List String
  deriving DecidableEq, Repr

namespace PurePath

/-- Does the path start at the root? -/
def isAbsolute (p : PurePath) : Bool := p.anchor ≠ .relative

/-- The parts of a text between slashes, without the empty ones and `.`. -/
def splitParts (cs : List Char) : List String :=
  ((cs.splitOn '/').map String.ofList).filter fun s => s ≠ "" && s ≠ "."

/-- Read a text as a path. -/
def parse (s : String) : PurePath :=
  match s.toList with
  | '/' :: '/' :: '/' :: cs => ⟨.slash, splitParts cs⟩
  | '/' :: '/' :: cs => ⟨.doubled, splitParts cs⟩
  | '/' :: cs => ⟨.slash, splitParts cs⟩
  | cs => ⟨.relative, splitParts cs⟩

/-- `p.relative_to(base)`: the parts of `p` after those of `base`; nothing where `base`
does not begin `p`. -/
def relativeTo (p base : PurePath) : Option (List String) :=
  if p.anchor = base.anchor ∧ base.parts <+: p.parts then some (p.parts.drop base.parts.length) else none

/-- Every proper ancestor of `p`, and `p`. -/
def selfAndParents (p : PurePath) : List PurePath := p.parts.inits.map fun q => ⟨p.anchor, q⟩

/-- One name of a path after those before it: `..` takes the last of them away, and
nothing at the root. -/
def descend (done : PosixPath) (n : String) : PosixPath := if n = ".." then done.dropLast else done ++ [n]

/-- Where an absolute path leads by its text alone. -/
def normal (p : PurePath) : PosixPath := p.parts.foldl descend []

theorem foldl_descend_of_plain {names : List String} (h : ".." ∉ names) (done : PosixPath) :
    names.foldl descend done = done ++ names := by
  induction names generalizing done with
  | nil => simp
  | cons n names ih =>
    obtain ⟨hn, hnames⟩ := not_or.mp (mt List.mem_cons.mpr h)
    rw [List.foldl_cons, ih hnames, descend, if_neg (Ne.symm hn), List.append_assoc, List.singleton_append]

/-- A path without `..` is its own normal form. -/
theorem normal_of_plain {p : PurePath} (h : ".." ∉ p.parts) : p.normal = p.parts :=
  foldl_descend_of_plain h []

/-- A text that begins with a slash is an absolute path. -/
theorem isAbsolute_parse {s : String} (h : s.toList.head? = some '/') : (parse s).anchor ≠ .relative := by
  unfold parse
  split
  · simp
  · simp
  · simp
  · rename_i hne
    obtain ⟨cs, hcs⟩ := List.head?_eq_some_iff.mp h
    exact absurd hcs (hne cs)

theorem mem_selfAndParents {p q : PurePath} :
    q ∈ p.selfAndParents ↔ q.anchor = p.anchor ∧ q.parts <+: p.parts := by
  rw [selfAndParents, List.mem_map]
  constructor
  · rintro ⟨parts, hparts, rfl⟩
    exact ⟨rfl, (List.mem_inits parts p.parts).mp hparts⟩
  · rintro ⟨hanchor, hparts⟩
    exact ⟨q.parts, (List.mem_inits q.parts p.parts).mpr hparts, by rw [← hanchor]⟩

end PurePath

namespace PathText

/-- How many slashes the text begins with. -/
def slashes (p : PathText) : ℕ := (p.dropLast.takeWhile (· = "")).length

theorem slashes_eq_zero {p : PathText} (h : "" ∉ p) : p.slashes = 0 := by
  unfold slashes
  rw [List.takeWhile_eq_nil_iff.mpr, List.length_nil]
  intro hlen heq
  have hmem : p.dropLast[0] ∈ p := List.dropLast_subset p (List.getElem_mem hlen)
  exact h ((of_decide_eq_true heq) ▸ hmem)

/-- `os.path.isabs`. -/
def isAbsolute (p : PathText) : Bool := p.slashes ≠ 0

/-- `os.path.join`. -/
def join (p q : PathText) : PathText :=
  if q.isAbsolute then q else if p.getLast? = some "" then p.dropLast ++ q else p ++ q

/-- `os.path.dirname` of a text that does not end in a slash. -/
def dirname (p : PathText) : PathText := p.dropLast.rdropWhile (· = "")

/-- One piece after the normalised ones before it: `..` takes the last of them away, where that is a
name, and is dropped at the root. -/
def normStep (absolute : Bool) (done : List String) (n : String) : List String :=
  if n = "" ∨ n = "." then done
  else if n = ".." ∧ (absolute = true ∨ done ≠ []) ∧ done.getLast? ≠ some ".." then done.dropLast
  else done ++ [n]

/-- The pieces of a normalised text. -/
def normParts (p : PathText) : List String := p.foldl (normStep p.isAbsolute) []

/-- `os.path.normpath`, where exactly two leading slashes stay two. -/
def normpath (p : PathText) : PathText :=
  if p.slashes = 0 then if p.normParts = [] then ["."] else p.normParts
  else (if p.slashes = 2 then ["", ""] else [""]) ++ if p.normParts = [] then [""] else p.normParts

theorem normpath_ne_nil (p : PathText) : p.normpath ≠ [] := by
  unfold normpath
  split
  · split <;> simp_all
  · split <;> simp

/-- An absolute text as a path, normalised by its text alone. A second leading slash is kept, as an empty
first name. -/
def place (p : PathText) : PosixPath := (if p.slashes = 2 then [""] else []) ++ p.normParts

/-- The parts of a text that `pathlib` keeps. -/
def parts (p : PathText) : List String := p.filter fun s => s ≠ "" && s ≠ "."

theorem parts_eq_self {p : PathText} (h : ∀ n ∈ p, n ≠ "" ∧ n ≠ ".") : p.parts = p :=
  List.filter_eq_self.mpr fun n hn => by simp [h n hn]

example : normpath ["a", "", "..", "..", "b", ".", "c"] = ["..", "b", "c"] := by decide

example : join ["", "srv", "loop"] ["", "etc"] = ["", "etc"] := by decide

end PathText

namespace PosixPath

/-- A name that stands for itself in a path. -/
def isPlain (n : String) : Bool := n ≠ "" && n ≠ "." && n ≠ ".." && !n.toList.contains '/'

/-- A piece of a path that goes down to a name. -/
def IsName (n : String) : Prop := n ≠ "" ∧ n ≠ "." ∧ n ≠ ".."

instance (n : String) : Decidable (IsName n) := inferInstanceAs (Decidable (_ ∧ _))

theorem isName_of_plain {n : String} (h : isPlain n = true) : IsName n := by
  simp only [isPlain, Bool.and_eq_true, decide_eq_true_eq] at h
  exact ⟨h.1.1.1, h.1.1.2, h.1.2⟩

/-- `str(path)`. -/
def text (p : PosixPath) : String := "/" ++ "/".intercalate p

/-- The last name of a path; empty for the root. -/
def name (p : PosixPath) : String := p.getLast?.getD ""

/-- Everything up to the last name. -/
def parent (p : PosixPath) : PosixPath := p.dropLast

/-- `p` with its last name replaced. -/
def withName (p : PosixPath) (n : String) : PosixPath := p.dropLast ++ [n]

/-- A name as its part up to the last dot and the part after it, where both are there. -/
def splitSuffix (cs : List Char) : Option (List Char × List Char) :=
  match cs.reverse.span (· ≠ '.') with
  | (ext, '.' :: stem) => if ext ≠ [] ∧ stem ≠ [] then some (stem.reverse, ext.reverse) else none
  | _ => none

/-- `p.suffixes` of a name. -/
def suffixes (n : String) : List String :=
  if n.toList.getLast? = some '.' then []
  else (((n.toList.dropWhile (· = '.')).splitOn '.').drop 1).map fun cs => String.ofList ('.' :: cs)

/-- `p.with_suffix(suffix)` on a name. -/
def withSuffix (n suffix : String) : String :=
  match splitSuffix n.toList with
  | some (stem, _) => String.ofList (stem ++ suffix.toList)
  | none => String.ofList (n.toList ++ suffix.toList)

example : suffixes "1f-2.tar.gz" = [".tar", ".gz"] := by decide

example : withSuffix (withSuffix "1f-2.tar.gz" "") ".json" = "1f-2.json" := by decide

/-! ### Suffixes of a name -/

/-- A name that ends in a suffix, and what `with_suffix` puts in its place. -/
theorem withSuffix_append {stem ext : List Char} (hstem : stem ≠ []) (hext : ext ≠ []) (hdot : '.' ∉ ext)
    (suffix : String) :
    withSuffix (String.ofList (stem ++ '.' :: ext)) suffix = String.ofList (stem ++ suffix.toList) := by
  have hall : ∀ c ∈ ext.reverse, decide (c ≠ '.') = true := by
    intro c hc
    refine decide_eq_true fun h => hdot ?_
    exact h ▸ List.mem_reverse.mp hc
  have hspan : (stem ++ '.' :: ext).reverse.span (· ≠ '.') = (ext.reverse, '.' :: stem.reverse) := by
    rw [List.span_eq_takeWhile_dropWhile, List.reverse_append, List.reverse_cons, List.append_assoc,
      List.takeWhile_append_of_pos hall, List.dropWhile_append_of_pos hall]
    simp
  rw [withSuffix, splitSuffix, String.toList_ofList, hspan]
  simp [hstem, hext]

/-- The suffixes of a name that begins without dots. -/
theorem suffixes_append {stem ext : List Char} (hstem : stem ≠ []) (hdot : '.' ∉ stem) (hext : ext ≠ [])
    (hend : ext.getLast? ≠ some '.') :
    suffixes (String.ofList (stem ++ '.' :: ext)) =
      (ext.splitOn '.').map fun cs => String.ofList ('.' :: cs) := by
  obtain ⟨c, cs, rfl⟩ := List.exists_cons_of_ne_nil hstem
  have hc : c ≠ '.' := fun h => hdot (by simp [h])
  have hlast : (c :: cs ++ '.' :: ext).getLast? ≠ some '.' := by
    rw [List.getLast?_append, List.getLast?_cons_of_ne_nil hext, List.getLast?_eq_some_getLast hext] at *
    simpa using hend
  have hstart : (c :: cs ++ '.' :: ext).dropWhile (· = '.') = c :: cs ++ '.' :: ext := by simp [hc]
  rw [suffixes, String.toList_ofList, if_neg hlast, hstart, List.splitOn_append_cons_self_of_not_mem hdot]
  rfl

/-! ### Paths inside a directory -/

theorem prefix_of_prefix_concat {p q : PosixPath} {n : String} (h : p <+: q ++ [n])
    (hne : p ≠ q ++ [n]) : p <+: q :=
  (List.prefix_concat_iff.mp h).resolve_left hne

theorem prefix_concat_self (p : PosixPath) (n : String) : p <+: p ++ [n] := List.prefix_append p [n]

theorem ne_concat_self (p : PosixPath) (n : String) : p ≠ p ++ [n] := by
  intro h
  simpa using congrArg List.length h

theorem not_concat_prefix (p : PosixPath) (n : String) : ¬ p ++ [n] <+: p := by
  intro h
  have hlen := h.length_le
  rw [List.length_append, List.length_singleton] at hlen
  omega

/-- What is above or below a path in a directory is above or below that directory. -/
theorem comparable_of_below {w p q : PosixPath} (hp : w <+: p) (hq : q <+: p ∨ p <+: q) : w <+: q ∨ q <+: w :=
  hq.elim (List.prefix_or_prefix_of_prefix hp) fun hq => .inl (hp.trans hq)

/-- The last name of a path is one of its names. -/
theorem name_mem {p : PosixPath} (h : p ≠ []) : name p ∈ p := by
  rw [name, List.getLast?_eq_some_getLast h]
  exact List.getLast_mem h

/-- Every path is the root or a name in a directory. -/
theorem eq_nil_or_concat (p : PosixPath) : p = [] ∨ ∃ d n, p = d ++ [n] := by
  rcases List.eq_nil_or_concat p with h | ⟨d, n, h⟩
  · exact .inl h
  · exact .inr ⟨d, n, by simpa using h⟩

end PosixPath
