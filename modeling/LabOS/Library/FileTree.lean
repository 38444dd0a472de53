import LabOS.Library.Paths
import LabOS.Library.Table
import Mathlib.Data.List.Induction

/-!
# File trees with symbolic links

A tree gives each absolute path at most one entry: a directory, a regular file
with its bytes, or a symbolic link with its target. `IsTree` says that an entry
stands in a directory and has a plain name.

There are two ways a path is followed. `walk` is the kernel's: every name on
the way must be a directory, links are followed up to a limit, and the last name
may be missing; the path it gives is the place the call acts on, and `locate` is that place
where there is one. `realpath` is `os.path.realpath`: missing names are kept as written, and where a
path runs into a loop of links what is left of it is normalised by its text alone, with no link on it
looked up; `realpathStrict` raises there, and at a name looked up under a file.

## What is proved

* `locate_eq_of_noLink` and `realpath_of_noLink` — a path on which no link stands
  is followed to itself.
* `resolved_of_realpath` — a resolved path has no link on it.
* `locate_parent` — the place a call acts on is in a directory.
-/

/-- What stands at a path. -/
inductive Entry (β : Type) where
  | dir
  | file (bytes : β)
  | symlink (target : PathText)
  deriving DecidableEq, Repr

namespace Entry

variable {β : Type} {e : Entry β}

/-- The bytes of a regular file. -/
def bytes? : Entry β → Option β
  | .file bytes => some bytes
  | _ => none

/-- Where a link leads. -/
def target? : Entry β → Option PathText
  | .symlink target => some target
  | _ => none

theorem bytes?_eq_some {bytes : β} : e.bytes? = some bytes ↔ e = .file bytes := by
  cases e <;> simp [bytes?]

theorem target?_eq_none : e.target? = none ↔ ∀ target, e ≠ .symlink target := by
  cases e <;> simp [target?]

end Entry

/-- A file system: every entry but the root, under its path. -/
abbrev FileTree (β : Type) := Table (Prod.fst : PosixPath × Entry β → PosixPath)

instance {β : Type} (o : Option (Entry β)) : Decidable (o = some .dir) :=
  match o with
  | some .dir => isTrue rfl
  | some (.file _) => isFalse (by simp)
  | some (.symlink _) => isFalse (by simp)
  | none => isFalse (by simp)

namespace FileTree

variable {β : Type}

/-- The entry at a path. The root is a directory. -/
def lookup (t : FileTree β) (p : PosixPath) : Option (Entry β) :=
  if p = [] then some .dir else (t.get? p).map Prod.snd

/-- Put an entry at a path. -/
def set (t : FileTree β) (p : PosixPath) (e : Entry β) : FileTree β := t.put (p, e)

/-- Remove what stands at `p` and below, but for the paths `kept`. -/
def prune (t : FileTree β) (p : PosixPath) (kept : PosixPath → Bool) : FileTree β :=
  t.restrict fun x => !p.isPrefixOf x.1 || kept x.1

/-- The names in a directory. -/
def children (t : FileTree β) (p : PosixPath) : List String :=
  (t.rows.filter fun x => x.1 ≠ [] && x.1.dropLast = p).map fun x => PosixPath.name x.1

@[simp] theorem lookup_nil (t : FileTree β) : t.lookup [] = some .dir := rfl

theorem lookup_set {t : FileTree β} {p q : PosixPath} {e : Entry β} (hp : p ≠ []) :
    (t.set p e).lookup q = if q = p then some e else t.lookup q := by
  unfold lookup set
  by_cases h : q = []
  · have : ¬ [] = p := fun e => hp e.symm
    simp [h, this]
  · simp only [if_neg h, Table.get?_put]
    split <;> rfl

theorem lookup_set_self {t : FileTree β} {p : PosixPath} {e : Entry β} (hp : p ≠ []) :
    (t.set p e).lookup p = some e := by
  simp [lookup_set hp]

theorem lookup_set_ne {t : FileTree β} {p q : PosixPath} {e : Entry β} (h : q ≠ p) :
    (t.set p e).lookup q = t.lookup q := by
  unfold lookup set
  rw [Table.get?_put_ne h]

theorem lookup_prune {t : FileTree β} {p q : PosixPath} {kept : PosixPath → Bool} (hq : q ≠ []) :
    (t.prune p kept).lookup q = if p <+: q ∧ kept q = false then none else t.lookup q := by
  unfold lookup prune
  simp only [if_neg hq, Table.get?_restrict]
  cases h : t.get? q with
  | none => simp
  | some r =>
    have hr : r.1 = q := Table.key_of_get? h
    by_cases hp : p <+: q
    · cases hk : kept q <;> simp [Option.filter, hr, hp, hk]
    · simp [Option.filter, hr, hp]

theorem lookup_prune_of_not_below {t : FileTree β} {p q : PosixPath} {kept : PosixPath → Bool}
    (h : ¬ p <+: q) : (t.prune p kept).lookup q = t.lookup q := by
  by_cases hq : q = []
  · rw [hq, lookup_nil, lookup_nil]
  · rw [lookup_prune hq, if_neg fun h' => h h'.1]

/-- Keeping only some paths. -/
theorem lookup_restrict {t : FileTree β} {kept : PosixPath → Bool} {p : PosixPath} (hp : p ≠ []) :
    lookup (t.restrict fun x => kept x.1) p = if kept p then t.lookup p else none := by
  unfold lookup
  simp only [if_neg hp, Table.get?_restrict]
  cases h : t.get? p with
  | none => simp
  | some r =>
    have hr : r.1 = p := Table.key_of_get? h
    cases hk : kept p <;> simp [Option.filter, hr, hk]

/-- Putting entries one after another. -/
theorem lookup_foldl_set {xs : List (PosixPath × Entry β)} {t : FileTree β} {p : PosixPath} {e : Entry β}
    (hxs : ∀ x ∈ xs, x.1 ≠ []) (h : (xs.foldl (fun t x => t.set x.1 x.2) t).lookup p = some e) :
    (p, e) ∈ xs ∨ (∀ x ∈ xs, x.1 ≠ p) ∧ t.lookup p = some e := by
  induction xs generalizing t with
  | nil => exact .inr ⟨fun _ hx => (by cases hx), h⟩
  | cons x xs ih =>
    rcases ih (fun y hy => hxs y (List.mem_cons_of_mem _ hy)) h with hmem | ⟨hout, hl⟩
    · exact .inl (List.mem_cons_of_mem _ hmem)
    · rw [lookup_set (hxs x List.mem_cons_self)] at hl
      split at hl
      · next hp =>
        obtain rfl := Option.some.inj hl
        exact .inl (hp ▸ List.mem_cons_self)
      · next hp =>
        refine .inr ⟨fun y hy => ?_, hl⟩
        rcases List.mem_cons.mp hy with rfl | hy
        · exact fun h => hp h.symm
        · exact hout y hy

theorem lookup_foldl_set_of_notMem {xs : List (PosixPath × Entry β)} {t : FileTree β} {p : PosixPath}
    (hout : ∀ x ∈ xs, x.1 ≠ p) : (xs.foldl (fun t x => t.set x.1 x.2) t).lookup p = t.lookup p := by
  induction xs generalizing t with
  | nil => rfl
  | cons x xs ih =>
    rw [List.foldl_cons, ih fun y hy => hout y (List.mem_cons_of_mem _ hy)]
    exact lookup_set_ne (hout x List.mem_cons_self).symm

theorem mem_rows_of_lookup {t : FileTree β} {p : PosixPath} {e : Entry β} (hp : p ≠ [])
    (h : t.lookup p = some e) : (p, e) ∈ t.rows := by
  unfold lookup at h
  rw [if_neg hp, Option.map_eq_some_iff] at h
  obtain ⟨⟨q, e'⟩, hq, rfl⟩ := h
  have : q = p := Table.key_of_get? hq
  exact this ▸ Table.mem_of_get? hq

theorem lookup_of_mem_rows {t : FileTree β} {p : PosixPath} {e : Entry β} (hp : p ≠ [])
    (h : (p, e) ∈ t.rows) :
    t.lookup p = some e := by
  unfold lookup
  rw [if_neg hp, show t.get? p = some (p, e) from Table.get?_of_mem h]
  rfl

theorem mem_children {t : FileTree β} {p : PosixPath} {n : String} :
    n ∈ t.children p ↔ ∃ e, t.lookup (p ++ [n]) = some e := by
  constructor
  · intro h
    simp only [children, List.mem_map, List.mem_filter, Bool.and_eq_true, decide_eq_true_eq, Prod.exists] at h
    obtain ⟨q, e, ⟨hm, hne, rfl⟩, rfl⟩ := h
    rcases PosixPath.eq_nil_or_concat q with rfl | ⟨d, n, rfl⟩
    · exact absurd rfl hne
    · exact ⟨e, by simpa [PosixPath.name] using lookup_of_mem_rows hne hm⟩
  · rintro ⟨e, h⟩
    have hm := mem_rows_of_lookup (by simp) h
    simp only [children, List.mem_map, List.mem_filter, Prod.exists]
    exact ⟨p ++ [n], e, ⟨hm, by simp⟩, by simp [PosixPath.name]⟩

/-! ### Trees -/

/-- Every entry has a plain name and stands in a directory. -/
def IsTree (t : FileTree β) : Prop :=
  ∀ p n e, t.lookup (p ++ [n]) = some e → t.lookup p = some .dir ∧ PosixPath.isPlain n = true

/-- Is the table of entries a tree? -/
def checkTree (t : FileTree β) : Bool :=
  t.rows.all fun x => x.1 = [] ||
    (t.lookup x.1.dropLast = some .dir && PosixPath.isPlain (PosixPath.name x.1))

theorem isTree_of_checkTree {t : FileTree β} (h : t.checkTree = true) : IsTree t := by
  intro p n e hl
  have hm := mem_rows_of_lookup (by simp) hl
  have := List.all_eq_true.mp h _ hm
  simpa [PosixPath.name] using this

/-- Every entry stands in a directory, whatever its name. -/
def Rooted (t : FileTree β) : Prop := ∀ p n e, t.lookup (p ++ [n]) = some e → t.lookup p = some .dir

theorem IsTree.rooted {t : FileTree β} (ht : IsTree t) : Rooted t := fun p n e h => (ht p n e h).1

/-- What is above an entry is a directory. -/
theorem Rooted.dir_of_prefix {t : FileTree β} (ht : Rooted t) {p q : PosixPath} {e : Entry β}
    (h : t.lookup q = some e) (hp : p <+: q) (hne : p ≠ q) : t.lookup p = some .dir := by
  obtain ⟨s, rfl⟩ := hp
  induction s using List.reverseRecOn generalizing e with
  | nil => simp at hne
  | append_singleton s n ih =>
    rw [← List.append_assoc] at h
    have hd := ht _ _ _ h
    by_cases hs : s = []
    · simpa [hs] using hd
    · exact ih hd (by simpa using hs)

theorem IsTree.dir_of_prefix {t : FileTree β} (ht : IsTree t) {p q : PosixPath} {e : Entry β}
    (h : t.lookup q = some e) (hp : p <+: q) (hne : p ≠ q) : t.lookup p = some .dir :=
  ht.rooted.dir_of_prefix h hp hne

/-- What is below a directory is at or below one of its names. -/
theorem IsTree.exists_child {t : FileTree β} (ht : IsTree t) {p q : PosixPath} {e : Entry β}
    (h : t.lookup q = some e) (hp : p <+: q) (hne : q ≠ p) : ∃ n ∈ t.children p, p ++ [n] <+: q := by
  obtain ⟨r, rfl⟩ := hp
  obtain ⟨n, r, rfl⟩ := List.exists_cons_of_ne_nil (fun hr => hne (by simp [hr]) : r ≠ [])
  refine ⟨n, mem_children.mpr ?_, ⟨r, by simp⟩⟩
  by_cases hr : r = []
  · exact ⟨e, by simpa [hr] using h⟩
  · exact ⟨.dir, ht.dir_of_prefix h ⟨r, by simp⟩ (by simpa using hr)⟩

theorem IsTree.plain_of_lookup {t : FileTree β} (ht : IsTree t) {p : PosixPath} {e : Entry β}
    (h : t.lookup p = some e) :
    ∀ n ∈ p, PosixPath.isPlain n = true := by
  intro n hn
  obtain ⟨l, r, rfl⟩ := List.append_of_mem hn
  have hd : ∃ e', t.lookup (l ++ [n]) = some e' := by
    by_cases hr : r = []
    · exact ⟨e, by simpa [hr] using h⟩
    · exact ⟨.dir, ht.dir_of_prefix h ⟨r, by simp⟩ (by simp [hr])⟩
  obtain ⟨e', he'⟩ := hd
  exact (ht l n e' he').2

/-- Nothing stands below what is not a directory. -/
theorem Rooted.eq_of_prefix {t : FileTree β} (ht : Rooted t) {p q : PosixPath} {e : Entry β}
    (h : t.lookup q = some e) (hp : p <+: q) (hd : t.lookup p ≠ some .dir) : p = q := by
  by_contra hne
  exact hd (ht.dir_of_prefix h hp hne)

theorem IsTree.eq_of_prefix {t : FileTree β} (ht : IsTree t) {p q : PosixPath} {e : Entry β}
    (h : t.lookup q = some e) (hp : p <+: q) (hd : t.lookup p ≠ some .dir) : p = q :=
  ht.rooted.eq_of_prefix h hp hd

/-- An entry put in a directory, where no other directory is lost. -/
theorem Rooted.set {t : FileTree β} (ht : Rooted t) {p : PosixPath} {e : Entry β} (hp : p ≠ [])
    (hd : t.lookup p.dropLast = some .dir) (hold : t.lookup p ≠ some .dir) : Rooted (t.set p e) := by
  intro q m e' h
  by_cases hq : q = p
  · subst hq
    rw [lookup_set_ne (fun h' => PosixPath.ne_concat_self q m h'.symm)] at h
    exact absurd (ht _ _ _ h) hold
  · rw [lookup_set_ne hq]
    by_cases hqm : q ++ [m] = p
    · rw [← hqm, List.dropLast_concat] at hd
      exact hd
    · rw [lookup_set_ne hqm] at h
      exact ht _ _ _ h

theorem IsTree.set {t : FileTree β} (ht : IsTree t) {d : PosixPath} {n : String} {e : Entry β}
    (hn : PosixPath.isPlain n = true) (hd : t.lookup d = some .dir) (hold : t.lookup (d ++ [n]) ≠ some .dir) :
    IsTree (t.set (d ++ [n]) e) := by
  intro p m e' h
  by_cases hp : p = d ++ [n]
  · subst hp
    rw [lookup_set_ne (fun h' => by simpa using congrArg List.length h')] at h
    exact absurd (ht _ _ _ h).1 hold
  · rw [lookup_set_ne hp]
    by_cases hq : p ++ [m] = d ++ [n]
    · obtain ⟨rfl, hm⟩ := List.append_inj' hq rfl
      exact ⟨hd, by simp at hm; exact hm ▸ hn⟩
    · rw [lookup_set_ne hq] at h
      exact ht _ _ _ h

/-- Removing a part of a tree leaves a tree when what is kept is closed under going up. -/
theorem IsTree.prune {t : FileTree β} (ht : IsTree t) {p : PosixPath} {kept : PosixPath → Bool}
    (hk : ∀ q n, p <+: q → kept (q ++ [n]) = true → (t.lookup (q ++ [n])).isSome → kept q = true) :
    IsTree (t.prune p kept) := by
  intro q n e h
  rw [lookup_prune (by simp)] at h
  split at h
  · cases h
  · next hout =>
    have hq := ht _ _ _ h
    refine ⟨?_, hq.2⟩
    by_cases hq0 : q = []
    · rw [hq0]; rfl
    · rw [lookup_prune hq0, if_neg, hq.1]
      rintro ⟨hpq, hkq⟩
      have hkept : kept (q ++ [n]) = true := by
        by_contra hc
        exact hout ⟨hpq.trans (PosixPath.prefix_concat_self q n), by simpa using hc⟩
      have := hk q n hpq hkept (by rw [h]; rfl)
      rw [this] at hkq
      cases hkq

/-! ### Following a path -/

/-- Why the kernel cannot follow a path: `ENOENT`, `ENOTDIR`, `ELOOP`. -/
inductive PathError where
  | missing
  | notDirectory
  | loop
  deriving DecidableEq, Repr

/-- Follow `rest` from the directory `cur`, with `onLink` for what is left when a
symbolic link has been read. -/
def walkWith (onLink : PosixPath → List String → Except PathError PosixPath) (t : FileTree β) (follow : Bool) :
    PosixPath → List String → Except PathError PosixPath
  | cur, [] => .ok cur
  | cur, n :: rest =>
    match t.lookup cur with
    | some .dir =>
      if n = "" ∨ n = "." then walkWith onLink t follow cur rest
      else if n = ".." then walkWith onLink t follow cur.dropLast rest
      else match t.lookup (cur ++ [n]) with
        | some (.symlink tgt) =>
          if rest = [] ∧ follow = false then .ok (cur ++ [n])
          else onLink (if tgt.isAbsolute then [] else cur) (tgt ++ rest)
        | some _ => walkWith onLink t follow (cur ++ [n]) rest
        | none => if rest = [] then .ok (cur ++ [n]) else .error .missing
    | _ => .error .notDirectory

/-- Follow a path through at most `limit` symbolic links. -/
def walkFrom (t : FileTree β) (follow : Bool) : ℕ → PosixPath → List String → Except PathError PosixPath
  | 0 => walkWith (fun _ _ => .error .loop) t follow
  | limit + 1 => walkWith (walkFrom t follow limit) t follow

/-- Follow a path from the root. The last name is followed when `follow` says so, and may be missing. -/
def walk (t : FileTree β) (follow : Bool) (p : PosixPath) : Except PathError PosixPath :=
  walkFrom t follow 40 [] p

/-- The place a system call on `p` acts on; nothing where the call raises `OSError`
for the path alone. -/
def locate (t : FileTree β) (follow : Bool) (p : PosixPath) : Option PosixPath := (t.walk follow p).toOption

/-- Resolve `rest` from the resolved path `cur`, with `onLink` for what a link leads to. At a loop this is the
text of what is resolved by then and what is left. In `strict` mode a name under a file is not looked up. -/
def resolveWith (onLink : PosixPath → PathText → Except PathText PosixPath) (strict : Bool) (t : FileTree β) :
    PosixPath → List String → Except PathText PosixPath
  | cur, [] => .ok cur
  | cur, n :: rest =>
    if n = "" ∨ n = "." then resolveWith onLink strict t cur rest
    else if n = ".." then resolveWith onLink strict t cur.dropLast rest
    else if strict && ((t.lookup cur).bind Entry.bytes?).isSome then .error ("" :: cur ++ n :: rest)
    else match t.lookup (cur ++ [n]) with
      | some (.symlink tgt) =>
        match onLink (cur ++ [n]) tgt with
        | .ok p => resolveWith onLink strict t p rest
        | .error text => .error (text.join rest)
      | _ => resolveWith onLink strict t (cur ++ [n]) rest

/-- Resolve while the links `active` are being resolved; running into one of them again
is a loop, so no more links are active than the `depth` allows. -/
def resolveFrom (strict : Bool) (t : FileTree β) :
    ℕ → List PosixPath → PosixPath → List String → Except PathText PosixPath
  | 0, _ => resolveWith (fun p _ => .error ("" :: p)) strict t
  | depth + 1, active =>
    resolveWith (fun p tgt =>
      if p ∈ active then .error ("" :: p)
      else resolveFrom strict t depth (p :: active) (if tgt.isAbsolute then [] else p.dropLast) tgt) strict t

/-- `os.path.realpath`, and whether it met no loop. -/
def realpath (t : FileTree β) (p : PosixPath) : PosixPath × Bool :=
  match resolveFrom false t (t.rows.length + 1) [] [] p with
  | .ok q => (q, true)
  | .error text => (text.place, false)

/-- `os.path.realpath` with `strict=ALLOW_MISSING`; nothing where it raises `OSError`. -/
def realpathStrict (t : FileTree β) (p : PosixPath) : Option PosixPath :=
  (resolveFrom true t (t.rows.length + 1) [] [] p).toOption

/-- Does following `p` fail for too many links? -/
def loops (t : FileTree β) (p : PosixPath) : Bool := t.walk true p = .error .loop

/-- No symbolic link stands on the way to `p`, nor at `p`. -/
def NoLink (t : FileTree β) (p : PosixPath) : Prop := ∀ q, q <+: p → ∀ tgt, t.lookup q ≠ some (.symlink tgt)

theorem NoLink.mono {t : FileTree β} {p q : PosixPath} (h : NoLink t p) (hq : q <+: p) : NoLink t q :=
  fun _ hr => h _ (hr.trans hq)

theorem NoLink.concat {t : FileTree β} {p : PosixPath} {n : String} (h : NoLink t p)
    (hn : ∀ tgt, t.lookup (p ++ [n]) ≠ some (.symlink tgt)) : NoLink t (p ++ [n]) := by
  intro q hq tgt
  rcases List.prefix_concat_iff.mp hq with rfl | hq
  · exact hn tgt
  · exact h q hq tgt

/-- No link comes on the way to a path by what is none. -/
theorem NoLink.set {t : FileTree β} {p q : PosixPath} {e : Entry β} (h : NoLink t q)
    (he : ∀ tgt, e ≠ .symlink tgt) : NoLink (t.set p e) q := by
  intro r hr tgt
  by_cases hrp : r = p
  · by_cases hp : p = []
    · rw [hrp, hp, lookup_nil]
      simp
    · rw [hrp, lookup_set_self hp]
      exact fun htgt => he tgt (Option.some.inj htgt)
  · rw [lookup_set_ne hrp]
    exact h r hr tgt

theorem noLink_nil (t : FileTree β) : NoLink t [] := by
  intro q hq tgt
  rw [List.prefix_nil.mp hq, lookup_nil]
  simp

theorem IsTree.noLink_of_dir {t : FileTree β} (ht : IsTree t) {p : PosixPath} (h : t.lookup p = some .dir) :
    NoLink t p := by
  intro q hq tgt he
  by_cases hne : q = p
  · rw [hne, h] at he; cases he
  · rw [ht.dir_of_prefix h hq hne] at he; cases he

section Follow

variable {t : FileTree β}

/-- How a walk goes from the directory `cur` along `rest` to the place `q`, with at most `limit` links read. -/
inductive Walks (t : FileTree β) (follow : Bool) : ℕ → PosixPath → List String → PosixPath → Prop
  | done {limit cur} : Walks t follow limit cur [] cur
  | skip {limit cur n rest q} : t.lookup cur = some .dir → n = "" ∨ n = "." → Walks t follow limit cur rest q →
      Walks t follow limit cur (n :: rest) q
  | up {limit cur rest q} : t.lookup cur = some .dir → Walks t follow limit cur.dropLast rest q →
      Walks t follow limit cur (".." :: rest) q
  | stop {limit cur n tgt} : t.lookup cur = some .dir → PosixPath.IsName n → follow = false →
      t.lookup (cur ++ [n]) = some (.symlink tgt) → Walks t follow limit cur [n] (cur ++ [n])
  | link {limit cur n rest q tgt} : t.lookup cur = some .dir → PosixPath.IsName n →
      t.lookup (cur ++ [n]) = some (.symlink tgt) → ¬ (rest = [] ∧ follow = false) →
      Walks t follow limit (if tgt.isAbsolute then [] else cur) (tgt ++ rest) q →
      Walks t follow (limit + 1) cur (n :: rest) q
  | down {limit cur n rest q e} : t.lookup cur = some .dir → PosixPath.IsName n →
      t.lookup (cur ++ [n]) = some e → (∀ tgt, e ≠ .symlink tgt) → Walks t follow limit (cur ++ [n]) rest q →
      Walks t follow limit cur (n :: rest) q
  | new {limit cur n} : t.lookup cur = some .dir → PosixPath.IsName n → t.lookup (cur ++ [n]) = none →
      Walks t follow limit cur [n] (cur ++ [n])

/-- A piece that stays in its directory. -/
theorem Walks.of_skip {follow : Bool} {limit : ℕ} {cur rest q : PosixPath} {n : String}
    (hskip : n = "" ∨ n = ".") (h : Walks t follow limit cur (n :: rest) q) :
    Walks t follow limit cur rest q := by
  have hnot : ¬ PosixPath.IsName n := fun hn => hskip.elim hn.1 hn.2.1
  cases h with
  | skip _ _ h => exact h
  | up _ _ => exact absurd hskip (by decide)
  | stop _ hn => exact absurd hn hnot
  | link _ hn => exact absurd hn hnot
  | down _ hn => exact absurd hn hnot
  | new _ hn => exact absurd hn hnot

/-- A piece that goes up. -/
theorem Walks.of_up {follow : Bool} {limit : ℕ} {cur rest q : PosixPath}
    (h : Walks t follow limit cur (".." :: rest) q) : Walks t follow limit cur.dropLast rest q := by
  cases h with
  | skip _ hskip _ => exact absurd hskip (by decide)
  | up _ h => exact h
  | stop _ hn => exact absurd rfl hn.2.2
  | link _ hn => exact absurd rfl hn.2.2
  | down _ hn => exact absurd rfl hn.2.2
  | new _ hn => exact absurd rfl hn.2.2

/-- A name: a link at the end of a path that is not followed, a link that is, no link, or nothing. -/
theorem Walks.of_name {follow : Bool} {limit : ℕ} {cur rest q : PosixPath} {n : String}
    (hn : PosixPath.IsName n) (h : Walks t follow limit cur (n :: rest) q) :
    (∃ tgt, t.lookup (cur ++ [n]) = some (.symlink tgt) ∧ rest = [] ∧ follow = false ∧ q = cur ++ [n]) ∨
    (∃ tgt limit', t.lookup (cur ++ [n]) = some (.symlink tgt) ∧ ¬ (rest = [] ∧ follow = false) ∧
      limit = limit' + 1 ∧ Walks t follow limit' (if tgt.isAbsolute then [] else cur) (tgt ++ rest) q) ∨
    (∃ e, t.lookup (cur ++ [n]) = some e ∧ (∀ tgt, e ≠ .symlink tgt) ∧
      Walks t follow limit (cur ++ [n]) rest q) ∨
    (t.lookup (cur ++ [n]) = none ∧ rest = [] ∧ q = cur ++ [n]) := by
  cases h with
  | skip _ hskip _ => exact (hskip.elim hn.1 hn.2.1).elim
  | up _ _ => exact absurd rfl hn.2.2
  | stop _ _ hfollow hl => exact .inl ⟨_, hl, rfl, hfollow, rfl⟩
  | link _ _ hl hmore h => exact .inr (.inl ⟨_, _, hl, hmore, rfl, h⟩)
  | down _ _ hl he h => exact .inr (.inr (.inl ⟨_, hl, he, h⟩))
  | new _ _ hl => exact .inr (.inr (.inr ⟨hl, rfl, rfl⟩))

/-- One round of a walk, where what is followed after a link has been read is a walk. -/
private theorem walks_of_walkWith {onLink : PosixPath → List String → Except PathError PosixPath}
    {follow : Bool} {limit : ℕ} (hlink : ∀ cur rest q n tgt, t.lookup cur = some .dir → PosixPath.IsName n →
      t.lookup (cur ++ [n]) = some (.symlink tgt) → ¬ (rest = [] ∧ follow = false) →
      onLink (if tgt.isAbsolute then [] else cur) (tgt ++ rest) = .ok q →
      Walks t follow limit cur (n :: rest) q)
    {cur rest q : PosixPath} (h : walkWith onLink t follow cur rest = .ok q) :
    Walks t follow limit cur rest q := by
  induction rest generalizing cur with
  | nil =>
    obtain rfl := Except.ok.inj h
    exact .done
  | cons n rest ih =>
    simp only [walkWith] at h
    split at h
    · next hdir =>
      split at h
      · next hskip => exact .skip hdir hskip (ih h)
      · next hskip =>
        split at h
        · next hup => exact hup ▸ .up hdir (ih h)
        · next hup =>
          have hn : PosixPath.IsName n := ⟨fun h => hskip (.inl h), fun h => hskip (.inr h), hup⟩
          split at h
          · next tgt hl =>
            split at h
            · next hlast =>
              obtain rfl := Except.ok.inj h
              obtain ⟨rfl, hfollow⟩ := hlast
              exact .stop hdir hn hfollow hl
            · next hmore => exact hlink _ _ _ _ _ hdir hn hl hmore h
          · next e hne hl => exact .down hdir hn hl hne (ih h)
          · next hl =>
            split at h
            · next hnil =>
              subst hnil
              obtain rfl := Except.ok.inj h
              exact .new hdir hn hl
            · cases h
    · cases h

/-- **The kernel's walk** goes as `Walks` says. -/
theorem walkFrom_eq_ok {follow : Bool} {limit : ℕ} {cur rest q : PosixPath} :
    walkFrom t follow limit cur rest = .ok q ↔ Walks t follow limit cur rest q := by
  constructor
  · intro h
    induction limit generalizing cur rest q with
    | zero => exact walks_of_walkWith (fun _ _ _ _ _ _ _ _ _ h => by cases h) h
    | succ limit ih =>
      exact walks_of_walkWith (fun _ _ _ _ _ hdir hn hl hmore h => .link hdir hn hl hmore (ih h)) h
  · have hunfold : ∀ limit, ∃ onLink, walkFrom t follow limit = walkWith onLink t follow := by
      rintro (_ | limit)
      · exact ⟨_, rfl⟩
      · exact ⟨_, rfl⟩
    intro h
    induction h with
    | done =>
      obtain ⟨onLink, hwith⟩ := hunfold ‹_›
      rw [hwith]
      rfl
    | @skip limit cur n rest q hdir hskip _ ih =>
      obtain ⟨onLink, hwith⟩ := hunfold limit
      rw [hwith] at ih ⊢
      simpa only [walkWith, hdir, if_pos hskip] using ih
    | @up limit cur rest q hdir _ ih =>
      obtain ⟨onLink, hwith⟩ := hunfold limit
      rw [hwith] at ih ⊢
      simpa [walkWith, hdir] using ih
    | @stop limit cur n tgt hdir hn hfollow hl =>
      obtain ⟨onLink, hwith⟩ := hunfold limit
      rw [hwith]
      simp [walkWith, hdir, hl, hfollow, hn.1, hn.2.1, hn.2.2]
    | @link limit cur n rest q tgt hdir hn hl hmore _ ih =>
      show walkWith (walkFrom t follow limit) t follow cur (n :: rest) = .ok q
      simp only [walkWith, hdir, hl, hn.1, hn.2.1, hn.2.2, or_self, if_false, if_neg hmore]
      exact ih
    | @down limit cur n rest q e hdir hn hl he _ ih =>
      obtain ⟨onLink, hwith⟩ := hunfold limit
      rw [hwith] at ih ⊢
      simp only [walkWith, hdir, hl, hn.1, hn.2.1, hn.2.2, or_self, if_false]
      cases e with
      | symlink tgt => exact absurd rfl (he tgt)
      | dir => exact ih
      | file b => exact ih
    | @new limit cur n hdir hn hl =>
      obtain ⟨onLink, hwith⟩ := hunfold limit
      rw [hwith]
      simp [walkWith, hdir, hl, hn.1, hn.2.1, hn.2.2]

theorem locate_eq_some {follow : Bool} {p q : PosixPath} :
    t.locate follow p = some q ↔ Walks t follow 40 [] p q := by
  rw [← walkFrom_eq_ok, locate, walk]
  cases walkFrom t follow 40 [] p <;> simp [Except.toOption]

private theorem eq_of_walks {follow : Bool} {limit : ℕ} {cur rest q : PosixPath}
    (h : Walks t follow limit cur rest q) (hplain : ∀ n ∈ rest, PosixPath.IsName n)
    (hlink : ∀ r tgt, r <+: cur ++ rest → r ≠ cur ++ rest ∨ follow = true → t.lookup r ≠ some (.symlink tgt)) :
    q = cur ++ rest := by
  induction h with
  | done => simp
  | skip _ hskip _ _ =>
    have hn := hplain _ List.mem_cons_self
    exact absurd hskip (by simp [hn.1, hn.2.1])
  | up _ _ _ => exact absurd rfl (hplain _ List.mem_cons_self).2.2
  | stop _ _ _ _ => rfl
  | @link limit cur n rest q tgt _ _ hl hmore _ _ =>
    refine absurd hl (hlink _ tgt ⟨rest, by simp⟩ ?_)
    by_cases hr : rest = []
    · exact .inr (by simpa [hr] using hmore)
    · exact .inl (by simp [hr])
  | @down limit cur n rest q e _ _ _ _ _ ih =>
    have happ : cur ++ n :: rest = cur ++ [n] ++ rest := by simp
    rw [happ] at hlink ⊢
    exact ih (fun m hm => hplain m (List.mem_cons_of_mem _ hm)) hlink
  | new _ _ _ => rfl

/-- A path without links on the way, and without one at its end where that would be
followed, leads a system call to itself. -/
theorem locate_eq {follow : Bool} {p q : PosixPath} (hplain : ∀ n ∈ p, PosixPath.IsName n)
    (hlink : ∀ r tgt, r <+: p → r ≠ p ∨ follow = true → t.lookup r ≠ some (.symlink tgt))
    (h : t.locate follow p = some q) : q = p := by
  simpa using eq_of_walks (locate_eq_some.mp h) hplain (by simpa using hlink)

theorem locate_eq_of_noLink {follow : Bool} {p q : PosixPath} (hplain : ∀ n ∈ p, PosixPath.IsName n)
    (hlink : NoLink t p) (h : t.locate follow p = some q) : q = p :=
  locate_eq hplain (fun r tgt hr _ => hlink r hr tgt) h

theorem IsTree.isName_of_lookup (ht : IsTree t) {p : PosixPath} {e : Entry β} (h : t.lookup p = some e) :
    ∀ n ∈ p, PosixPath.IsName n :=
  fun n hn => PosixPath.isName_of_plain (ht.plain_of_lookup h n hn)

private theorem walks_self (ht : IsTree t) {follow : Bool} {limit : ℕ} (cur : PosixPath) {rest : PosixPath}
    {e : Entry β} (h : t.lookup (cur ++ rest) = some e) (he : ∀ tgt, e ≠ .symlink tgt) :
    Walks t follow limit cur rest (cur ++ rest) := by
  induction rest generalizing cur with
  | nil =>
    rw [List.append_nil]
    exact .done
  | cons n rest ih =>
    have happ : cur ++ n :: rest = cur ++ [n] ++ rest := by simp
    have hdir : t.lookup cur = some .dir := ht.dir_of_prefix h (List.prefix_append _ _) (by simp)
    have hn := ht.isName_of_lookup h n (by simp)
    rw [happ] at h ⊢
    by_cases hr : rest = []
    · subst hr
      rw [List.append_nil] at h ⊢
      exact .down hdir hn h he .done
    · have hnext := ht.dir_of_prefix h (List.prefix_append _ _) (by simpa using hr)
      exact .down hdir hn hnext (by simp) (ih _ h)

/-- What stands at a path and is no link is found there. -/
theorem IsTree.locate_self (ht : IsTree t) {follow : Bool} {p : PosixPath} {e : Entry β}
    (h : t.lookup p = some e) (he : ∀ tgt, e ≠ .symlink tgt) : t.locate follow p = some p :=
  locate_eq_some.mpr (walks_self ht [] h he)

theorem Rooted.dir_parent (ht : Rooted t) {p : PosixPath} {e : Entry β} (h : t.lookup p = some e) :
    t.lookup p.dropLast = some .dir := by
  rcases PosixPath.eq_nil_or_concat p with rfl | ⟨d, n, rfl⟩
  · rfl
  · rw [List.dropLast_concat]
    exact ht d n _ h

private theorem walks_parent (ht : Rooted t) {follow : Bool} {limit : ℕ} {cur rest q : PosixPath}
    (h : Walks t follow limit cur rest q) (hcur : t.lookup cur.dropLast = some .dir) :
    t.lookup q.dropLast = some .dir := by
  induction h with
  | done => exact hcur
  | skip _ _ _ ih => exact ih hcur
  | up _ _ ih => exact ih (ht.dir_parent hcur)
  | stop hdir _ _ _ => rwa [List.dropLast_concat]
  | link hdir _ _ _ _ ih =>
    apply ih
    split
    · rfl
    · exact ht.dir_parent hdir
  | down hdir _ _ _ _ ih => exact ih (by rwa [List.dropLast_concat])
  | new hdir _ _ => rwa [List.dropLast_concat]

/-- **The place a system call acts on is in a directory.** -/
theorem Rooted.locate_parent (ht : Rooted t) {follow : Bool} {p q : PosixPath}
    (h : t.locate follow p = some q) : t.lookup q.dropLast = some .dir :=
  walks_parent ht (locate_eq_some.mp h) rfl

theorem locate_parent (ht : IsTree t) {follow : Bool} {p q : PosixPath} (h : t.locate follow p = some q) :
    t.lookup q.dropLast = some .dir :=
  ht.rooted.locate_parent h

private theorem dir_of_walks {follow : Bool} {limit : ℕ} {cur p more q : PosixPath}
    (hplain : ∀ n ∈ p, PosixPath.IsName n) (hlink : NoLink t (cur ++ p)) (hmore : more ≠ [])
    (h : Walks t follow limit cur (p ++ more) q) : t.lookup (cur ++ p) = some .dir := by
  induction p generalizing cur with
  | nil =>
    obtain ⟨n, rest, rfl⟩ := List.exists_cons_of_ne_nil hmore
    rw [List.append_nil]
    cases h with
    | skip hdir _ _ | up hdir _ | stop hdir _ _ _ | link hdir _ _ _ _ | down hdir _ _ _ _ | new hdir _ _ =>
      exact hdir
  | cons n p ih =>
    have happ : cur ++ n :: p = cur ++ [n] ++ p := by simp
    rw [happ] at hlink ⊢
    have hnot : ∀ tgt, t.lookup (cur ++ [n]) ≠ some (.symlink tgt) := hlink _ (List.prefix_append _ _)
    rcases h.of_name (hplain n List.mem_cons_self) with ⟨tgt, hl, -⟩ | ⟨tgt, _, hl, -⟩ |
      ⟨_, -, -, h⟩ | ⟨-, hnil, -⟩
    · exact absurd hl (hnot tgt)
    · exact absurd hl (hnot tgt)
    · exact ih (fun m hm => hplain m (List.mem_cons_of_mem _ hm)) hlink h
    · exact absurd (List.append_eq_nil_iff.mp hnil).2 hmore

/-- What is on the way to something, with no link before it, is a directory. -/
theorem dir_of_locate {follow : Bool} {p more q : PosixPath} (hplain : ∀ n ∈ p, PosixPath.IsName n)
    (hlink : NoLink t p) (hmore : more ≠ []) (h : t.locate follow (p ++ more) = some q) :
    t.lookup p = some .dir := by
  have hdir : t.lookup ([] ++ p) = some .dir :=
    dir_of_walks hplain (by simpa using hlink) hmore (locate_eq_some.mp h)
  simpa using hdir

private theorem walks_mono {t' : FileTree β} {follow : Bool} {limit : ℕ} {cur rest q : PosixPath} {e : Entry β}
    (hsub : ∀ x e, t'.lookup x = some e → t.lookup x = some e) (h : Walks t' follow limit cur rest q)
    (he : t'.lookup q = some e) : Walks t follow limit cur rest q := by
  induction h with
  | done => exact .done
  | skip hdir hskip _ ih => exact .skip (hsub _ _ hdir) hskip (ih he)
  | up hdir _ ih => exact .up (hsub _ _ hdir) (ih he)
  | stop hdir hn hfollow hl => exact .stop (hsub _ _ hdir) hn hfollow (hsub _ _ hl)
  | link hdir hn hl hmore _ ih => exact .link (hsub _ _ hdir) hn (hsub _ _ hl) hmore (ih he)
  | down hdir hn hl hlink _ ih => exact .down (hsub _ _ hdir) hn (hsub _ _ hl) hlink (ih he)
  | new _ _ hl =>
    -- the path would end where nothing stands
    rw [hl] at he
    cases he

/-- A path that leads to an entry of a part of a tree leads there in the whole tree. -/
theorem locate_mono {t' : FileTree β} {follow : Bool} {p q : PosixPath} {e : Entry β}
    (hsub : ∀ x e, t'.lookup x = some e → t.lookup x = some e) (h : t'.locate follow p = some q)
    (he : t'.lookup q = some e) : t.locate follow p = some q :=
  locate_eq_some.mpr (walks_mono hsub (locate_eq_some.mp h) he)

private theorem plain_of_walks (ht : IsTree t) {follow : Bool} {limit : ℕ} {cur rest q : PosixPath} {n : String}
    {b : β} (h : Walks t follow limit cur (rest ++ [n]) q) (hq : t.lookup q = some (.file b)) :
    PosixPath.isPlain n = true := by
  -- a file does not stand in itself
  have hself : ∀ {limit : ℕ} {cur : PosixPath}, t.lookup cur = some .dir → ¬ Walks t follow limit cur [] q := by
    intro limit cur hdir h
    cases h
    rw [hq] at hdir
    cases hdir
  generalize hr : rest ++ [n] = r at h
  induction h generalizing rest with
  | done => simp at hr
  | @skip limit cur m r q hdir _ h ih =>
    cases rest with
    | nil =>
      obtain ⟨-, rfl⟩ := List.cons.inj hr
      exact absurd h (hself hdir)
    | cons _ rest => exact ih hq (fun h => hself h) (List.cons.inj hr).2
  | up hdir h ih =>
    cases rest with
    | nil =>
      obtain ⟨-, rfl⟩ := List.cons.inj hr
      exact absurd h (hself (ht.rooted.dir_parent hdir))
    | cons _ rest => exact ih hq (fun h => hself h) (List.cons.inj hr).2
  | stop _ _ _ hl =>
    rw [hl] at hq
    cases hq
  | @link limit cur m r q tgt _ _ hl _ _ ih =>
    cases rest with
    | nil =>
      obtain ⟨rfl, -⟩ := List.cons.inj hr
      exact (ht _ _ _ hl).2
    | cons _ rest =>
      obtain ⟨-, rfl⟩ := List.cons.inj hr
      exact ih hq (fun h => hself h) (List.append_assoc tgt rest [n])
  | down _ _ hl _ _ ih =>
    cases rest with
    | nil =>
      obtain ⟨rfl, -⟩ := List.cons.inj hr
      exact (ht _ _ _ hl).2
    | cons _ rest => exact ih hq (fun h => hself h) (List.cons.inj hr).2
  | new _ _ hl =>
    rw [hl] at hq
    cases hq

/-- The last name of a path that leads to a file is plain. -/
theorem plain_of_locate (ht : IsTree t) {follow : Bool} {p q : PosixPath} {n : String} {b : β}
    (h : t.locate follow (p ++ [n]) = some q) (hq : t.lookup q = some (.file b)) :
    PosixPath.isPlain n = true :=
  plain_of_walks ht (locate_eq_some.mp h) hq

/-- A path on which no link stands is not followed too often. -/
theorem loops_of_noLink {p : PosixPath} (hplain : ∀ n ∈ p, PosixPath.IsName n) (hlink : NoLink t p) :
    t.loops p = false := by
  have hwalk : ∀ cur rest, (∀ n ∈ rest, PosixPath.IsName n) → NoLink t (cur ++ rest) →
      walkFrom t true 40 cur rest ≠ .error .loop := by
    intro cur rest hplain hlink
    induction rest generalizing cur with
    | nil => exact fun h => by cases h
    | cons n rest ih =>
      have happ : cur ++ n :: rest = cur ++ [n] ++ rest := by simp
      have hn := hplain n List.mem_cons_self
      rw [happ] at hlink
      have hrest := ih (cur ++ [n]) (fun m hm => hplain m (List.mem_cons_of_mem _ hm)) hlink
      simp only [walkFrom, walkWith, hn.1, hn.2.1, hn.2.2, or_self, if_false] at hrest ⊢
      split
      · split
        · next tgt hl => exact absurd hl (hlink _ (List.prefix_append _ _) tgt)
        · exact hrest
        · split <;> simp
      · simp
  exact decide_eq_false (hwalk [] p hplain hlink)

/-- How a path is resolved from the resolved path `cur`, where there is no loop. -/
inductive Resolves (t : FileTree β) : PosixPath → List String → PosixPath → Prop
  | done {cur} : Resolves t cur [] cur
  | skip {cur n rest q} : n = "" ∨ n = "." → Resolves t cur rest q → Resolves t cur (n :: rest) q
  | up {cur rest q} : Resolves t cur.dropLast rest q → Resolves t cur (".." :: rest) q
  | link {cur n rest p q tgt} : PosixPath.IsName n → t.lookup (cur ++ [n]) = some (.symlink tgt) →
      Resolves t (if tgt.isAbsolute then [] else cur) tgt p → Resolves t p rest q → Resolves t cur (n :: rest) q
  | down {cur n rest q} : PosixPath.IsName n → (∀ tgt, t.lookup (cur ++ [n]) ≠ some (.symlink tgt)) →
      Resolves t (cur ++ [n]) rest q → Resolves t cur (n :: rest) q

private theorem resolves_of_resolveWith
    {onLink : PosixPath → PathText → Except PathText PosixPath} {strict : Bool}
    (hlink : ∀ cur n tgt p, onLink (cur ++ [n]) tgt = .ok p →
      Resolves t (if tgt.isAbsolute then [] else cur) tgt p)
    {cur rest q : PosixPath} (h : resolveWith onLink strict t cur rest = .ok q) : Resolves t cur rest q := by
  induction rest generalizing cur with
  | nil =>
    obtain rfl := Except.ok.inj h
    exact .done
  | cons n rest ih =>
    simp only [resolveWith] at h
    split at h
    · next hskip => exact .skip hskip (ih h)
    · next hskip =>
      split at h
      · next hup => exact hup ▸ .up (ih h)
      · next hup =>
        have hn : PosixPath.IsName n := ⟨fun h => hskip (.inl h), fun h => hskip (.inr h), hup⟩
        split at h
        · cases h
        · split at h
          · next tgt hl =>
            split at h
            · next p hp => exact .link hn hl (hlink _ _ _ _ hp) (ih h)
            · cases h
          · next hl => exact .down hn (fun tgt he => hl tgt he) (ih h)

private theorem resolves_of_resolveFrom {strict : Bool} {depth : ℕ} {active : List PosixPath}
    {cur rest q : PosixPath} (h : resolveFrom strict t depth active cur rest = .ok q) :
    Resolves t cur rest q := by
  induction depth generalizing active cur rest q with
  | zero => exact resolves_of_resolveWith (fun _ _ _ _ h => by cases h) h
  | succ depth ih =>
    refine resolves_of_resolveWith (fun cur n tgt p h => ?_) h
    split at h
    · cases h
    · rw [List.dropLast_concat] at h
      exact ih h

theorem resolves_of_realpath {p q : PosixPath} (h : t.realpath p = (q, true)) : Resolves t [] p q := by
  unfold realpath at h
  split at h
  · next hok =>
    obtain rfl := (Prod.mk.inj h).1
    exact resolves_of_resolveFrom hok
  · cases (Prod.mk.inj h).2

private theorem resolveWith_eq {onLink : PosixPath → PathText → Except PathText PosixPath} {strict : Bool}
    (cur : PosixPath) {rest : PosixPath} (hplain : ∀ n ∈ rest, PosixPath.IsName n)
    (hlink : NoLink t (cur ++ rest))
    (hfile : strict = true → ∀ q b, q <+: cur ++ rest → q ≠ cur ++ rest → t.lookup q ≠ some (.file b)) :
    resolveWith onLink strict t cur rest = .ok (cur ++ rest) := by
  induction rest generalizing cur with
  | nil => simp [resolveWith]
  | cons n rest ih =>
    have happ : cur ++ n :: rest = cur ++ [n] ++ rest := by simp
    have hn := hplain n List.mem_cons_self
    have hunder : (strict && ((t.lookup cur).bind Entry.bytes?).isSome) = false := by
      cases strict with
      | false => rfl
      | true =>
        rw [Bool.true_and, Option.isSome_eq_false_iff, Option.isNone_iff_eq_none, Option.bind_eq_none_iff]
        intro e he
        cases e with
        | file b => exact absurd he (hfile rfl cur b (List.prefix_append _ _) (by simp))
        | dir => rfl
        | symlink tgt => rfl
    rw [happ] at hlink hfile ⊢
    simp only [resolveWith, hn.1, hn.2.1, hn.2.2, or_self, if_false, hunder, Bool.false_eq_true]
    split
    · next tgt hl => exact absurd hl (hlink _ (List.prefix_append _ _) tgt)
    · exact ih _ (fun m hm => hplain m (List.mem_cons_of_mem _ hm)) hlink hfile

/-- **A path without links resolves to itself**, also where some of it is missing. -/
theorem realpath_of_noLink {p : PosixPath} (hplain : ∀ n ∈ p, PosixPath.IsName n) (hlink : NoLink t p) :
    t.realpath p = (p, true) := by
  have hfrom : resolveFrom false t (t.rows.length + 1) [] [] p = .ok p :=
    resolveWith_eq [] hplain hlink fun h => by cases h
  rw [realpath, hfrom]

/-- So it does strictly, where no file stands above it. -/
theorem realpathStrict_of_noLink {p : PosixPath} (hplain : ∀ n ∈ p, PosixPath.IsName n) (hlink : NoLink t p)
    (hfile : ∀ q b, q <+: p → q ≠ p → t.lookup q ≠ some (.file b)) : t.realpathStrict p = some p := by
  have hfrom : resolveFrom true t (t.rows.length + 1) [] [] p = .ok p :=
    resolveWith_eq [] hplain hlink fun _ => hfile
  rw [realpathStrict, hfrom]
  rfl

/-- A path as `resolve` gives it where there is no loop: no link is on it, and it does not go up. -/
structure Resolved (t : FileTree β) (p : PosixPath) : Prop where
  noLink : NoLink t p
  names : ∀ n ∈ p, PosixPath.IsName n

theorem resolved_nil (t : FileTree β) : Resolved t [] := ⟨noLink_nil t, by simp⟩

theorem Resolved.dropLast {p : PosixPath} (h : Resolved t p) : Resolved t p.dropLast :=
  ⟨h.noLink.mono (List.dropLast_prefix p), fun n hn => h.names n (List.dropLast_subset p hn)⟩

theorem Resolves.resolved {cur rest q : PosixPath} (h : Resolves t cur rest q) (hcur : Resolved t cur) :
    Resolved t q := by
  induction h with
  | done => exact hcur
  | skip _ _ ih => exact ih hcur
  | up _ ih => exact ih hcur.dropLast
  | link _ _ _ _ ihp ihq =>
    apply ihq
    apply ihp
    split
    · exact resolved_nil t
    · exact hcur
  | down hn hl _ ih =>
    refine ih ⟨hcur.noLink.concat hl, fun m hm => ?_⟩
    rcases List.mem_append.mp hm with hm | hm
    · exact hcur.names m hm
    · exact List.mem_singleton.mp hm ▸ hn

/-- **A resolved path has no link on it.** -/
theorem resolved_of_realpath {p q : PosixPath} (h : t.realpath p = (q, true)) : Resolved t q :=
  (resolves_of_realpath h).resolved (resolved_nil t)

/-- What a resolved path leads to stands there. -/
theorem Resolved.lookup_of_stat {p : PosixPath} {e : Entry β} (h : Resolved t p)
    (hs : (t.locate true p).bind t.lookup = some e) : t.lookup p = some e := by
  obtain ⟨q, hq, he⟩ := Option.bind_eq_some_iff.mp hs
  exact locate_eq_of_noLink h.names h.noLink hq ▸ he

end Follow

end FileTree
