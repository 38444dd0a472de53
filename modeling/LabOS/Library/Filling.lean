import LabOS.Library.RoundTrip

/-!
# Filling a directory

Where a member of an archive is written is told by the links on its path. An archive of files and
directories makes no link, so while it is extracted every path leads where the links that were there before
lead it; and an archive whose members are not below the names of its links is extracted where its names say.
In both cases what a member puts outside a directory is told from the tree before: where its path leads, and
where each path above it leads.

## What is proved

* `resolvesTo_of_walks` — in a tree that differs inside an empty directory alone, and not by links, a path
  leads where it led before.
* `TarFile.same_iff_staysIn` — **one member** leaves everything outside the directory as it was exactly when
  it stays in.
* `TarFile.Steady.rounds_iff` — **throughout an extraction** everything outside is as it was exactly when
  every member stays in; `TarFile.steady_of_linkless` and `TarFile.steady_of_unfollowed` are two kinds of archives.
-/

namespace FileTree

variable {β : Type} {t t' t₀ : FileTree β} {W : PosixPath}

/-! ### Where a path leads -/

/-- Where a path leads from `cur`: all links on it are followed, and names that are not there are kept. -/
inductive ResolvesTo (t : FileTree β) : PosixPath → List String → PosixPath → Prop
  | done {cur} : ResolvesTo t cur [] cur
  | skip {cur n rest q} : n = "" ∨ n = "." → ResolvesTo t cur rest q → ResolvesTo t cur (n :: rest) q
  | up {cur rest q} : ResolvesTo t cur.dropLast rest q → ResolvesTo t cur (".." :: rest) q
  | link {cur n rest q tgt} : PosixPath.IsName n → t.lookup (cur ++ [n]) = some (.symlink tgt) →
      ResolvesTo t (if tgt.isAbsolute then [] else cur) (tgt ++ rest) q → ResolvesTo t cur (n :: rest) q
  | down {cur n rest q} : PosixPath.IsName n → (∀ tgt, t.lookup (cur ++ [n]) ≠ some (.symlink tgt)) →
      ResolvesTo t (cur ++ [n]) rest q → ResolvesTo t cur (n :: rest) q

namespace ResolvesTo

variable {cur rest q q' : PosixPath} {n : String}

theorem of_skip (hskip : n = "" ∨ n = ".") (h : ResolvesTo t cur (n :: rest) q) : ResolvesTo t cur rest q := by
  have hnot : ¬ PosixPath.IsName n := fun hn => hskip.elim hn.1 hn.2.1
  cases h with
  | skip _ h => exact h
  | up _ => exact absurd hskip (by decide)
  | link hn => exact absurd hn hnot
  | down hn => exact absurd hn hnot

theorem of_up (h : ResolvesTo t cur (".." :: rest) q) : ResolvesTo t cur.dropLast rest q := by
  cases h with
  | skip hskip _ => exact absurd hskip (by decide)
  | up h => exact h
  | link hn => exact absurd rfl hn.2.2
  | down hn => exact absurd rfl hn.2.2

theorem of_name (hn : PosixPath.IsName n) (h : ResolvesTo t cur (n :: rest) q) :
    (∃ tgt, t.lookup (cur ++ [n]) = some (.symlink tgt) ∧
      ResolvesTo t (if tgt.isAbsolute then [] else cur) (tgt ++ rest) q) ∨
    (∀ tgt, t.lookup (cur ++ [n]) ≠ some (.symlink tgt)) ∧ ResolvesTo t (cur ++ [n]) rest q := by
  cases h with
  | skip hskip _ => exact (hskip.elim hn.1 hn.2.1).elim
  | up _ => exact absurd rfl hn.2.2
  | link _ hl h => exact .inl ⟨_, hl, h⟩
  | down _ hl h => exact .inr ⟨hl, h⟩

/-- A path leads to one place. -/
theorem unique (h : ResolvesTo t cur rest q) (h' : ResolvesTo t cur rest q') : q = q' := by
  induction h with
  | done =>
    cases h'
    rfl
  | skip hskip _ ih => exact ih (h'.of_skip hskip)
  | up _ ih => exact ih h'.of_up
  | link hn hl _ ih =>
    rcases h'.of_name hn with ⟨tgt, hl', h'⟩ | ⟨hnot, -⟩
    · obtain rfl := Entry.symlink.inj (Option.some.inj (hl.symm.trans hl'))
      exact ih h'
    · exact absurd hl (hnot _)
  | down hn hnot _ ih =>
    rcases h'.of_name hn with ⟨tgt, hl', -⟩ | ⟨-, h'⟩
    · exact absurd hl' (hnot tgt)
    · exact ih h'

/-- A path leads on from where its first part leads. -/
theorem append {a b : List String} : ResolvesTo t cur (a ++ b) q ↔ ∃ c, ResolvesTo t cur a c ∧
    ResolvesTo t c b q := by
  constructor
  · intro h
    generalize hl : a ++ b = l at h
    induction h generalizing a with
    | @done cur =>
      obtain ⟨rfl, rfl⟩ := List.append_eq_nil_iff.mp hl
      exact ⟨cur, .done, .done⟩
    | @skip cur n rest q hskip h ih =>
      cases a with
      | nil => exact ⟨cur, .done, (show b = n :: rest from hl) ▸ .skip hskip h⟩
      | cons m a =>
        obtain ⟨rfl, hrest⟩ := List.cons.inj hl
        obtain ⟨c, hc, hq⟩ := ih hrest
        exact ⟨c, .skip hskip hc, hq⟩
    | @up cur rest q h ih =>
      cases a with
      | nil => exact ⟨cur, .done, (show b = ".." :: rest from hl) ▸ .up h⟩
      | cons m a =>
        obtain ⟨rfl, hrest⟩ := List.cons.inj hl
        obtain ⟨c, hc, hq⟩ := ih hrest
        exact ⟨c, .up hc, hq⟩
    | @link cur n rest q tgt hn hlink h ih =>
      cases a with
      | nil => exact ⟨cur, .done, (show b = n :: rest from hl) ▸ .link hn hlink h⟩
      | cons m a =>
        obtain ⟨rfl, rfl⟩ := List.cons.inj hl
        obtain ⟨c, hc, hq⟩ := ih (List.append_assoc ..)
        exact ⟨c, .link hn hlink hc, hq⟩
    | @down cur n rest q hn hnot h ih =>
      cases a with
      | nil => exact ⟨cur, .done, (show b = n :: rest from hl) ▸ .down hn hnot h⟩
      | cons m a =>
        obtain ⟨rfl, hrest⟩ := List.cons.inj hl
        obtain ⟨c, hc, hq⟩ := ih hrest
        exact ⟨c, .down hn hnot hc, hq⟩
  · rintro ⟨c, hc, hq⟩
    induction hc with
    | done => exact hq
    | skip hskip _ ih => exact .skip hskip (ih hq)
    | up _ ih => exact .up (ih hq)
    | link hn hlink _ ih => exact .link hn hlink (List.append_assoc .. ▸ ih hq)
    | down hn hnot _ ih => exact .down hn hnot (ih hq)

/-- Empty pieces of a path lead nowhere else. -/
theorem filter {p : PosixPath} : ResolvesTo t cur (p.filter (· ≠ "")) q ↔ ResolvesTo t cur p q := by
  induction p generalizing cur with
  | nil => rfl
  | cons n p ih =>
    by_cases hn : n = ""
    · subst hn
      rw [List.filter_cons_of_neg (by simp), ih]
      exact ⟨.skip (.inl rfl), of_skip (.inl rfl)⟩
    · rw [List.filter_cons_of_pos (by simpa using hn), ← List.singleton_append, append,
        ← List.singleton_append (x := n) (l := p), append]
      simp only [ih]

end ResolvesTo

/-- A walk that ends at no link has followed the last name. -/
theorem walks_follow {limit : ℕ} {cur rest q : PosixPath} (hq : ∀ tgt, t.lookup q ≠ some (.symlink tgt))
    (h : Walks t false limit cur rest q) : Walks t true limit cur rest q := by
  induction h with
  | done => exact .done
  | skip hdir hskip _ ih => exact .skip hdir hskip (ih hq)
  | up hdir _ ih => exact .up hdir (ih hq)
  | stop _ _ _ hl => exact absurd hl (hq _)
  | link hdir hn hl _ _ ih => exact .link hdir hn hl (by simp) (ih hq)
  | down hdir hn hl he _ ih => exact .down hdir hn hl he (ih hq)
  | new hdir hn hl => exact .new hdir hn hl

theorem locate_follow {p q : PosixPath} (hq : ∀ tgt, t.lookup q ≠ some (.symlink tgt))
    (h : t.locate false p = some q) : t.locate true p = some q :=
  locate_eq_some.mpr (walks_follow hq (locate_eq_some.mp h))

/-- The first part of a path that is walked leads to a directory. -/
theorem walks_dir {follow : Bool} {limit : ℕ} {cur a b q : PosixPath} (h : Walks t follow limit cur (a ++ b) q)
    (hb : b ≠ []) : ∃ c, Walks t true limit cur a c ∧ t.lookup c = some .dir := by
  generalize hl : a ++ b = l at h
  induction h generalizing a with
  | done => exact absurd (List.append_eq_nil_iff.mp hl).2 hb
  | @skip _ cur _ _ _ hdir hskip _ ih =>
    cases a with
    | nil => exact ⟨cur, .done, hdir⟩
    | cons m a =>
      obtain ⟨rfl, hrest⟩ := List.cons.inj hl
      obtain ⟨c, hc, hcdir⟩ := ih hrest
      exact ⟨c, .skip hdir hskip hc, hcdir⟩
  | @up _ cur _ _ hdir _ ih =>
    cases a with
    | nil => exact ⟨cur, .done, hdir⟩
    | cons m a =>
      obtain ⟨rfl, hrest⟩ := List.cons.inj hl
      obtain ⟨c, hc, hcdir⟩ := ih hrest
      exact ⟨c, .up hdir hc, hcdir⟩
  | @link _ cur _ _ _ _ hdir hn hlink _ _ ih =>
    cases a with
    | nil => exact ⟨cur, .done, hdir⟩
    | cons m a =>
      obtain ⟨rfl, rfl⟩ := List.cons.inj hl
      obtain ⟨c, hc, hcdir⟩ := ih (List.append_assoc ..)
      exact ⟨c, .link hdir hn hlink (by simp) hc, hcdir⟩
  | @down _ cur _ _ _ _ hdir hn hlink he _ ih =>
    cases a with
    | nil => exact ⟨cur, .done, hdir⟩
    | cons m a =>
      obtain ⟨rfl, hrest⟩ := List.cons.inj hl
      obtain ⟨c, hc, hcdir⟩ := ih hrest
      exact ⟨c, .down hdir hn hlink he hc, hcdir⟩
  | @stop _ cur _ _ hdir _ _ _ | @new _ cur _ hdir _ _ =>
    cases a with
    | nil => exact ⟨cur, .done, hdir⟩
    | cons m a =>
      obtain ⟨-, hl⟩ := List.cons.inj hl
      exact absurd (List.append_eq_nil_iff.mp hl).2 hb

/-! ### A directory that is filled -/

/-- Nothing outside `W` differs. -/
def SameOutside (W : PosixPath) (t₀ t : FileTree β) : Prop := ∀ p, ¬ W <+: p → t.lookup p = t₀.lookup p

/-- `W` is a directory, and no link stands in it. -/
structure Unlinked (W : PosixPath) (t : FileTree β) : Prop where
  dir : t.lookup W = some .dir
  linkless : ∀ p, W <+: p → ∀ tgt, t.lookup p ≠ some (.symlink tgt)

theorem EmptyDir.unlinked (h : EmptyDir t W) : Unlinked W t := by
  refine ⟨h.dir, fun p hp tgt he => ?_⟩
  by_cases hne : p = W
  · rw [hne, h.dir] at he
    cases he
  · rw [h.empty p hp hne] at he
    cases he

/-- **A path that is walked leads where it led** before the directory was filled. -/
theorem resolvesTo_of_walks {limit : ℕ} {cur rest q : PosixPath} (hempty : EmptyDir t₀ W)
    (hlinks : Unlinked W t) (hsame : SameOutside W t₀ t) (h : Walks t true limit cur rest q) :
    ResolvesTo t₀ cur rest q := by
  have hnot : ∀ p, (∀ tgt, t.lookup p ≠ some (.symlink tgt)) → ∀ tgt, t₀.lookup p ≠ some (.symlink tgt) := by
    intro p hp
    by_cases hin : W <+: p
    · exact hempty.unlinked.linkless p hin
    · exact hsame p hin ▸ hp
  induction h with
  | done => exact .done
  | skip _ hskip _ ih => exact .skip hskip ih
  | up _ _ ih => exact .up ih
  | stop _ _ hfollow _ => cases hfollow
  | link _ hn hl _ _ ih =>
    refine .link hn ?_ ih
    rw [← hsame _ fun hin => hlinks.linkless _ hin _ hl]
    exact hl
  | down _ hn hl he _ ih => exact .down hn (hnot _ fun tgt h => he tgt (Option.some.inj (hl.symm.trans h))) ih
  | new _ hn hl => exact .down hn (hnot _ fun tgt h => by rw [hl] at h; cases h) .done

/-- The path `place`, and each above it, leads in `t` where it leads in `t₀`, its empty pieces left out or not. -/
def Reads (t₀ t : FileTree β) (place : PosixPath) : Prop :=
  ∀ limit a q, a.filter (· ≠ "") <+: place → Walks t true limit [] a q → ResolvesTo t₀ [] a q

theorem Reads.locate {place p q : PosixPath} (h : Reads t₀ t place) (hp : p.filter (· ≠ "") <+: place)
    (hq : t.locate true p = some q) : ResolvesTo t₀ [] p q :=
  h _ p q hp (locate_eq_some.mp hq)

theorem reads_of_unlinked {place : PosixPath} (hempty : EmptyDir t₀ W) (hlinks : Unlinked W t)
    (hsame : SameOutside W t₀ t) : Reads t₀ t place :=
  fun _ _ _ _ h => resolvesTo_of_walks hempty hlinks hsame h

private theorem resolvesTo_of_noLink_walks {limit : ℕ} {cur rest q place : PosixPath}
    (hplain : ∀ n ∈ place, PosixPath.isPlain n = true) (hlink₀ : NoLink t₀ place) (hlink : NoLink t place)
    (hpre : cur ++ rest.filter (· ≠ "") <+: place) (h : Walks t true limit cur rest q) :
    ResolvesTo t₀ cur rest q := by
  have hname : ∀ n ∈ rest, n ≠ "" → PosixPath.IsName n := fun n hn hne =>
    PosixPath.isName_of_plain (hplain n (hpre.subset (by simp [hn, hne])))
  induction h with
  | done => exact .done
  | @skip _ cur n rest _ _ hskip _ ih =>
    have hempty : n = "" := by
      by_contra hne
      rcases hskip with h | h
      · exact hne h
      · exact (hname n List.mem_cons_self hne).2.1 h
    refine .skip hskip (ih ?_ fun m hm => hname m (List.mem_cons_of_mem _ hm))
    rwa [List.filter_cons_of_neg (by simpa using hempty)] at hpre
  | up =>
    exact absurd rfl (hname ".." List.mem_cons_self (by decide)).2.2
  | stop _ _ hfollow _ => cases hfollow
  | @link _ cur n rest _ _ _ hn hl _ _ _ =>
    rw [List.filter_cons_of_pos (by simpa using hn.1)] at hpre
    exact absurd hl (hlink _ ((List.prefix_append_right_inj cur).mpr (by simp) |>.trans hpre) _)
  | @down _ cur n rest _ _ _ hn _ _ _ ih =>
    rw [List.filter_cons_of_pos (by simpa using hn.1), List.append_cons] at hpre
    refine .down hn (hlink₀ _ ((List.prefix_append _ _).trans hpre)) ?_
    exact ih hpre fun m hm => hname m (List.mem_cons_of_mem _ hm)
  | @new _ cur n _ hn _ =>
    rw [List.filter_cons_of_pos (by simpa using hn.1)] at hpre
    exact .down hn (hlink₀ _ hpre) .done

/-- Where no link stands on a path, neither before nor now, it leads to itself. -/
theorem reads_of_noLink {place : PosixPath} (hplain : ∀ n ∈ place, PosixPath.isPlain n = true)
    (hlink₀ : NoLink t₀ place) (hlink : NoLink t place) : Reads t₀ t place :=
  fun _ _ _ ha h => resolvesTo_of_noLink_walks hplain hlink₀ hlink (by simpa using ha) h

/-! ### Directories on the way -/

/-- Directories are made where nothing is, each at a path that is `above`. -/
inductive Made (above : PosixPath → Prop) (t : FileTree β) : FileTree β → Prop
  | refl : Made above t t
  | step {t₁ v q} : Made above t t₁ → above v → t₁.locate true v = some q → t₁.lookup q = none →
      Made above t (t₁.set q .dir)

namespace Made

variable {above above' : PosixPath → Prop}

theorem mono (h : Made above t t') (hle : ∀ v, above v → above' v) : Made above' t t' := by
  induction h with
  | refl => exact .refl
  | step _ hv hq hnone ih => exact .step ih (hle _ hv) hq hnone

theorem ne_nil {p : PosixPath} (h : t.lookup p = none) : p ≠ [] := by
  rintro rfl
  cases h

/-- What was there is there still, and what is new is a directory. -/
theorem lookup (h : Made above t t') (p : PosixPath) :
    t'.lookup p = t.lookup p ∨ t.lookup p = none ∧ t'.lookup p = some .dir := by
  induction h with
  | refl => exact .inl rfl
  | @step t₁ v q _ _ _ hnone ih =>
    by_cases hp : p = q
    · rw [hp, lookup_set_self (ne_nil hnone)]
      rcases ih with hsame | ⟨-, hdir⟩
      · exact .inr ⟨by rw [← hp, ← hsame, hp, hnone], rfl⟩
      · rw [hp, hnone] at hdir
        cases hdir
    · rw [lookup_set_ne hp]
      exact ih

theorem unlinked (h : Made above t t') (hlinks : Unlinked W t) : Unlinked W t' := by
  constructor
  · rcases h.lookup W with hsame | ⟨-, hdir⟩
    · rw [hsame, hlinks.dir]
    · exact hdir
  · intro p hp tgt
    rcases h.lookup p with hsame | ⟨-, hdir⟩
    · exact hsame ▸ hlinks.linkless p hp tgt
    · simp [hdir]

theorem noLink {p : PosixPath} (h : Made above t t') (hlink : NoLink t p) : NoLink t' p := by
  intro q hq tgt
  rcases h.lookup q with hsame | ⟨-, hdir⟩
  · exact hsame ▸ hlink q hq tgt
  · simp [hdir]

/-- None of them is made outside a directory where each path leads into that, or to a directory. -/
theorem sameOutside (h : Made above t t')
    (hreads : ∀ t', Made above t t' → SameOutside W t₀ t' → ∀ v q, above v → t'.locate true v = some q →
      ResolvesTo t₀ [] v q)
    (hsame : SameOutside W t₀ t)
    (habove : ∀ v, above v → ∀ r, ResolvesTo t₀ [] v r → W <+: r ∨ t₀.lookup r = some .dir) :
    SameOutside W t₀ t' := by
  induction h with
  | refl => exact hsame
  | @step t₁ v q hmade hv hq hnone ih =>
    intro p hp
    have hpq : p ≠ q := by
      rintro rfl
      rcases habove v hv p (hreads _ hmade ih v p hv hq) with hin | hdir
      · exact hp hin
      · rw [← ih p hp, hnone] at hdir
        cases hdir
    rw [lookup_set_ne hpq, ih p hp]

end Made

end FileTree

namespace TarFile

open Exceptional FileOps FileTree

variable {β : Type} {d d' : Disk β} {t₀ : FileTree β} {dest W : PosixPath} {ms before : List (Member β)}
  {m : Member β}

/-! ### One member -/

/-- The path of a member, its empty pieces left out. -/
def placeOf (dest : PosixPath) (m : Member β) : PosixPath := (dest ++ m.name).filter (· ≠ "")

/-- What a member puts outside `W` is there: the paths above it lead into `W` or to directories, and its own leads
into `W` or to what it is. -/
structure StaysIn (W : PosixPath) (t₀ : FileTree β) (dest : PosixPath) (m : Member β) : Prop where
  above : ∀ u, u <+: placeOf dest m → u ≠ placeOf dest m → ∀ r, ResolvesTo t₀ [] u r →
    W <+: r ∨ t₀.lookup r = some .dir
  there : ∀ r, ResolvesTo t₀ [] (placeOf dest m) r → W <+: r ∨ (t₀.lookup r).map kindOf = some m.kind

/-- A member is a file or a directory. -/
def isFileOrDir : MemberKind β → Bool
  | .dir | .file _ => true
  | .symlink _ | .hardlink _ | .special => false

theorem exists_kindOf {kind : MemberKind β} (h : isFileOrDir kind = true) :
    ∃ e, (∀ tgt, e ≠ .symlink tgt) ∧ kind = kindOf e := by
  cases kind with
  | dir => exact ⟨.dir, by simp, rfl⟩
  | file b => exact ⟨.file b, by simp, rfl⟩
  | symlink linkname => cases h
  | hardlink linkname => cases h
  | special => cases h

theorem kindOf_injective : Function.Injective (kindOf : Entry β → MemberKind β) := by
  intro e e' h
  cases e <;> cases e' <;> simp_all [kindOf]

/-- An entry is put at `q`, where no directory is, or that directory is it. -/
structure PutAt (t t' : FileTree β) (q : PosixPath) (e : Entry β) : Prop where
  there : t'.lookup q = some e
  same : ∀ x, x ≠ q → t'.lookup x = t.lookup x
  onDir : t.lookup q = some .dir → e = .dir

theorem filter_rdropWhile (p : PosixPath) : (p.rdropWhile (· = "")).filter (· ≠ "") = p.filter (· ≠ "") := by
  induction p using List.reverseRecOn with
  | nil => rfl
  | append_singleton p n ih =>
    by_cases hn : n = ""
    · rw [List.rdropWhile_concat_pos _ _ _ (by simpa using hn), ih, List.filter_append]
      simp [hn]
    · rw [List.rdropWhile_concat_neg _ _ _ (by simpa using hn)]

theorem filter_dropWhile (p : PosixPath) : (p.dropWhile (· = "")).filter (· ≠ "") = p.filter (· ≠ "") := by
  induction p with
  | nil => rfl
  | cons n p ih =>
    by_cases hn : n = ""
    · rw [List.dropWhile_cons_of_pos (by simpa using hn), ih, List.filter_cons_of_neg (by simpa using hn)]
    · rw [List.dropWhile_cons_of_neg (by simpa using hn)]

/-- What is above a path, its empty pieces left out, is above that without them. -/
theorem above_of_dirname {p v : PosixPath}
    (hv : v <+: (PathText.dirname (p.rdropWhile (· = ""))).filter (· ≠ "")) :
    v = [] ∨ v <+: p.filter (· ≠ "") ∧ v ≠ p.filter (· ≠ "") := by
  rw [← filter_rdropWhile p]
  rcases PosixPath.eq_nil_or_concat (p.rdropWhile (· = "")) with hnil | ⟨a, n, hconcat⟩
  · rw [hnil] at hv
    exact .inl (List.prefix_nil.mp hv)
  · have hn : n ≠ "" := by
      have hlast := List.rdropWhile_last_not (· = "") p (by rw [hconcat]; simp)
      simpa [hconcat] using hlast
    rw [hconcat] at hv ⊢
    rw [PathText.dirname, List.dropLast_concat, filter_rdropWhile] at hv
    rw [List.filter_append, List.filter_cons_of_pos (by simpa using hn), List.filter_nil]
    refine .inr ⟨hv.trans (List.prefix_append _ _), ?_⟩
    rintro rfl
    exact PosixPath.not_concat_prefix _ _ hv

theorem made_of_mkdirAbove {above : PosixPath → Prop} {t : FileTree β} {b : Bool} {v : PosixPath} {u : Unit}
    (hmade : Made above t d.tree) (hv : above v) (h : mkdirAbove b v d = .ok u d') : Made above t d'.tree := by
  have hop := op_of_effect h
  split at hop
  · exact Option.some.inj hop ▸ hmade
  · obtain ⟨q, hq, htree, hnone⟩ := mkdir_eq_some hop
    rw [htree]
    exact hmade.step hv (locate_follow (by simp [hnone]) hq) hnone

theorem made_of_makedirs {names : List String} {b : Bool} {u : Unit} (h : makedirs b names d = .ok u d') :
    Made (· <+: names.reverse) d.tree d'.tree := by
  induction names generalizing b u d' with
  | nil => exact made_of_mkdirAbove .refl List.prefix_rfl h
  | cons n head ih =>
    obtain ⟨there, d₁, hthere, h⟩ := bind_eq_ok.mp h
    obtain ⟨-, rfl⟩ := look_eq_ok.mp hthere
    cases there with
    | true => exact made_of_mkdirAbove .refl List.prefix_rfl h
    | false =>
      obtain ⟨_, d₁, hhead, h⟩ := bind_eq_ok.mp h
      have hmade : Made (· <+: (n :: head).reverse) d.tree d₁.tree :=
        (ih hhead).mono fun v hv => hv.trans (by simp)
      rcases whenever_eq_ok.mp h with ⟨-, h⟩ | ⟨-, rfl⟩
      · exact made_of_mkdirAbove hmade List.prefix_rfl h
      · exact hmade

/-- A file or a directory that is extracted: directories are made on the way, and it is put where its path leads. -/
theorem extractMember_eq_ok [Content β] {fuel : ℕ} {shared shared' : Sharing} {p : PosixPath} {name : PathText}
    {e : Entry β} (he : ∀ tgt, e ≠ .symlink tgt)
    (hnames : ∀ t q, Made (· <+: (PathText.dirname p).filter (· ≠ "")) d.tree t → t.locate true p = some q →
      shared.names q = [])
    (h : extractMember dest ms p fuel false before shared ⟨name, kindOf e⟩ d = .ok shared' d') :
    shared' = shared ∧ ∃ t q, Made (· <+: (PathText.dirname p).filter (· ≠ "")) d.tree t ∧
      t.locate true p = some q ∧
      PutAt t d'.tree q e := by
  cases fuel with
  | zero => cases h
  | succ fuel =>
    unfold extractMember at h
    obtain ⟨_, d₁, hupper, h⟩ := bind_eq_ok.mp h
    have hmade : Made (· <+: (PathText.dirname p).filter (· ≠ "")) d.tree d₁.tree := by
      obtain ⟨there, d₂, hthere, hupper⟩ := bind_eq_ok.mp hupper
      obtain ⟨-, rfl⟩ := look_eq_ok.mp hthere
      rcases whenever_eq_ok.mp hupper with ⟨-, hdirs⟩ | ⟨-, rfl⟩
      · simpa only [List.reverse_reverse] using made_of_makedirs hdirs
      · exact .refl
    cases e with
    | symlink tgt => exact absurd rfl (he tgt)
    | dir =>
      obtain ⟨_, d₂, hdir, h⟩ := bind_eq_ok.mp h
      obtain ⟨rfl, rfl⟩ := pure_eq_ok.mp h
      have hop := op_of_effect hdir
      split at hop
      · next hstat =>
        obtain ⟨q, hq, hlook⟩ := Option.bind_eq_some_iff.mp hstat
        rw [← Option.some.inj hop]
        exact ⟨rfl, _, q, hmade, hq, hlook, fun _ _ => rfl, fun _ => rfl⟩
      · obtain ⟨q, hq, htree, hnone⟩ := mkdir_eq_some hop
        rw [htree]
        exact ⟨rfl, _, q, hmade, locate_follow (by simp [hnone]) hq, lookup_set_self (Made.ne_nil hnone),
          fun _ hx => lookup_set_ne hx, fun _ => rfl⟩
    | file b =>
      obtain ⟨_, d₂, hwrite, h⟩ := bind_eq_ok.mp h
      obtain ⟨rfl, rfl⟩ := pure_eq_ok.mp h
      obtain ⟨q, hq, hold, htree⟩ := writeShared_eq_some (op_of_effect hwrite)
      rw [hnames _ q hmade hq, setFiles_nil] at htree
      have hne : q ≠ [] := by
        rintro rfl
        exact hold rfl
      rw [htree]
      exact ⟨rfl, _, q, hmade, hq, lookup_set_self hne, fun _ hx => lookup_set_ne hx,
        fun hdir => absurd hdir hold⟩

theorem PutAt.unlinked {t t' : FileTree β} {q : PosixPath} {e : Entry β} (h : PutAt t t' q e)
    (he : ∀ tgt, e ≠ .symlink tgt) (hlinks : Unlinked W t) : Unlinked W t' := by
  constructor
  · by_cases hq : W = q
    · rw [hq, h.there, h.onDir (hq ▸ hlinks.dir)]
    · rw [h.same W hq, hlinks.dir]
  · intro p hp tgt
    by_cases hq : p = q
    · rw [hq, h.there]
      exact fun heq => he tgt (Option.some.inj heq)
    · exact h.same p hq ▸ hlinks.linkless p hp tgt

/-- One member that is no link, extracted by a path that is its own but for empty pieces to where nothing has a
second name. -/
theorem extractNext_eq_ok [Content β] {state : List (Member β) × Sharing} {shared : Sharing} {e : Entry β}
    (he : ∀ tgt, e ≠ .symlink tgt) (hkind : m.kind = kindOf e)
    (hnames : ∀ t p q, Made (fun v => v = [] ∨ v <+: placeOf dest m ∧ v ≠ placeOf dest m) d.tree t →
      p.filter (· ≠ "") = placeOf dest m → t.locate true p = some q → shared.names q = [])
    (h : extractNext dest ms (before, shared) m d = .ok state d') :
    state = (m :: before, shared) ∧ ∃ t p q,
      Made (fun v => v = [] ∨ v <+: placeOf dest m ∧ v ≠ placeOf dest m) d.tree t ∧
        p.filter (· ≠ "") = placeOf dest m ∧ t.locate true p = some q ∧ PutAt t d'.tree q e := by
  obtain ⟨shared', d₁, hone, h⟩ := bind_eq_ok.mp h
  obtain ⟨rfl, rfl⟩ := pure_eq_ok.mp h
  obtain ⟨filtered, d₂, hconsult, hone⟩ := bind_eq_ok.mp hone
  obtain ⟨hfilter, rfl⟩ := consult_eq_ok.mp hconsult
  obtain ⟨root, -, -, -, rfl⟩ := dataFilter_eq_ok.mp hfilter
  obtain ⟨d₃, d₄, hget, hone⟩ := bind_eq_ok.mp hone
  obtain ⟨rfl, rfl⟩ := get_eq_ok.mp hget
  have hnorm : normKind m.kind = kindOf e := by
    rw [hkind]
    cases e with
    | symlink tgt => exact absurd rfl (he tgt)
    | dir => rfl
    | file b => rfl
  rw [hnorm] at hone
  have hplace : (dest ++ m.name.dropWhile (· = "")).filter (· ≠ "") = placeOf dest m := by
    rw [List.filter_append, filter_dropWhile, placeOf, List.filter_append]
  have habove : ∀ v, v <+: (PathText.dirname ((dest ++ m.name.dropWhile (· = "")).rdropWhile (· = ""))).filter
      (· ≠ "") → v = [] ∨ v <+: placeOf dest m ∧ v ≠ placeOf dest m := by
    intro v hv
    rw [← hplace]
    exact above_of_dirname hv
  obtain ⟨rfl, t, q, hmade, hq, hput⟩ := extractMember_eq_ok he
    (fun t q hmade => hnames t _ q (hmade.mono habove) ((filter_rdropWhile _).trans hplace)) hone
  exact ⟨rfl, t, _, q, hmade.mono habove, (filter_rdropWhile _).trans hplace, hq, hput⟩

/-- What stands outside in the end stood there when the directories had been made. -/
theorem PutAt.sameOutside_made {above : PosixPath → Prop} {t t' : FileTree β} {q : PosixPath} {e : Entry β}
    (hput : PutAt t t' q e) (hmade : Made above d.tree t) (hsame : SameOutside W t₀ d.tree)
    (hafter : SameOutside W t₀ t') : SameOutside W t₀ t := by
  intro x hx
  by_cases hxq : x = q
  · rcases hmade.lookup x with heq | ⟨hnone, hdir⟩
    · rw [heq, hsame x hx]
    · have hthere := hafter x hx
      rw [hxq, hput.there, hput.onDir (hxq ▸ hdir), ← hxq, ← hsame x hx, hnone] at hthere
      cases hthere
  · rw [← hput.same x hxq, hafter x hx]

/-- **One member** that is no link leaves everything outside the directory as it was exactly when it stays in. -/
theorem same_iff_staysIn {t t' : FileTree β} {p q : PosixPath} {e : Entry β}
    (hreads : ∀ t, Made (fun v => v = [] ∨ v <+: placeOf dest m ∧ v ≠ placeOf dest m) d.tree t →
      SameOutside W t₀ t → Reads t₀ t (placeOf dest m))
    (hsame : SameOutside W t₀ d.tree) (hkind : m.kind = kindOf e)
    (hmade : Made (fun v => v = [] ∨ v <+: placeOf dest m ∧ v ≠ placeOf dest m) d.tree t)
    (hplace : p.filter (· ≠ "") = placeOf dest m) (hq : t.locate true p = some q) (hput : PutAt t t' q e) :
    SameOutside W t₀ t' ↔ StaysIn W t₀ dest m := by
  constructor
  · intro hafter
    have hsame₁ := hput.sameOutside_made hmade hsame hafter
    have hreads₁ := hreads t hmade hsame₁
    refine ⟨fun u hu hne r hr => ?_, fun r hr => ?_⟩
    · obtain ⟨rest, hrest⟩ := hu
      rw [← hplace] at hrest hne
      obtain ⟨a, b, hsplit, ha, hb⟩ := List.filter_eq_append_iff.mp hrest.symm
      have hbne : b ≠ [] := by
        rintro rfl
        rw [← hrest, ← hb] at hne
        simp at hne
      rw [hsplit] at hq
      obtain ⟨c, hc, hdir⟩ := walks_dir (locate_eq_some.mp hq) hbne
      have hresolves := hreads₁ _ a c (by rw [ha, ← hplace, ← hrest]; exact List.prefix_append _ _) hc
      rw [← ResolvesTo.filter, ha] at hresolves
      obtain rfl := hr.unique hresolves
      by_cases hin : W <+: r
      · exact .inl hin
      · exact .inr (by rw [← hsame₁ r hin, hdir])
    · have hresolves := hreads₁.locate (by rw [hplace]) hq
      rw [← ResolvesTo.filter, hplace] at hresolves
      obtain rfl := hr.unique hresolves
      by_cases hin : W <+: r
      · exact .inl hin
      · exact .inr (by rw [← hafter r hin, hput.there, hkind]; rfl)
  · intro hstays
    have hsame₁ : SameOutside W t₀ t := by
      refine hmade.sameOutside (fun t' hmade' hsame' v q hv hq => ?_) hsame fun v hv r hr => ?_
      · rcases hv with rfl | ⟨hpre, -⟩
        · exact (hreads t' hmade' hsame').locate (by simp) hq
        · refine (hreads t' hmade' hsame').locate ?_ hq
          rwa [List.filter_eq_self.mpr fun n hn => (List.mem_filter.mp (hpre.subset hn)).2]
      rcases hv with rfl | ⟨hpre, hne⟩
      · cases hr
        exact .inr rfl
      · exact hstays.above v hpre hne r hr
    intro x hx
    by_cases hxq : x = q
    · have hresolves := (hreads t hmade hsame₁).locate (by rw [hplace]) hq
      rw [← ResolvesTo.filter, hplace] at hresolves
      rcases hstays.there q hresolves with hin | hthere
      · exact absurd (hxq ▸ hin) hx
      · obtain ⟨e', he', hkind'⟩ := Option.map_eq_some_iff.mp hthere
        rw [hkind] at hkind'
        rw [hxq, hput.there, he', kindOf_injective hkind']
    · rw [hput.same x hxq, hsame₁ x hx]

/-! ### A whole archive -/

/-- The tree when the first `k` of the members to come have been extracted. -/
def treeAfter [Content β] (dest : PosixPath) (ms : List (Member β)) (state : List (Member β) × Sharing)
    (rest : List (Member β)) (d : Disk β) (k : ℕ) : FileTree β :=
  (endState ((rest.take k).foldlM (extractNext dest ms) state d)).tree

/-- An archive that is extracted: its members are gone over, and nothing is changed after that. -/
theorem rounds_of_extractall [Content β] {shared : Sharing} (h : extractall dest ms d = .ok shared d') :
    ∃ state, ms.foldlM (extractNext dest ms) ([], []) d = .ok state d' ∧ state.2 = shared ∧
      d'.tree = treeAfter dest ms ([], []) ms d ms.length := by
  obtain ⟨state, d₁, hrounds, h⟩ := bind_eq_ok.mp h
  obtain ⟨_, d₂, hfixups, h⟩ := bind_eq_ok.mp h
  obtain ⟨rfl, rfl⟩ := pure_eq_ok.mp h
  obtain rfl := (within_fixups (F := unchanged)).of_ok hfixups
  refine ⟨state, hrounds, rfl, ?_⟩
  rw [treeAfter, List.take_length, hrounds]
  rfl

/-- What a round does to the members it goes over, the names of files and the tree: it keeps an invariant, and
leaves everything outside the directory as it was exactly when its member stays in. -/
def Steady [Content β] (W : PosixPath) (t₀ : FileTree β) (dest : PosixPath) (ms : List (Member β))
    (I : List (Member β) → Sharing → FileTree β → Prop) : Prop :=
  ∀ before m shared state (d d' : Disk β), At ms before m → I before shared d.tree → SameOutside W t₀ d.tree →
    extractNext dest ms (before, shared) m d = .ok state d' →
      state.1 = m :: before ∧ I (m :: before) state.2 d'.tree ∧ (SameOutside W t₀ d'.tree ↔ StaysIn W t₀ dest m)

/-- **Throughout an extraction** in steady rounds everything outside the directory is as it was exactly when every
member stays in. -/
theorem Steady.rounds_iff [Content β] {I : List (Member β) → Sharing → FileTree β → Prop}
    {rest : List (Member β)} {shared : Sharing} {state : List (Member β) × Sharing}
    (hsteady : Steady W t₀ dest ms I) (hsplit : ms = before.reverse ++ rest) (hI : I before shared d.tree)
    (hsame : SameOutside W t₀ d.tree)
    (h : rest.foldlM (extractNext dest ms) (before, shared) d = .ok state d') :
    ((∀ k ≤ rest.length, SameOutside W t₀ (treeAfter dest ms (before, shared) rest d k)) ↔
      ∀ m ∈ rest, StaysIn W t₀ dest m) ∧
    ((∀ m ∈ rest, StaysIn W t₀ dest m) → I state.1 state.2 d'.tree) := by
  induction rest generalizing before shared d with
  | nil =>
    obtain ⟨rfl, rfl⟩ := pure_eq_ok.mp h
    refine ⟨iff_of_true (fun k _ => ?_) (by simp), fun _ => hI⟩
    rw [treeAfter, List.take_nil]
    exact hsame
  | cons m rest ih =>
    rw [List.foldlM_cons] at h
    obtain ⟨⟨before', shared'⟩, d₁, hround, h⟩ := bind_eq_ok.mp h
    obtain ⟨rfl, hI₁, hiff⟩ := hsteady before m shared _ d d₁ ⟨rest, hsplit⟩ hI hsame hround
    have hlater : ∀ k, treeAfter dest ms (before, shared) (m :: rest) d (k + 1) =
        treeAfter dest ms (m :: before, shared') rest d₁ k := by
      intro k
      rw [treeAfter, List.take_succ_cons, List.foldlM_cons, bind_run_of_ok hround]
      rfl
    have hnext : SameOutside W t₀ d₁.tree → _ := fun hfirst => ih (by simpa using hsplit) hI₁ hfirst h
    simp only [List.forall_mem_cons, ← hiff]
    refine ⟨⟨fun hall => ?_, fun hstay k hk => ?_⟩, fun hstay => (hnext hstay.1).2 hstay.2⟩
    · have hfirst : SameOutside W t₀ d₁.tree := by
        have hone := hall 1 (by simp)
        rwa [hlater 0] at hone
      refine ⟨hfirst, (hnext hfirst).1.mp fun k hk => ?_⟩
      rw [← hlater]
      exact hall (k + 1) (Nat.succ_le_succ hk)
    · cases k with
      | zero => exact hsame
      | succ k =>
        rw [hlater]
        exact (hnext hstay.1).1.mpr hstay.2 k (Nat.le_of_succ_le_succ hk)

/-! ### Archives without links -/

/-- An archive of files and directories is extracted in steady rounds into a tree without links in the directory. -/
theorem steady_of_linkless [Content β] (hempty : EmptyDir t₀ W) (hms : ∀ m ∈ ms, isFileOrDir m.kind = true) :
    Steady W t₀ dest ms fun _ shared t => Shares (fun _ => False) shared ∧ Unlinked W t := by
  rintro before m shared state d d' hat ⟨hshared, hlinks⟩ hsame hround
  obtain ⟨e, he, hkind⟩ := exists_kindOf (hms m hat.mem)
  obtain ⟨rfl, t, p, q, hmade, hplace, hq, hput⟩ :=
    extractNext_eq_ok he hkind (fun _ _ q _ _ _ => hshared.names_eq_nil id) hround
  exact ⟨rfl, ⟨hshared, hput.unlinked he (hmade.unlinked hlinks)⟩, same_iff_staysIn
    (fun t hmade hsame => reads_of_unlinked hempty (hmade.unlinked hlinks) hsame) hsame hkind
      hmade hplace hq hput⟩

/-! ### Archives by their names -/

/-- An archive of plain names. What is not in the directory `base` is a file or a directory, with no link of the tree
on its path; and the hard links lead into that directory. -/
structure Named (base : String) (t : FileTree β) (dest : PosixPath) (ms : List (Member β)) : Prop where
  plain : ∀ m ∈ ms, ∀ n ∈ m.name, PosixPath.isPlain n = true
  plainLink : ∀ m ∈ ms, ∀ linkname, m.kind = .hardlink linkname → ∀ n ∈ linkname.normpath,
    PosixPath.isPlain n = true
  beside : ∀ m ∈ ms, [base] <+: m.name ∨ NoLink t (dest ++ m.name) ∧ isFileOrDir m.kind = true
  linknames : ∀ m ∈ ms, ∀ linkname, m.kind = .hardlink linkname → [base] <+: linkname.normpath

/-- The links that stand are those that stood before. -/
def linksOf (t₀ : FileTree β) (p : PosixPath) (e : Entry β) : Prop :=
  ∀ tgt, e = .symlink tgt → t₀.lookup p = some (.symlink tgt)

/-- What is said of the tree is said of any that differs in the directory alone. -/
theorem Named.of_sameOutside {base : String} {t : FileTree β} (h : Named base t dest ms)
    (hsame : SameOutside (dest ++ [base]) t t₀) : Named base t₀ dest ms := by
  refine ⟨h.plain, h.plainLink, fun m hm => ?_, h.linknames⟩
  by_cases hin : [base] <+: m.name
  · exact .inl hin
  · obtain ⟨hlink, hkind⟩ := (h.beside m hm).resolve_left hin
    refine .inr ⟨fun q hq tgt he => ?_, hkind⟩
    rw [hsame q fun hbelow => hin ((List.prefix_append_right_inj dest).mp (hbelow.trans hq))] at he
    exact hlink q hq tgt he

/-- In a tree that differs in an empty directory alone there are no other links. -/
theorem tidy_linksOf {t : FileTree β} (ht : IsTree t) (hempty : EmptyDir t W) (hsame : SameOutside W t₀ t) :
    Tidy (withLinks (linksOf t₀) dest []) t := by
  refine ⟨ht, fun p e he => .inl fun tgt htgt => ?_⟩
  subst htgt
  rwa [← hsame p fun hin => hempty.unlinked.linkless p hin tgt he]

theorem resolvesTo_self {t : FileTree β} {p : PosixPath} (hplain : ∀ n ∈ p, PosixPath.isPlain n = true)
    (hlink : NoLink t p) : ResolvesTo t [] p p := by
  have hdown : ∀ cur rest, cur ++ rest = p → ResolvesTo t cur rest p := by
    intro cur rest hsplit
    induction rest generalizing cur with
    | nil => exact List.append_nil cur ▸ hsplit ▸ .done
    | cons n rest ih =>
      have hn : PosixPath.IsName n := PosixPath.isName_of_plain (hplain n (by simp [← hsplit]))
      rw [List.append_cons] at hsplit
      exact .down hn (hlink _ ⟨rest, hsplit⟩) (ih _ hsplit)
  exact hdown [] p rfl

theorem placeOf_of_plain (hplain : ∀ n ∈ dest ++ m.name, PosixPath.isPlain n = true) :
    placeOf dest m = dest ++ m.name :=
  filter_of_plain hplain

/-- A member in the directory, its path without links, stays in. -/
theorem staysIn_of_below (ht₀ : IsTree t₀) (hdir : t₀.lookup W = some .dir)
    (hplain : ∀ n ∈ dest ++ m.name, PosixPath.isPlain n = true) (hlink : NoLink t₀ (dest ++ m.name))
    (hin : W <+: dest ++ m.name) : StaysIn W t₀ dest m := by
  have hself : ∀ u, u <+: dest ++ m.name → ∀ r, ResolvesTo t₀ [] u r → r = u := fun u hu r hr =>
    hr.unique (resolvesTo_self (fun n hn => hplain n (hu.subset hn)) (hlink.mono hu))
  rw [← placeOf_of_plain hplain] at hself hin
  refine ⟨fun u hu _ r hr => ?_, fun r hr => ?_⟩
  · obtain rfl := hself u hu r hr
    rcases List.prefix_or_prefix_of_prefix hin hu with hbelow | habove
    · exact .inl hbelow
    · by_cases heq : r = W
      · exact .inl (heq ▸ List.prefix_rfl)
      · exact .inr (ht₀.dir_of_prefix hdir habove heq)
  · exact .inl (hself _ List.prefix_rfl r hr ▸ hin)

/-- A member beside the directory, its path without links, stays in exactly when it is there already. -/
theorem staysIn_iff_there (ht₀ : IsTree t₀) (hplain : ∀ n ∈ dest ++ m.name, PosixPath.isPlain n = true)
    (hlink : NoLink t₀ (dest ++ m.name)) (hout : ¬ W <+: dest ++ m.name) :
    StaysIn W t₀ dest m ↔ (t₀.lookup (dest ++ m.name)).map kindOf = some m.kind := by
  have hself : ∀ u, u <+: dest ++ m.name → ResolvesTo t₀ [] u u := fun u hu =>
    resolvesTo_self (fun n hn => hplain n (hu.subset hn)) (hlink.mono hu)
  rw [← placeOf_of_plain hplain] at hself hout ⊢
  refine ⟨fun hstays => (hstays.there _ (hself _ List.prefix_rfl)).resolve_left hout, fun hthere => ?_⟩
  obtain ⟨e, he, -⟩ := Option.map_eq_some_iff.mp hthere
  refine ⟨fun u hu hne r hr => ?_, fun r hr => ?_⟩
  · obtain rfl := hr.unique (hself u hu)
    exact .inr (ht₀.dir_of_prefix he hu hne)
  · obtain rfl := hr.unique (hself _ List.prefix_rfl)
    exact .inr hthere

/-- What a path without links leads to is the path itself, its empty pieces left out. -/
theorem eq_of_locate_of_noLink {t : FileTree β} {p q place : PosixPath}
    (hplain : ∀ n ∈ place, PosixPath.isPlain n = true) (hlink : NoLink t place)
    (hp : p.filter (· ≠ "") = place) (hq : t.locate true p = some q) : q = place := by
  have hresolves := (reads_of_noLink hplain hlink hlink).locate (by rw [hp]) hq
  rw [← ResolvesTo.filter, hp] at hresolves
  exact hresolves.unique (resolvesTo_self hplain hlink)

/-- A round that is confined to the directory, and what is above it, leaves everything outside as it was: what is
above are directories, and those stay. -/
theorem sameOutside_of_confines [Content β] {may : PosixPath → Entry β → Prop}
    {good : Sharing → FileTree β → Prop} {shared : Sharing} {state : List (Member β) × Sharing} (ht₀ : IsTree t₀)
    (hdir : t₀.lookup W = some .dir) (hrooted : Rooted d.tree) (hsame : SameOutside W t₀ d.tree)
    (hconfines : Confines may (fun q => W <+: q ∨ q <+: W) good (extractOne dest ms before shared m) d)
    (hround : extractNext dest ms (before, shared) m d = .ok state d') : SameOutside W t₀ d'.tree := by
  intro q hq
  rw [← hsame q hq]
  by_cases habove : q <+: W
  · have hthere : d.tree.lookup q = some .dir := by
      rw [hsame q hq]
      refine ht₀.dir_of_prefix hdir habove ?_
      rintro rfl
      exact hq List.prefix_rfl
    have hstands : Within (onTree (standing q)) (extractNext dest ms (before, shared) m) d :=
      within_extractNext_of fun hcall _ => within_call_standing hcall
    rw [hthere]
    exact (hstands.of_ok hround hrooted).2 hthere
  · obtain ⟨shared', d₁, hone, hpure⟩ := bind_eq_ok.mp hround
    obtain ⟨-, rfl⟩ := pure_eq_ok.mp hpure
    have hkept := hconfines.same q fun hq' => hq'.elim hq habove
    rwa [hone] at hkept

/-- A member that is no link, outside the directory and on a path where no link stands, leaves everything outside
as it was exactly when it stays in. -/
theorem same_iff_staysIn_of_noLink [Content β] {shared : Sharing} {state : List (Member β) × Sharing} {e : Entry β}
    (he : ∀ tgt, e ≠ .symlink tgt) (hkind : m.kind = kindOf e)
    (hplain : ∀ n ∈ dest ++ m.name, PosixPath.isPlain n = true) (hlink₀ : NoLink t₀ (dest ++ m.name))
    (hlink : NoLink d.tree (dest ++ m.name)) (hout : ¬ W <+: dest ++ m.name) (hshared : Shares (W <+: ·) shared)
    (hsame : SameOutside W t₀ d.tree) (hround : extractNext dest ms (before, shared) m d = .ok state d') :
    SameOutside W t₀ d'.tree ↔ StaysIn W t₀ dest m := by
  have hplace := placeOf_of_plain hplain
  rw [← hplace] at hplain hlink₀ hlink hout
  obtain ⟨-, t, p, q, hmade, hp, hq, hput⟩ := extractNext_eq_ok he hkind (fun t p q hmade hp hq =>
    eq_of_locate_of_noLink hplain (hmade.noLink hlink) hp hq ▸ hshared.names_eq_nil hout) hround
  exact same_iff_staysIn (fun t hmade _ => reads_of_noLink hplain hlink₀ (hmade.noLink hlink)) hsame hkind hmade
    hp hq hput

/-- No link is on a path into an empty directory. -/
theorem noLink_into {base : String} {name : PathText} (ht₀ : IsTree t₀) (hempty : EmptyDir t₀ (dest ++ [base]))
    (hin : [base] <+: name) : NoLink t₀ (dest ++ name) := by
  intro q hq
  rcases List.prefix_or_prefix_of_prefix ((List.prefix_append_right_inj dest).mpr hin) hq with hbelow | habove
  · exact hempty.unlinked.linkless q hbelow
  · exact ht₀.noLink_of_dir hempty.dir q habove

section Named

variable {base : String} (h : Named base t₀ dest ms) (hdest : ∀ n ∈ dest, PosixPath.isPlain n = true)
  (ht₀ : IsTree t₀) (hempty : EmptyDir t₀ (dest ++ [base]))

include h

include hdest in
theorem Named.plain_place (hm : m ∈ ms) : ∀ n ∈ dest ++ m.name, PosixPath.isPlain n = true := by
  intro n hn
  rcases List.mem_append.mp hn with hn | hn
  · exact hdest n hn
  · exact h.plain m hm n hn

include ht₀ hempty in
theorem Named.noLink (hm : m ∈ ms) : NoLink t₀ (dest ++ m.name) :=
  (h.beside m hm).elim (noLink_into ht₀ hempty) And.left

variable [Content β]

include hdest ht₀ hempty

omit [Content β] in
theorem Named.firm (hm : m ∈ ms) : Firm (linksOf t₀) (dest ++ m.name) :=
  ⟨h.plain_place hdest hm, fun q hq tgt hmay => h.noLink ht₀ hempty hm q hq tgt (hmay tgt rfl)⟩

omit [Content β] in
/-- A member of such an archive stays in exactly when it is in the directory by its name, or there already. -/
theorem Named.staysIn_iff (hm : m ∈ ms) : StaysIn (dest ++ [base]) t₀ dest m ↔
    [base] <+: m.name ∨ (t₀.lookup (dest ++ m.name)).map kindOf = some m.kind := by
  have hlink := h.noLink ht₀ hempty hm
  by_cases hin : [base] <+: m.name
  · exact iff_of_true (staysIn_of_below ht₀ hempty.dir (h.plain_place hdest hm) hlink
      ((List.prefix_append_right_inj dest).mpr hin)) (.inl hin)
  · rw [or_iff_right hin]
    exact staysIn_iff_there ht₀ (h.plain_place hdest hm) hlink
      fun hpre => hin ((List.prefix_append_right_inj dest).mp hpre)

/-- Such an archive fits a tree in which the directory is empty. -/
theorem Named.fits : Fits (linksOf t₀) (dest ++ [base] <+: ·) dest ms where
  firm m hm := h.firm hdest ht₀ hempty hm
  dirs m hm q hq tgt htgt := by cases htgt
  files m hm x hx b hb := ⟨fun tgt htgt => (by cases htgt), fun n tgt htgt => (by cases htgt)⟩
  firmLink m hm linkname hk := by
    refine ⟨fun n hn => ?_, fun q hq tgt hmay => ?_⟩
    · rcases List.mem_append.mp hn with hn | hn
      · exact hdest n hn
      · exact h.plainLink m hm linkname hk n hn
    · exact noLink_into ht₀ hempty (h.linknames m hm linkname hk) q hq tgt (hmay tgt rfl)
  freeLink m hm linkname hk := by
    have hin : [base] <+: m.name := (h.beside m hm).resolve_right fun hout => by simp [hk, isFileOrDir] at hout
    exact ⟨(List.prefix_append_right_inj dest).mpr hin,
      (List.prefix_append_right_inj dest).mpr (h.linknames m hm linkname hk)⟩
  freely r hr b tgt htgt := by cases htgt

/-- **An archive that is extracted where its names say** is extracted in steady rounds. -/
theorem steady_of_unfollowed (hms : Unfollowed ms) : Steady (dest ++ [base]) t₀ dest ms fun before shared t =>
    Shares (dest ++ [base] <+: ·) shared ∧ Tidy (withLinks (linksOf t₀) dest before) t := by
  rintro before m shared state d d' hat ⟨hshared, htidy⟩ hsame hround
  have hm := hat.mem
  have hplain := h.plain_place hdest hm
  have hfirm := h.firm hdest ht₀ hempty hm
  have hlink₀ := h.noLink ht₀ hempty hm
  obtain ⟨shared', d₁, hone, hpure⟩ := bind_eq_ok.mp hround
  have hconfines : ∀ R : PosixPath → Prop, (∀ q, q <+: dest ++ m.name ∨ dest ++ m.name <+: q → R q) →
      (∀ q, dest ++ [base] <+: q → R q) → Confines (withLinks (linksOf t₀) dest (m :: before)) R
        (fun shared _ => Shares (dest ++ [base] <+: ·) shared) (extractOne dest ms before shared m) d :=
    fun R hR hfree => confines_extractOne hms (h.fits hdest ht₀ hempty) hat hR hfree hshared htidy
  obtain ⟨rfl, rfl⟩ := pure_eq_ok.mp hpure
  have hanywhere := hconfines (fun _ => True) (fun _ _ => trivial) fun _ _ => trivial
  refine ⟨rfl, ⟨hanywhere.good _ _ hone, ?_⟩, ?_⟩
  · have htidy' := hanywhere.tidy
    rwa [hone] at htidy'
  by_cases hin : [base] <+: m.name
  · -- what is in the directory stays there, whatever stands for a link that is not made
    have hin' : dest ++ [base] <+: dest ++ m.name := (List.prefix_append_right_inj dest).mpr hin
    refine iff_of_true ?_ (staysIn_of_below ht₀ hempty.dir hplain hlink₀ hin')
    exact sameOutside_of_confines ht₀ hempty.dir htidy.tree.rooted hsame
      (hconfines _ (fun q => PosixPath.comparable_of_below hin') fun _ => .inl) hround
  · obtain ⟨-, hkind⟩ := (h.beside m hm).resolve_left hin
    obtain ⟨e, he, hkind⟩ := exists_kindOf hkind
    have hout : ¬ dest ++ [base] <+: dest ++ m.name :=
      fun hpre => hin ((List.prefix_append_right_inj dest).mp hpre)
    exact same_iff_staysIn_of_noLink he hkind hplain hlink₀
      ((firm_withLinks hfirm (hms.apart before m hat)).noLink_of_tidy htidy) hout hshared hsame hround

end Named

end TarFile
