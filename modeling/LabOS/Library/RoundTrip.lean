import LabOS.Library.FaultFree
import LabOS.Library.Standing
import Mathlib.Data.List.Lex

/-!
# An archive of a directory, extracted

`contents` lists what is below a directory as `add` takes it, a directory before what it
holds. Extracted where an empty directory is, such an archive puts every entry back, one after
another (`putBack`), as long as the filter lets its links pass; where it stops one, the
extraction stops.

## What is proved

* `TarFile.extractall_listed_iff` — the archive of a directory is extracted over an empty directory
  **exactly when** each of its links passes the filter, in the tree with the entries before it.
* `TarFile.extractall_refused` — where the filter stops it, what it leaves are the entries before.
* `FileTree.lookup_putBack_contents` — what it leaves is the directory it was made of, with the targets of
  its links normalised.
-/

namespace FileTree

variable {β : Type} {t : FileTree β} {p : PosixPath}

theorem lt_concat (l : List String) (n : String) : l < l ++ [n] := by
  induction l with
  | nil => exact List.Lex.nil
  | cons a l ih => exact List.Lex.cons ih

/-! ### The contents of a directory -/

/-- The entries below a path, itself among them, under their paths relative to it. -/
def contents (t : FileTree β) (p : PosixPath) : List (List String × Entry β) :=
  (t.select (fun x => p.isPrefixOf x.1) fun x y => x.1 ≤ y.1).map fun x => (x.1.drop p.length, x.2)

theorem mem_contents (hp : p ≠ []) {r : List String} {e : Entry β} :
    (r, e) ∈ t.contents p ↔ t.lookup (p ++ r) = some e := by
  unfold contents
  simp only [List.mem_map, Table.mem_select, List.isPrefixOf_iff_prefix, Prod.mk.injEq, Prod.exists]
  constructor
  · rintro ⟨q, e', ⟨hm, r', rfl⟩, hr, rfl⟩
    rw [List.drop_left] at hr
    exact hr ▸ lookup_of_mem_rows (by simp [hp]) hm
  · intro h
    exact ⟨p ++ r, e, ⟨mem_rows_of_lookup (by simp [hp]) h, List.prefix_append p r⟩, List.drop_left, rfl⟩

/-- Entries in an order in which they can be put into an empty directory: each once, after the directory it
is in. -/
structure Listed (xs : List (List String × Entry β)) : Prop where
  nodup : (xs.map Prod.fst).Nodup
  root : ∀ e, ([], e) ∈ xs → e = .dir
  parents : ∀ before r n e after, xs = before ++ (r ++ [n], e) :: after →
    (r, .dir) ∈ before ∧ PosixPath.isPlain n = true

theorem Listed.left {xs ys : List (List String × Entry β)} (h : Listed (xs ++ ys)) : Listed xs := by
  refine ⟨?_, fun e he => h.root e (List.mem_append_left _ he), fun before r n e after hsplit => ?_⟩
  · have hnodup := h.nodup
    rw [List.map_append] at hnodup
    exact hnodup.of_append_left
  · exact h.parents before r n e (after ++ ys) (by rw [hsplit]; simp)

/-- A path below `p`, put together again. -/
theorem append_drop_of_select {x : PosixPath × Entry β}
    (hx : x ∈ t.select (fun x => p.isPrefixOf x.1) fun x y => x.1 ≤ y.1) : p ++ x.1.drop p.length = x.1 := by
  obtain ⟨r, hr⟩ := List.isPrefixOf_iff_prefix.mp (Table.mem_select.mp hx).2
  rw [← hr, List.drop_left]

theorem pairwise_contents (t : FileTree β) (p : PosixPath) :
    (t.contents p).Pairwise fun x y => p ++ x.1 ≤ p ++ y.1 := by
  have : Std.Total fun x y : PosixPath × Entry β => x.1 ≤ y.1 := ⟨fun x y => le_total x.1 y.1⟩
  have : IsTrans (PosixPath × Entry β) fun x y => x.1 ≤ y.1 := ⟨fun _ _ _ h h' => le_trans h h'⟩
  have hsorted := t.pairwise_select (fun x => p.isPrefixOf x.1) fun x y => x.1 ≤ y.1
  refine List.pairwise_map.mpr (hsorted.imp_of_mem fun hx hy hle => ?_)
  rwa [append_drop_of_select hx, append_drop_of_select hy]

theorem nodup_contents (t : FileTree β) (p : PosixPath) : ((t.contents p).map Prod.fst).Nodup := by
  refine List.Nodup.of_map (fun r => p ++ r) ?_
  have hpaths : ((t.contents p).map Prod.fst).map (fun r => p ++ r) =
      (t.select (fun x => p.isPrefixOf x.1) fun x y => x.1 ≤ y.1).map Prod.fst := by
    unfold contents
    rw [List.map_map, List.map_map]
    exact List.map_congr_left fun x hx => append_drop_of_select hx
  rw [hpaths]
  exact t.nodup_select _ _

/-- **The contents of a directory** are listed in such an order. -/
theorem listed_contents (ht : IsTree t) (hp : p ≠ []) (hdir : t.lookup p = some .dir) :
    Listed (t.contents p) := by
  refine ⟨nodup_contents t p, fun e he => ?_, fun before r n e after hsplit => ?_⟩
  · have := (mem_contents hp).mp he
    rw [List.append_nil, hdir] at this
    exact (Option.some.inj this).symm
  · have hmem : (r ++ [n], e) ∈ t.contents p := by rw [hsplit]; simp
    have hlook := (mem_contents hp).mp hmem
    rw [← List.append_assoc] at hlook
    obtain ⟨hparent, hplain⟩ := ht _ _ _ hlook
    refine ⟨?_, hplain⟩
    have hr := (mem_contents hp).mpr hparent
    rw [hsplit] at hr
    rcases List.mem_append.mp hr with hbefore | hrest
    · exact hbefore
    · exfalso
      have hpair := pairwise_contents t p
      rw [hsplit] at hpair
      rcases List.mem_cons.mp hrest with heq | hafter
      · exact PosixPath.ne_concat_self r n (Prod.mk.inj heq).1
      · have hle := (List.pairwise_cons.mp (List.pairwise_append.mp hpair).2.1).1 _ hafter
        rw [← List.append_assoc] at hle
        exact absurd (lt_concat (p ++ r) n) (not_lt.mpr hle)

/-- The contents of a directory depend only on what stands at it and below. -/
theorem contents_congr {t' : FileTree β} (hp : p ≠ []) (h : ∀ r, t'.lookup (p ++ r) = t.lookup (p ++ r)) :
    t'.contents p = t.contents p := by
  have hperm : (t'.contents p).Perm (t.contents p) := by
    refine (List.perm_ext_iff_of_nodup (nodup_contents t' p).of_map (nodup_contents t p).of_map).mpr ?_
    rintro ⟨r, e⟩
    rw [mem_contents hp, mem_contents hp, h]
  refine hperm.eq_of_pairwise ?_ (pairwise_contents t' p) (pairwise_contents t p)
  -- entries at the same path are the same
  rintro ⟨r, e⟩ ⟨r', e'⟩ hx hy hle hle'
  obtain rfl : r = r' := List.append_cancel_left (le_antisymm hle hle')
  have he : some e = some e' := ((mem_contents hp).mp hx).symm.trans ((h r).trans ((mem_contents hp).mp hy))
  rw [Option.some.inj he]

/-! ### Putting entries back -/

/-- Nothing is in the directory `p`. -/
structure EmptyDir (t : FileTree β) (p : PosixPath) : Prop where
  dir : t.lookup p = some .dir
  empty : ∀ q, p <+: q → q ≠ p → t.lookup q = none

/-- Entries put below `p`, which is there itself. -/
def putBack (t : FileTree β) (p : PosixPath) (xs : List (List String × Entry β)) : FileTree β :=
  xs.foldl (fun t x => if x.1 = [] then t else t.set (p ++ x.1) x.2) t

theorem putBack_concat (t : FileTree β) (p : PosixPath) (xs : List (List String × Entry β))
    (x : List String × Entry β) :
    t.putBack p (xs ++ [x]) = if x.1 = [] then t.putBack p xs else (t.putBack p xs).set (p ++ x.1) x.2 := by
  unfold putBack
  rw [List.foldl_append]
  rfl

variable {xs : List (List String × Entry β)}

/-- What is not put back is as it was. -/
theorem lookup_putBack_of_notMem {q : PosixPath} (h : ∀ x ∈ xs, x.1 ≠ [] → p ++ x.1 ≠ q) :
    (t.putBack p xs).lookup q = t.lookup q := by
  induction xs using List.reverseRecOn with
  | nil => rfl
  | append_singleton xs x ih =>
    have hxs : ∀ y ∈ xs, y.1 ≠ [] → p ++ y.1 ≠ q := fun y hy => h y (List.mem_append_left _ hy)
    rw [putBack_concat]
    split
    · exact ih hxs
    · next hx =>
      rw [lookup_set_ne (h x (by simp) hx).symm]
      exact ih hxs

theorem lookup_putBack_of_mem (hnodup : (xs.map Prod.fst).Nodup) {r : List String} {e : Entry β} (hr : r ≠ [])
    (h : (r, e) ∈ xs) : (t.putBack p xs).lookup (p ++ r) = some e := by
  induction xs using List.reverseRecOn with
  | nil => cases h
  | append_singleton xs x ih =>
    rw [List.map_append] at hnodup
    rw [putBack_concat]
    rcases List.mem_append.mp h with hxs | hx
    · have hne : p ++ r ≠ p ++ x.1 := by
        intro heq
        have hrx : r = x.1 := List.append_cancel_left heq
        exact List.disjoint_of_nodup_append hnodup (List.mem_map_of_mem hxs) (by simp [hrx])
      split
      · exact ih hnodup.of_append_left hxs
      · rw [lookup_set_ne hne]
        exact ih hnodup.of_append_left hxs
    · obtain rfl := List.mem_singleton.mp hx
      rw [if_neg hr, lookup_set_self (by simp [hr])]

/-- A directory that has been put back, or the one it all is put in, is there. -/
theorem lookup_putBack_dir (hempty : EmptyDir t p) (hnodup : (xs.map Prod.fst).Nodup) {r : List String}
    (h : r = [] ∨ (r, .dir) ∈ xs) : (t.putBack p xs).lookup (p ++ r) = some .dir := by
  by_cases hr : r = []
  · rw [hr, List.append_nil, lookup_putBack_of_notMem, hempty.dir]
    intro x _ hx heq
    exact hx (List.append_cancel_left (heq.trans (List.append_nil p).symm))
  · exact lookup_putBack_of_mem hnodup hr (h.resolve_left hr)

/-- What has not been put back yet is not there. -/
theorem lookup_putBack_new (hempty : EmptyDir t p) {r : List String} (hr : r ≠ [])
    (h : r ∉ xs.map Prod.fst) : (t.putBack p xs).lookup (p ++ r) = none := by
  rw [lookup_putBack_of_notMem]
  · exact hempty.empty _ (List.prefix_append p r) (by simpa using hr)
  · intro x hx _ heq
    exact h (List.append_cancel_left heq ▸ List.mem_map_of_mem hx)

/-- The next entry of a list goes into a directory, where nothing is. -/
theorem Listed.next {r : List String} {n : String} {e : Entry β} (hempty : EmptyDir t p)
    (h : Listed (xs ++ [(r ++ [n], e)])) :
    (t.putBack p xs).lookup (p ++ r) = some .dir ∧ (t.putBack p xs).lookup (p ++ r ++ [n]) = none ∧
      PosixPath.isPlain n = true := by
  obtain ⟨hparent, hn⟩ := h.parents xs r n e [] rfl
  refine ⟨lookup_putBack_dir hempty h.left.nodup (.inr hparent), ?_, hn⟩
  rw [List.append_assoc]
  refine lookup_putBack_new hempty (by simp) fun hmem => ?_
  have hnodup := h.nodup
  rw [List.map_append] at hnodup
  exact List.disjoint_of_nodup_append hnodup hmem (by simp)

/-- **Putting back what is listed** into an empty directory leaves a tree. -/
theorem isTree_putBack (ht : IsTree t) (hempty : EmptyDir t p) (hxs : Listed xs) :
    IsTree (t.putBack p xs) := by
  induction xs using List.reverseRecOn with
  | nil => exact ht
  | append_singleton xs x ih =>
    have htree := ih hxs.left
    rw [putBack_concat]
    split
    · exact htree
    · next hx =>
      obtain ⟨r, e⟩ := x
      rcases PosixPath.eq_nil_or_concat r with rfl | ⟨d, n, rfl⟩
      · exact absurd rfl hx
      · obtain ⟨hdir, hnew, hn⟩ := hxs.next hempty
        rw [← List.append_assoc]
        exact htree.set hn hdir (by rw [hnew]; simp)

end FileTree

/-- An entry as it comes out of an archive: the target of a link is normalised. -/
def Entry.normal {β : Type} : Entry β → Entry β
  | .symlink tgt => .symlink tgt.normpath
  | e => e

theorem Entry.normal_eq_dir {β : Type} {e : Entry β} : e.normal = .dir ↔ e = .dir := by
  cases e <;> simp [Entry.normal]

namespace FileTree

variable {β : Type}

/-- Entries as they come out of an archive. -/
def normalised (xs : List (List String × Entry β)) : List (List String × Entry β) :=
  xs.map fun x => (x.1, x.2.normal)

@[simp] theorem normalised_append (xs ys : List (List String × Entry β)) :
    normalised (xs ++ ys) = normalised xs ++ normalised ys :=
  List.map_append

theorem fst_normalised (xs : List (List String × Entry β)) :
    (normalised xs).map Prod.fst = xs.map Prod.fst := by
  simp [normalised, Function.comp_def]

theorem mem_normalised_dir {xs : List (List String × Entry β)} {r : List String} :
    (r, Entry.dir) ∈ normalised xs ↔ (r, Entry.dir) ∈ xs := by
  simp only [normalised, List.mem_map, Prod.mk.injEq, Prod.exists]
  constructor
  · rintro ⟨r', e, hx, rfl, he⟩
    rwa [Entry.normal_eq_dir.mp he] at hx
  · intro h
    exact ⟨r, .dir, h, rfl, rfl⟩

/-- Normalised entries can be put back in the same order. -/
theorem Listed.normalised {xs : List (List String × Entry β)} (h : Listed xs) :
    Listed (FileTree.normalised xs) := by
  refine ⟨by rw [fst_normalised]; exact h.nodup, fun e he => ?_, fun before r n e after hsplit => ?_⟩
  · obtain ⟨⟨r, e'⟩, hx, heq⟩ := List.mem_map.mp he
    obtain ⟨rfl, rfl⟩ := Prod.mk.inj heq
    rw [h.root e' hx]
    rfl
  · obtain ⟨before', later, rfl, rfl, hlater⟩ := List.map_eq_append_iff.mp hsplit
    obtain ⟨⟨r', e'⟩, after', rfl, heq, -⟩ := List.map_eq_cons_iff.mp hlater
    obtain ⟨rfl, -⟩ := Prod.mk.inj heq
    obtain ⟨hparent, hn⟩ := h.parents before' r n e' after' rfl
    exact ⟨mem_normalised_dir.mpr hparent, hn⟩

variable {t : FileTree β} {p : PosixPath}

/-- Every link is written as it comes out of an archive. -/
def Normal (xs : List (List String × Entry β)) : Prop := ∀ x ∈ xs, x.2.normal = x.2

/-- Without a link there is nothing to write otherwise. -/
theorem normal_of_linkless {xs : List (List String × Entry β)} (h : ∀ x ∈ xs, ∀ tgt, x.2 ≠ .symlink tgt) :
    Normal xs := by
  rintro ⟨r, e⟩ hx
  cases e with
  | symlink tgt => exact absurd rfl (h _ hx tgt)
  | dir => rfl
  | file b => rfl

/-- **The contents of a directory, put back into an empty one**, are what they were, but for the spelling of
links. -/
theorem lookup_putBack_contents {s : FileTree β} {q : PosixPath} (hq : q ≠ []) (hdir : s.lookup q = some .dir)
    (hempty : EmptyDir t p) (r : List String) :
    (t.putBack p (normalised (s.contents q))).lookup (p ++ r) = (s.lookup (q ++ r)).map Entry.normal := by
  have hnodup : ((normalised (s.contents q)).map Prod.fst).Nodup := by
    rw [fst_normalised]
    exact nodup_contents s q
  by_cases hr : r = []
  · rw [lookup_putBack_dir hempty hnodup (.inl hr), hr, List.append_nil, hdir]
    rfl
  · cases he : s.lookup (q ++ r) with
    | some e =>
      refine lookup_putBack_of_mem hnodup hr ?_
      exact List.mem_map.mpr ⟨(r, e), (mem_contents hq).mpr he, rfl⟩
    | none =>
      refine lookup_putBack_new hempty hr fun hmem => ?_
      rw [fst_normalised] at hmem
      obtain ⟨⟨r', e⟩, hx, rfl⟩ := List.mem_map.mp hmem
      rw [(mem_contents hq).mp hx] at he
      cases he

/-- They are what they were at every path exactly when the links are written so. -/
theorem same_putBack_contents_iff {s : FileTree β} {q : PosixPath} (hq : q ≠ []) (hdir : s.lookup q = some .dir)
    (hempty : EmptyDir t p) :
    (∀ r, (t.putBack p (normalised (s.contents q))).lookup (p ++ r) = s.lookup (q ++ r)) ↔
      Normal (s.contents q) := by
  simp only [lookup_putBack_contents hq hdir hempty]
  constructor
  · rintro h ⟨r, e⟩ hx
    have hr := h r
    rw [(mem_contents hq).mp hx] at hr
    exact Option.some.inj hr
  · intro h r
    cases he : s.lookup (q ++ r) with
    | none => rfl
    | some e => exact congrArg some (h _ ((mem_contents hq).mpr he))

end FileTree

namespace TarFile

open Exceptional FileOps FileTree

variable {β : Type}

/-- The member an entry becomes. -/
def member (base : String) (x : List String × Entry β) : Member β := ⟨base :: x.1, kindOf x.2⟩

/-- `add` of a directory lists its contents. -/
theorem add_eq_ok {p : PosixPath} {base : String} {d d' : Disk β} {ms : List (Member β)}
    (hp : Leads d.tree false p) (h : add p base d = .ok ms d') :
    ms = (d.tree.contents p).map (member base) ∧ d = d' := by
  obtain ⟨hadd, rfl⟩ := look_eq_ok.mp h
  split at hadd
  · next q hq =>
    obtain rfl := hp q hq
    split at hadd
    · rw [← Option.some.inj hadd, contents, List.map_map]
      exact ⟨rfl, rfl⟩
    · cases hadd
  · cases hadd

/-- The filter lets an entry pass that is no link, or a relative one that leads below the root of the
extraction. -/
def Passes (t : FileTree β) (dest : PosixPath) (base : String) (x : List String × Entry β) : Prop :=
  ∀ tgt, x.2 = .symlink tgt →
    tgt.isAbsolute = false ∧ Below t dest (dest ++ (base :: x.1).dropLast ++ tgt)

/-- Each entry of a listing passes when those before it have been put back, `before` to begin with. -/
def AllPass (t : FileTree β) (dest : PosixPath) (base : String) (before : List (List String × Entry β)) :
    List (List String × Entry β) → Prop
  | [] => True
  | x :: xs => Passes (t.putBack (dest ++ [base]) (normalised before)) dest base x ∧
      AllPass t dest base (before ++ [x]) xs

/-- One entry more passes. -/
theorem allPass_concat {t : FileTree β} {dest : PosixPath} {base : String}
    {before xs : List (List String × Entry β)} {x : List String × Entry β} :
    AllPass t dest base before (xs ++ [x]) ↔ AllPass t dest base before xs ∧
      Passes (t.putBack (dest ++ [base]) (normalised (before ++ xs))) dest base x := by
  induction xs generalizing before with
  | nil => simp [AllPass]
  | cons y xs ih => simp [AllPass, ih, and_assoc]

/-- Without a link everything passes. -/
theorem allPass_of_linkless {t : FileTree β} {dest : PosixPath} {base : String}
    {before xs : List (List String × Entry β)} (h : ∀ x ∈ xs, ∀ tgt, x.2 ≠ .symlink tgt) :
    AllPass t dest base before xs := by
  induction xs generalizing before with
  | nil => trivial
  | cons x xs ih =>
    exact ⟨fun tgt htgt => absurd htgt (h x List.mem_cons_self tgt),
      ih fun y hy => h y (List.mem_cons_of_mem _ hy)⟩

section Extract

variable [Content β] {t : FileTree β} {dest : PosixPath} {base : String} {ms : List (Member β)}
  {before : List (Member β)} {xs : List (List String × Entry β)} {x : List String × Entry β}

/-- Where a member of a listing goes: its names are plain, no link is on the way, and its directory is there. -/
structure Place (t : FileTree β) (p : PosixPath) : Prop where
  plain : ∀ n ∈ p, PosixPath.isPlain n = true
  noLink : NoLink t p
  dir : t.lookup p.dropLast = some .dir

omit [Content β] in
theorem Place.realpathStrict (ht : IsTree t) {p : PosixPath} (h : Place t p) : t.realpathStrict p = some p := by
  refine realpathStrict_of_noLink (fun n hn => PosixPath.isName_of_plain (h.plain n hn)) h.noLink
    fun q b hq hne he => ?_
  have hdir : q <+: p.dropLast := by
    rcases PosixPath.eq_nil_or_concat p with rfl | ⟨d, n, rfl⟩
    · exact absurd (List.prefix_nil.mp hq) hne
    · rw [List.dropLast_concat]
      exact (List.prefix_concat_iff.mp hq).resolve_left hne
  obtain rfl := ht.eq_of_prefix h.dir hdir (by simp [he])
  rw [h.dir] at he
  cases he

omit [Content β] in
/-- **The filter on a member of a listing**: it passes as its entry does, and its link target is normalised. -/
theorem dataFilter_member {m : Member β} (ht : IsTree t) (hplace : Place t (dest ++ base :: x.1)) :
    dataFilter t dest (member base x) = .ok m ↔ Passes t dest base x ∧ m = member base (x.1, x.2.normal) := by
  have hroot : t.realpathStrict dest = some dest := by
    refine realpathStrict_of_noLink
      (fun n hn => PosixPath.isName_of_plain (hplace.plain n (List.mem_append_left _ hn)))
      (hplace.noLink.mono (List.prefix_append _ _)) fun q b hq hne he => ?_
    have habove : q <+: (dest ++ base :: x.1).dropLast := by
      rw [List.dropLast_append_of_ne_nil (by simp)]
      exact hq.trans (List.prefix_append _ _)
    obtain rfl := ht.eq_of_prefix hplace.dir habove (by simp [he])
    rw [hplace.dir] at he
    cases he
  have hname : (base :: x.1).dropWhile (· = "") = base :: x.1 :=
    dropWhile_of_plain fun n hn => hplace.plain n (List.mem_append_right _ hn)
  have hbelow : Below t dest (dest ++ base :: x.1) :=
    ⟨_, hplace.realpathStrict ht, List.prefix_append _ _⟩
  rw [dataFilter_eq_ok]
  obtain ⟨r, e⟩ := x
  simp only [hroot, Option.some.injEq, exists_eq_left', member] at hname hbelow ⊢
  rw [hname]
  cases e <;> simp [hbelow, LinkPasses, Passes, kindOf, normKind, Entry.normal]

omit [Content β] in
/-- Where the directory of a place is there, none is made. -/
theorem makeUpperdirs_run (ht : IsTree t) {p : PosixPath} (hplain : ∀ n ∈ p, PosixPath.isPlain n = true)
    (hdir : t.lookup p.dropLast = some .dir) (fates : List Fate) :
    makeUpperdirs p ⟨t, fates⟩ = .ok () ⟨t, fates⟩ := by
  have hthere : pathExists (PathText.dirname p) ⟨t, fates⟩ = .ok true ⟨t, fates⟩ :=
    look_run (by rw [dirname_of_plain hplain, ht.stat_of_lookup hdir (by simp)]; rfl) fates
  rw [makeUpperdirs, bind_run_of_ok hthere]
  rfl

/-- An entry that is extracted into a directory where nothing of its name is. -/
theorem extractMember_new {q : PosixPath} {n : String} {fuel : ℕ} {name : PathText} (ht : IsTree t)
    (hdir : t.lookup q = some .dir) (hn : PosixPath.isPlain n = true) (hnew : t.lookup (q ++ [n]) = none)
    (e : Entry β) :
    extractMember dest ms (q ++ [n]) (fuel + 1) false before [] ⟨name, kindOf e⟩ ⟨t, []⟩ =
      .ok [] ⟨t.set (q ++ [n]) e, []⟩ := by
  have hplain : ∀ m ∈ q ++ [n], PosixPath.isPlain m = true := by
    intro m hm
    rcases List.mem_append.mp hm with hm | hm
    · exact ht.plain_of_lookup hdir m hm
    · exact List.mem_singleton.mp hm ▸ hn
  have hlocate : ∀ follow, t.locate follow (q ++ [n]) = some (q ++ [n]) := fun _ =>
    ht.locate_concat hdir (PosixPath.isName_of_plain hn) fun _ he => by rw [hnew] at he; cases he
  have hstat : t.stat (q ++ [n]) = none := by
    unfold FileTree.stat
    rw [hlocate, Option.bind_some, hnew]
  have hupper : makeUpperdirs (q ++ [n]) ⟨t, []⟩ = .ok () ⟨t, []⟩ := makeUpperdirs_run ht hplain (by simpa) []
  unfold extractMember
  rw [bind_run_of_ok hupper]
  cases e with
  | dir =>
    have hmade : makedir (q ++ [n]) ⟨t, []⟩ = .ok () ⟨t.set (q ++ [n]) .dir, []⟩ :=
      effect_run _ _ (by simp [hstat, FileTree.mkdir, hlocate, hnew])
    exact bind_run_of_ok hmade
  | file b =>
    have hwrite : writeBytes (q ++ [n]) b ⟨t, []⟩ = .ok () ⟨t.set (q ++ [n]) (.file b), []⟩ :=
      writeBytes_run (by simp [FileTree.write, hlocate, hnew])
    rw [← writeThrough_nil] at hwrite
    exact bind_run_of_ok hwrite
  | symlink tgt =>
    have hmade : makeSymlink [] (q ++ [n]) tgt ⟨t, []⟩ =
        .ok (true, []) ⟨t.set (q ++ [n]) (.symlink tgt), []⟩ := by
      have hlexists : lexists (q ++ [n]) ⟨t, []⟩ = .ok false ⟨t, []⟩ :=
        look_run (by rw [hlocate]; simp [hnew]) []
      have hsymlink : tried (symlink (q ++ [n]) tgt) ⟨t, []⟩ = .ok true ⟨t.set (q ++ [n]) (.symlink tgt), []⟩ :=
        tried_eq_ok.mpr (.inl ⟨rfl, symlink_run (by simp [FileTree.symlink, hlocate, hnew])⟩)
      have hplace : look (fun t => some (t.locate false (q ++ [n]))) .osError ⟨t, []⟩ =
          .ok (some (q ++ [n])) (⟨t, []⟩ : Disk β) :=
        look_run (by rw [hlocate]) []
      rw [makeSymlink, bind_run_of_ok hplace, bind_run_of_ok hlexists]
      exact bind_run_of_ok hsymlink
    exact bind_run_of_ok hmade

omit [Content β] in
/-- The next member of a listing goes where one can be written. -/
theorem place_of_listed (ht : IsTree t) (hplain : ∀ n ∈ dest ++ [base], PosixPath.isPlain n = true)
    (hempty : EmptyDir t (dest ++ [base])) (hxs : Listed (xs ++ [x])) :
    Place (t.putBack (dest ++ [base]) (normalised xs)) (dest ++ base :: x.1) := by
  have hnormal : Listed (normalised xs ++ normalised [x]) := normalised_append xs [x] ▸ hxs.normalised
  have htree := isTree_putBack ht hempty hnormal.left
  obtain ⟨r, e⟩ := x
  rcases PosixPath.eq_nil_or_concat r with rfl | ⟨r, n, rfl⟩
  · have hdir : (t.putBack (dest ++ [base]) (normalised xs)).lookup (dest ++ [base]) = some .dir := by
      simpa using lookup_putBack_dir hempty hnormal.left.nodup (.inl rfl)
    refine ⟨hplain, htree.noLink_of_dir hdir, ?_⟩
    rw [List.dropLast_concat]
    exact htree.dir_of_prefix hdir (PosixPath.prefix_concat_self _ _) (PosixPath.ne_concat_self _ _)
  · obtain ⟨hdir, hnew, hn⟩ := hnormal.next hempty
    have happ : dest ++ base :: (r ++ [n]) = dest ++ [base] ++ r ++ [n] := by simp
    rw [happ]
    refine ⟨fun m hm => ?_, (htree.noLink_of_dir hdir).concat fun tgt he => ?_, by rwa [List.dropLast_concat]⟩
    · rcases List.mem_append.mp hm with hm | hm
      · exact htree.plain_of_lookup hdir m hm
      · exact List.mem_singleton.mp hm ▸ hn
    · rw [hnew] at he
      cases he

/-- One member of a listing, extracted after those before it. -/
theorem extractNext_member (ht : IsTree t) (hplain : ∀ n ∈ dest ++ [base], PosixPath.isPlain n = true)
    (hempty : EmptyDir t (dest ++ [base])) (hxs : Listed (xs ++ [x]))
    (h : Passes (t.putBack (dest ++ [base]) (normalised xs)) dest base x) :
    extractNext dest ms (before, []) (member base x) ⟨t.putBack (dest ++ [base]) (normalised xs), []⟩ =
      .ok (member base x :: before, []) ⟨t.putBack (dest ++ [base]) (normalised (xs ++ [x])), []⟩ := by
  have hnormal : Listed (normalised xs ++ normalised [x]) := normalised_append xs [x] ▸ hxs.normalised
  have htree := isTree_putBack ht hempty hnormal.left
  have hplace := place_of_listed ht hplain hempty hxs
  have hfilter : consult (fun t => dataFilter t dest (member base x))
      ⟨t.putBack (dest ++ [base]) (normalised xs), []⟩ =
      .ok (member base (x.1, x.2.normal)) ⟨t.putBack (dest ++ [base]) (normalised xs), []⟩ :=
    consult_eq_ok.mpr ⟨(dataFilter_member htree hplace).mpr ⟨h, rfl⟩, rfl⟩
  have hpath : (dest ++ base :: x.1).rdropWhile (· = "") = dest ++ base :: x.1 :=
    rdropWhile_of_plain hplace.plain
  have hmember : extractMember dest ms (dest ++ base :: x.1) (ms.length + 0 + 1) false before []
      (member base (x.1, x.2.normal)) ⟨t.putBack (dest ++ [base]) (normalised xs), []⟩ =
      .ok [] ⟨t.putBack (dest ++ [base]) (normalised (xs ++ [x])), []⟩ := by
    rw [normalised_append, show normalised [x] = [(x.1, x.2.normal)] from rfl, putBack_concat]
    obtain ⟨r, e⟩ := x
    rcases PosixPath.eq_nil_or_concat r with rfl | ⟨r, n, rfl⟩
    · -- the directory itself is there
      obtain rfl : e = .dir := hxs.root e (by simp)
      have hdir : (t.putBack (dest ++ [base]) (normalised xs)).lookup (dest ++ [base]) = some .dir := by
        simpa using lookup_putBack_dir hempty hnormal.left.nodup (.inl rfl)
      have hmade : makedir (dest ++ [base]) ⟨t.putBack (dest ++ [base]) (normalised xs), []⟩ =
          .ok () ⟨t.putBack (dest ++ [base]) (normalised xs), []⟩ :=
        effect_run _ _ (by rw [if_pos (htree.stat_of_lookup hdir (by simp))])
      unfold extractMember
      rw [bind_run_of_ok (makeUpperdirs_run htree hplain hplace.dir []), if_pos rfl]
      exact bind_run_of_ok hmade
    · obtain ⟨hdir, hnew, hn⟩ := hnormal.next hempty
      have happ : dest ++ base :: (r ++ [n]) = dest ++ [base] ++ r ++ [n] := by simp
      have happ' : dest ++ [base] ++ (r ++ [n]) = dest ++ [base] ++ r ++ [n] := by simp
      rw [if_neg (by simp), happ, happ']
      exact extractMember_new htree hdir hn hnew _
  have hone : extractOne dest ms before [] (member base x) ⟨t.putBack (dest ++ [base]) (normalised xs), []⟩ =
      .ok [] ⟨t.putBack (dest ++ [base]) (normalised (xs ++ [x])), []⟩ := by
    rw [extractOne, bind_run_of_ok hfilter, bind_run_of_ok (get_run _)]
    show extractMember dest ms ((dest ++ base :: x.1).rdropWhile (· = "")) _ _ _ _ _ _ = _
    rw [hpath]
    exact hmember
  exact bind_run_of_ok hone

/-- A member of a listing that is extracted has passed. -/
theorem passes_of_extractNext {state : List (Member β) × Sharing} {d' : Disk β}
    {fates : List Fate} (ht : IsTree t) (hplain : ∀ n ∈ dest ++ [base], PosixPath.isPlain n = true)
    (hempty : EmptyDir t (dest ++ [base])) (hxs : Listed (xs ++ [x]))
    (h : extractNext dest ms (before, []) (member base x)
      ⟨t.putBack (dest ++ [base]) (normalised xs), fates⟩ = .ok state d') :
    Passes (t.putBack (dest ++ [base]) (normalised xs)) dest base x := by
  have hnormal : Listed (normalised xs ++ normalised [x]) := normalised_append xs [x] ▸ hxs.normalised
  obtain ⟨shared, d₁, hone, -⟩ := bind_eq_ok.mp h
  obtain ⟨m, d₂, hfilter, -⟩ := bind_eq_ok.mp hone
  exact ((dataFilter_member (isTree_putBack ht hempty hnormal.left) (place_of_listed ht hplain hempty hxs)).mp
    (consult_eq_ok.mp hfilter).1).1

/-- What passes is extracted, and put back. -/
theorem extract_of_allPass {ys : List (List String × Entry β)} (ms before : List (Member β)) (ht : IsTree t)
    (hplain : ∀ n ∈ dest ++ [base], PosixPath.isPlain n = true) (hempty : EmptyDir t (dest ++ [base]))
    (hxs : Listed (xs ++ ys)) (h : AllPass t dest base xs ys) :
    ∃ before', (ys.map (member base)).foldlM (extractNext dest ms) (before, [])
        ⟨t.putBack (dest ++ [base]) (normalised xs), []⟩ =
      .ok (before', []) ⟨t.putBack (dest ++ [base]) (normalised (xs ++ ys)), []⟩ := by
  induction ys generalizing xs before with
  | nil =>
    rw [List.append_nil]
    exact ⟨before, rfl⟩
  | cons y ys ih =>
    have hlisted : Listed ((xs ++ [y]) ++ ys) := by simpa using hxs
    obtain ⟨before', hrest⟩ := ih (member base y :: before) hlisted h.2
    refine ⟨before', ?_⟩
    rw [List.map_cons, List.foldlM_cons,
      bind_run_of_ok (extractNext_member ht hplain hempty hlisted.left h.1), hrest,
      List.append_assoc, List.singleton_append]

/-- What is extracted has passed. -/
theorem allPass_of_extract {ys : List (List String × Entry β)} {state : List (Member β) × Sharing} {d' : Disk β}
    (ht : IsTree t) (hplain : ∀ n ∈ dest ++ [base], PosixPath.isPlain n = true)
    (hempty : EmptyDir t (dest ++ [base])) (hxs : Listed (xs ++ ys))
    (h : (ys.map (member base)).foldlM (extractNext dest ms) (before, [])
      ⟨t.putBack (dest ++ [base]) (normalised xs), []⟩ = .ok state d') :
    AllPass t dest base xs ys := by
  induction ys generalizing xs before with
  | nil => trivial
  | cons y ys ih =>
    have hlisted : Listed ((xs ++ [y]) ++ ys) := by simpa using hxs
    rw [List.map_cons, List.foldlM_cons] at h
    obtain ⟨_, d₁, hfirst, hrest⟩ := bind_eq_ok.mp h
    have hpass := passes_of_extractNext ht hplain hempty hlisted.left hfirst
    rw [extractNext_member ht hplain hempty hlisted.left hpass] at hfirst
    obtain ⟨rfl, rfl⟩ := EStateM.Result.ok.inj hfirst
    exact ⟨hpass, ih hlisted hrest⟩

omit [Content β] in
/-- A directory of the listing is found again at the end. -/
theorem fixup_run {r : List String} (ht : IsTree t) (hempty : EmptyDir t (dest ++ [base])) (hxs : Listed xs)
    (hr : (r, .dir) ∈ xs) :
    fixup dest (member base (r, .dir)) ⟨t.putBack (dest ++ [base]) (normalised xs), []⟩ =
      .ok () ⟨t.putBack (dest ++ [base]) (normalised xs), []⟩ := by
  have htree := isTree_putBack ht hempty hxs.normalised
  have hdir : (t.putBack (dest ++ [base]) (normalised xs)).lookup (dest ++ base :: r) = some .dir := by
    simpa using lookup_putBack_dir hempty hxs.normalised.nodup (.inr (mem_normalised_dir.mpr hr))
  refine look_run ?_ []
  split
  · rfl
  · next m hm =>
    obtain ⟨root, -, -, -, rfl⟩ := dataFilter_eq_ok.mp hm
    have hname : (base :: r).dropWhile (· = "") = base :: r :=
      dropWhile_of_plain fun n hn => htree.plain_of_lookup hdir n (List.mem_append_right _ hn)
    have hwalk : (t.putBack (dest ++ [base]) (normalised xs)).walk false (dest ++ base :: r) =
        .ok (dest ++ base :: r) :=
      walkFrom_eq_ok.mpr (locate_eq_some.mp (htree.locate_self hdir (by simp)))
    simp only [member, hname, hwalk]

/-- **The archive of a listing is extracted over an empty directory exactly when** all of it passes, and
then it is put back, its link targets normalised. -/
theorem extractall_listed_iff {shared : Sharing} {d' : Disk β} (ht : IsTree t)
    (hplain : ∀ n ∈ dest ++ [base], PosixPath.isPlain n = true) (hempty : EmptyDir t (dest ++ [base]))
    (hxs : Listed xs) :
    extractall dest (xs.map (member base)) ⟨t, []⟩ = .ok shared d' ↔
      AllPass t dest base [] xs ∧ shared = [] ∧ d' = ⟨t.putBack (dest ++ [base]) (normalised xs), []⟩ := by
  have hlisted : Listed ([] ++ xs) := hxs
  have hrun : AllPass t dest base [] xs →
      extractall dest (xs.map (member base)) ⟨t, []⟩ =
        .ok [] ⟨t.putBack (dest ++ [base]) (normalised xs), []⟩ := by
    intro hpass
    obtain ⟨before, hrounds⟩ := extract_of_allPass (xs.map (member base)) [] ht hplain hempty hlisted hpass
    change (xs.map (member base)).foldlM (extractNext dest (xs.map (member base))) ([], [])
      ⟨t, []⟩ = _ at hrounds
    rw [extractall, bind_run_of_ok hrounds]
    refine bind_run_of_ok (forM_run_self fun m hm => ?_)
    obtain ⟨hm, hdir⟩ := List.mem_filter.mp hm
    obtain ⟨⟨r, e⟩, hx, rfl⟩ := List.mem_map.mp hm
    cases e with
    | dir => exact fixup_run ht hempty hxs hx
    | file b => cases hdir
    | symlink tgt => cases hdir
  constructor
  · intro h
    obtain ⟨state, d₁, hrounds, -⟩ := bind_eq_ok.mp h
    have hpass : AllPass t dest base [] xs := allPass_of_extract ht hplain hempty hlisted hrounds
    obtain ⟨rfl, rfl⟩ := EStateM.Result.ok.inj (h.symm.trans (hrun hpass))
    exact ⟨hpass, rfl, rfl⟩
  · rintro ⟨hpass, rfl, rfl⟩
    exact hrun hpass

/-- **Where the filter refuses a member** after a listing, the extraction raises, and the listing is put back. -/
theorem extractall_refused {m : Member β} (rest : List (Member β)) (ht : IsTree t)
    (hplain : ∀ n ∈ dest ++ [base], PosixPath.isPlain n = true) (hempty : EmptyDir t (dest ++ [base]))
    (hxs : Listed xs) (hpass : AllPass t dest base [] xs)
    (hrefused : ∀ m', dataFilter (t.putBack (dest ++ [base]) (normalised xs)) dest m ≠ .ok m') :
    ∃ e, extractall dest (xs.map (member base) ++ m :: rest) ⟨t, []⟩ =
      .error e ⟨t.putBack (dest ++ [base]) (normalised xs), []⟩ := by
  have hlisted : Listed ([] ++ xs) := hxs
  obtain ⟨before, hrounds⟩ := extract_of_allPass (xs.map (member base) ++ m :: rest) [] ht hplain hempty hlisted
    hpass
  cases hfilter : dataFilter (t.putBack (dest ++ [base]) (normalised xs)) dest m with
  | ok m' => exact absurd hfilter (hrefused m')
  | error e =>
    have hconsult : consult (fun t => dataFilter t dest m) ⟨t.putBack (dest ++ [base]) (normalised xs), []⟩ =
        .error e ⟨t.putBack (dest ++ [base]) (normalised xs), []⟩ := consult_eq_error hfilter
    have hround : extractNext dest (xs.map (member base) ++ m :: rest) (before, []) m
        ⟨t.putBack (dest ++ [base]) (normalised xs), []⟩ =
        .error e ⟨t.putBack (dest ++ [base]) (normalised xs), []⟩ :=
      bind_eq_error.mpr (.inl (bind_eq_error.mpr (.inl hconsult)))
    refine ⟨e, bind_eq_error.mpr (.inl ?_)⟩
    rw [List.foldlM_append]
    refine bind_eq_error.mpr (.inr ⟨_, _, hrounds, ?_⟩)
    rw [List.foldlM_cons]
    exact bind_eq_error.mpr (.inl hround)

omit [Content β] in
/-- A listing passes, or the filter refuses one of its members when those before have been put back. -/
theorem allPass_or_refused {ys : List (List String × Entry β)} (ht : IsTree t)
    (hplain : ∀ n ∈ dest ++ [base], PosixPath.isPlain n = true) (hempty : EmptyDir t (dest ++ [base]))
    (hxs : Listed (xs ++ ys)) (hbefore : AllPass t dest base [] xs) :
    AllPass t dest base [] (xs ++ ys) ∨ ∃ zs y rest, xs ++ ys = zs ++ y :: rest ∧ Listed zs ∧
      AllPass t dest base [] zs ∧
        ∀ m', dataFilter (t.putBack (dest ++ [base]) (normalised zs)) dest (member base y) ≠ .ok m' := by
  induction ys generalizing xs with
  | nil => exact .inl (by rwa [List.append_nil])
  | cons y ys ih =>
    have hlisted : Listed ((xs ++ [y]) ++ ys) := by simpa using hxs
    by_cases hpass : Passes (t.putBack (dest ++ [base]) (normalised xs)) dest base y
    · have hstep := ih hlisted (allPass_concat.mpr ⟨hbefore, by simpa using hpass⟩)
      simpa only [List.append_assoc, List.singleton_append] using hstep
    · have hnormal : Listed (normalised xs ++ normalised [y]) :=
        normalised_append xs [y] ▸ hlisted.left.normalised
      refine .inr ⟨xs, y, ys, rfl, hlisted.left.left, hbefore, fun m' hm' => hpass ?_⟩
      exact ((dataFilter_member (isTree_putBack ht hempty hnormal.left)
        (place_of_listed ht hplain hempty hlisted.left)).mp hm').1

end Extract

end TarFile
