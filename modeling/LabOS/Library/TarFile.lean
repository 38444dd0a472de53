import LabOS.Library.Confinement
import Mathlib.Data.List.TakeWhile
import Mathlib.Order.Lex
import Mathlib.Data.String.Basic

/-!
# Archives of directories

`archive.add` of a directory lists what is below it, links as links, and
`extractall(filter="data")` writes the members of an archive under a directory: it
refuses a member whose place, all links followed, is not below that directory, and a
link that points out of it or at an absolute path, and it normalises the targets of links.

A hard link that is extracted is another name of a file, so a later write to either goes to
both. A link that cannot be made is replaced by the member it leads to, looked for in the archive:
anywhere for a symbolic link, before the link for a hard one. Where that is not found, the link is
passed over if an attempt to make it failed, and is an error if there was none.

What a directory was archived into is *tree like*: no member is below another that
is a link, and no two have one name. Extracted where no links are, such an archive writes exactly the
paths its members name (`confined_extractall`).
-/

/-- What an archive member is. -/
inductive MemberKind (β : Type) where
  | dir
  | file (bytes : β)
  | symlink (linkname : PathText)
  | hardlink (linkname : PathText)
  | special
  deriving DecidableEq, Repr

/-- An entry of an archive. -/
structure Member (β : Type) where
  name : PathText
  kind : MemberKind β
  deriving DecidableEq, Repr

namespace TarFile

open Exceptional FileOps FileTree

variable {β : Type}

/-- The member an entry becomes. -/
def kindOf : Entry β → MemberKind β
  | .dir => .dir
  | .file b => .file b
  | .symlink tgt => .symlink tgt

/-- `archive.add(p, arcname)`: the entry and all below it, a directory before what it
holds and names in order. -/
def add (p : PosixPath) (arcname : String) : FileM β (List (Member β)) :=
  look (fun t =>
    match t.locate false p with
    | some q =>
      if (t.lookup q).isSome then
        some <| (t.select (fun x => q.isPrefixOf x.1) fun x y => x.1 ≤ y.1).map fun x =>
          ⟨arcname :: x.1.drop q.length, kindOf x.2⟩
      else none
    | none => none) .osError

/-! ### The filter -/

/-- The filter's check that a path, all links followed, is below `root`. -/
def ensureBelow (t : FileTree β) (root p : PosixPath) : Except FileError Unit :=
  match t.realpathStrict p with
  | none => .error .osError
  | some q => if root <+: q then .ok () else .error .tarError

/-- The `data` filter on one member: the member as it is to be extracted. -/
def dataFilter (t : FileTree β) (dest : PosixPath) (m : Member β) : Except FileError (Member β) :=
  match t.realpathStrict dest with
  | none => .error .osError
  | some root => do
    let name := m.name.dropWhile (· = "")
    ensureBelow t root (root ++ name)
    match m.kind with
    | .dir => return ⟨name, .dir⟩
    | .file b => return ⟨name, .file b⟩
    | .symlink linkname =>
      if linkname.isAbsolute then throw .tarError
      ensureBelow t root (root ++ name.dropLast ++ linkname)
      return ⟨name, .symlink linkname.normpath⟩
    | .hardlink linkname =>
      if linkname.isAbsolute then throw .tarError
      ensureBelow t root (root ++ linkname)
      return ⟨name, .hardlink linkname.normpath⟩
    | .special => throw .tarError

/-! ### Extraction -/

/-- Does `os.mkdir` find something at a path? -/
def occupied (t : FileTree β) (p : PosixPath) : Bool := ((t.locate false p).bind t.lookup).isSome

/-- `os.mkdir` of a directory that is to hold others: `os.makedirs` passes over `FileExistsError` there. -/
def mkdirAbove (above : Bool) (p : PosixPath) : FileM β Unit :=
  effect (fun t => if above && occupied t p then some t else t.mkdir p) fun _ _ t => t

/-- `os.makedirs` of the path with these names, the last one first. -/
def makedirs (above : Bool) : List String → FileM β Unit
  | [] => mkdirAbove above []
  | n :: head => do
    let there ← pathExists head.reverse
    if there then mkdirAbove above (n :: head).reverse
    else do
      makedirs true head
      whenever (n ≠ ".") (mkdirAbove above (n :: head).reverse)

/-- `makedir`: a directory that is there already will do. -/
def makedir (p : PosixPath) : FileM β Unit :=
  effect (fun t => if t.stat p = some .dir then some t else t.mkdir p) fun _ _ t => t

/-- `makelink` of a symbolic link: was it made, and which files then have which names? -/
def makeSymlink (shared : Sharing) (p : PosixPath) (linkname : PathText) : FileM β (Bool × Sharing) := do
  let place ← look (fun t => some (t.locate false p)) .osError
  let there ← lexists p
  let cleared ← tried (whenever there (unlink p))
  if cleared then do
    let made ← tried (symlink p linkname)
    return (made, if there then place.elim shared shared.without else shared)
  else return (false, shared)

/-- `makelink` of a hard link, where its target is there: was it made, and which files then have which names? -/
def makeHardlink (shared : Sharing) (source p : PosixPath) : FileM β (Bool × Sharing) := do
  let places ← look (fun t => some (t.locate false source, t.locate false p)) .osError
  let made ← tried (link source p)
  match made, places with
  | true, (some q, some r) => return (true, shared.link q r)
  | _, _ => return (made, shared)

/-- `_getmember`: the last member of a normalised name, with those before it; the members are listed from the
last on. -/
def getMember (name : PathText) : List (Member β) → Option (Member β × List (Member β))
  | [] => none
  | m :: before => if m.name.normpath = name then some (m, before) else getMember name before

/-- What stands for a link that was not made: the member it leads to, extracted in its place. Where the archive
has none, the link is passed over if an exception has been `caught`, and is an error otherwise. -/
def replaceLink (dest : PosixPath) (extract : List (Member β) → Sharing → Member β → FileM β Sharing)
    (caught : Bool) (shared : Sharing) : Option (Member β × List (Member β)) → FileM β Sharing
  | none => if caught then return shared else throw .keyError
  | some (target, before) => do
    let filtered ← consult fun t => (dataFilter t dest target).mapError fun _ => .tarError
    extract before shared filtered

/-- The directories above a place, where they are not there. -/
def makeUpperdirs (p : PosixPath) : FileM β Unit := do
  let there ← pathExists (PathText.dirname p)
  whenever (!there) (makedirs false ((PathText.dirname p).filter (· ≠ "")).reverse)

/-- `_extract_member`: write a member at the path `p`, and say which files then have which names. The members
`before` it are listed from the last on. A member that stands for a link is an `other` one than was asked for;
where links lead to each other the recursion does not end, and the `fuel` runs out. -/
def extractMember [Content β] (dest : PosixPath) (ms : List (Member β)) (p : PosixPath) :
    ℕ → Bool → List (Member β) → Sharing → Member β → FileM β Sharing
  | 0, _, _, _, _ => throw .recursionError
  | fuel + 1, other, before, shared, m => do
    makeUpperdirs p
    match m.kind with
    | .dir => do
      makedir p
      return shared
    | .file b => do
      writeThrough shared p b
      return shared
    | .symlink linkname => do
      let (made, shared) ← makeSymlink shared p linkname
      if made then return shared
      else
        replaceLink dest (extractMember dest ms p fuel true) true shared
          (getMember (PathText.normpath (PathText.dirname m.name ++ linkname)) ms.reverse)
    | .hardlink linkname => do
      let there ← pathExists (dest ++ linkname)
      -- only the member asked for knows the path of its target
      if there && !other then do
        let (made, shared) ← makeHardlink shared (dest ++ linkname) p
        if made then return shared
        else
          replaceLink dest (extractMember dest ms p fuel true) true shared
            (getMember linkname.normpath before)
      else
        replaceLink dest (extractMember dest ms p fuel true) other shared
          (getMember linkname.normpath before)
    | .special => throw .tarError

/-- `_extract_one`, with the filter before it. -/
def extractOne [Content β] (dest : PosixPath) (ms before : List (Member β)) (shared : Sharing) (m : Member β) :
    FileM β Sharing := do
  let filtered ← consult fun t => dataFilter t dest m
  let d ← get
  extractMember dest ms ((dest ++ filtered.name).rdropWhile (· = "")) (ms.length + d.fates.length + 1) false
    before shared filtered

/-- What is done about a directory at the end: it is looked up again, and a path that leads nowhere is an
error. -/
def fixup (dest : PosixPath) (m : Member β) : FileM β Unit :=
  look (fun t =>
    match dataFilter t dest m with
    | .error _ => some ()
    | .ok m =>
      match t.walk false (dest ++ m.name) with
      | .ok _ => some ()
      | .error .missing => some ()
      | .error _ => none) .osError

/-- One round of `extractall`: the members gone over, the last first, and which files have which names. -/
def extractNext [Content β] (dest : PosixPath) (ms : List (Member β)) (state : List (Member β) × Sharing)
    (m : Member β) : FileM β (List (Member β) × Sharing) := do
  let shared ← extractOne dest ms state.1 state.2 m
  return (m :: state.1, shared)

/-- `archive.extractall(dest, filter="data")`, and which files then have which names. -/
def extractall [Content β] (dest : PosixPath) (ms : List (Member β)) : FileM β Sharing := do
  let (_, shared) ← ms.foldlM (extractNext dest ms) ([], [])
  (ms.filter fun m => decide (m.kind matches .dir)).forM (fixup dest)
  return shared

/-! ### What passes the filter -/

/-- A path, all links followed, is below `root`. -/
def Below (t : FileTree β) (root p : PosixPath) : Prop := ∃ q, t.realpathStrict p = some q ∧ root <+: q

theorem ensureBelow_eq_ok {t : FileTree β} {root p : PosixPath} {u : Unit} :
    ensureBelow t root p = .ok u ↔ Below t root p := by
  unfold ensureBelow Below
  cases t.realpathStrict p with
  | none => simp
  | some q =>
    by_cases hbelow : root <+: q
    · simp [hbelow]
    · simp [hbelow]

private theorem filtered_eq_ok {t : FileTree β} {root p : PosixPath} {m m' : Member β} :
    (do ensureBelow t root p; return m : Except FileError (Member β)) = .ok m' ↔ Below t root p ∧ m' = m := by
  rw [except_bind_eq_ok]
  constructor
  · rintro ⟨_, hbelow, h⟩
    exact ⟨ensureBelow_eq_ok.mp hbelow, (Except.ok.inj h).symm⟩
  · rintro ⟨hbelow, rfl⟩
    exact ⟨(), ensureBelow_eq_ok.mpr hbelow, rfl⟩

/-- What the filter asks of a member that is a link. -/
def LinkPasses (t : FileTree β) (root : PosixPath) (name : PathText) : MemberKind β → Prop
  | .dir | .file _ => True
  | .symlink linkname => linkname.isAbsolute = false ∧ Below t root (root ++ name.dropLast ++ linkname)
  | .hardlink linkname => linkname.isAbsolute = false ∧ Below t root (root ++ linkname)
  | .special => False

/-- What a member is once its link target has been normalised. -/
def normKind : MemberKind β → MemberKind β
  | .symlink linkname => .symlink linkname.normpath
  | .hardlink linkname => .hardlink linkname.normpath
  | kind => kind

/-- **What passes the filter**, and what of it is extracted. -/
theorem dataFilter_eq_ok {t : FileTree β} {dest : PosixPath} {m m' : Member β} :
    dataFilter t dest m = .ok m' ↔ ∃ root, t.realpathStrict dest = some root ∧
      Below t root (root ++ m.name.dropWhile (· = "")) ∧ LinkPasses t root (m.name.dropWhile (· = "")) m.kind ∧
      m' = ⟨m.name.dropWhile (· = ""), normKind m.kind⟩ := by
  unfold dataFilter
  cases t.realpathStrict dest with
  | none => simp
  | some root =>
    simp only [Option.some.injEq, exists_eq_left', except_bind_eq_ok, ensureBelow_eq_ok, exists_and_left,
      exists_const]
    refine and_congr_right fun _ => ?_
    obtain ⟨name, kind⟩ := m
    cases kind with
    | dir => simp [LinkPasses, normKind, pure, Except.pure, eq_comm]
    | file b => simp [LinkPasses, normKind, pure, Except.pure, eq_comm]
    | symlink linkname =>
      cases habsolute : linkname.isAbsolute with
      | true => simp [LinkPasses, habsolute, throw, throwThe, MonadExceptOf.throw, Bind.bind, Except.bind]
      | false => simpa [LinkPasses, habsolute, normKind] using filtered_eq_ok
    | hardlink linkname =>
      cases habsolute : linkname.isAbsolute with
      | true => simp [LinkPasses, habsolute, throw, throwThe, MonadExceptOf.throw, Bind.bind, Except.bind]
      | false => simpa [LinkPasses, habsolute, normKind] using filtered_eq_ok
    | special => simp [LinkPasses, throw, throwThe, MonadExceptOf.throw]

/-! ### Archives made from a directory -/

/-- Members as `add` makes them of a directory under the name `base`. -/
structure TreeLike (base : String) (ms : List (Member β)) : Prop where
  plain : ∀ m ∈ ms, [base] <+: m.name ∧ ∀ n ∈ m.name, PosixPath.isPlain n = true
  kinds : ∀ m ∈ ms, m.kind = .dir ∨ (∃ b, m.kind = .file b) ∨ ∃ tgt, m.kind = .symlink tgt
  nodup : (ms.map Member.name).Nodup
  /-- Nothing is below a link, and nothing else is at its place. -/
  apart : ∀ m ∈ ms, ∀ m' ∈ ms, (∃ tgt, m.kind = .symlink tgt) → m.name <+: m'.name → m' = m

theorem TreeLike.mono {base : String} {ms ms' : List (Member β)} (h : TreeLike base ms)
    (hsub : ms'.Sublist ms) :
    TreeLike base ms' :=
  ⟨fun m hm => h.plain m (hsub.subset hm), fun m hm => h.kinds m (hsub.subset hm), (hsub.map _).nodup h.nodup,
    fun m hm m' hm' => h.apart m (hsub.subset hm) m' (hsub.subset hm')⟩

/-- The members of a directory in a tree: each entry once, under its own name. -/
theorem mem_add {p : PosixPath} {base : String} {d d' : Disk β} {ms : List (Member β)}
    (hp : Leads d.tree false p) (h : add p base d = .ok ms d') {m : Member β} :
    m ∈ ms ↔ ∃ r e, (p ++ r, e) ∈ d.tree.rows ∧ m = ⟨base :: r, kindOf e⟩ := by
  have hadd := (look_eq_ok.mp h).1
  split at hadd
  · next q hq =>
    obtain rfl := hp q hq
    split at hadd
    · obtain rfl := Option.some.inj hadd
      simp only [List.mem_map, Table.mem_select, List.isPrefixOf_iff_prefix]
      constructor
      · rintro ⟨⟨_, e⟩, ⟨hm, r, rfl⟩, rfl⟩
        exact ⟨r, e, hm, by simp⟩
      · rintro ⟨r, e, hm, rfl⟩
        exact ⟨(q ++ r, e), ⟨hm, List.prefix_append _ _⟩, by simp⟩
    · cases hadd
  · cases hadd

/-- No two members of a directory have one name. -/
theorem nodup_add {p : PosixPath} {base : String} {d d' : Disk β} {ms : List (Member β)}
    (hp : Leads d.tree false p) (h : add p base d = .ok ms d') : (ms.map Member.name).Nodup := by
  have hadd := (look_eq_ok.mp h).1
  split at hadd
  · next q hq =>
    obtain rfl := hp q hq
    split at hadd
    · obtain rfl := Option.some.inj hadd
      rw [List.map_map]
      refine List.Nodup.of_map (fun r => q ++ r.tail) ?_
      rw [List.map_map]
      have hpaths : (d.tree.select (fun x => q.isPrefixOf x.1) fun x y => x.1 ≤ y.1).map
          ((fun r => q ++ r.tail) ∘ Member.name ∘ fun x =>
            (⟨base :: x.1.drop q.length, kindOf x.2⟩ : Member β)) =
          (d.tree.select (fun x => q.isPrefixOf x.1) fun x y => x.1 ≤ y.1).map Prod.fst := by
        refine List.map_congr_left fun x hx => ?_
        obtain ⟨r, hr⟩ := List.isPrefixOf_iff_prefix.mp (Table.mem_select.mp hx).2
        simp [← hr]
      rw [hpaths]
      exact d.tree.nodup_select _ _
    · cases hadd
  · cases hadd

/-- **What `add` makes of a directory is tree like.** -/
theorem treeLike_add {p : PosixPath} {base : String} {d d' : Disk β} {ms : List (Member β)}
    (ht : IsTree d.tree) (hp : Leads d.tree false p) (hp0 : p ≠ []) (hbase : PosixPath.isPlain base = true)
    (h : add p base d = .ok ms d') :
    TreeLike base ms := by
  have hlook : ∀ {r e}, (p ++ r, e) ∈ d.tree.rows → d.tree.lookup (p ++ r) = some e :=
    fun hm => lookup_of_mem_rows (by simp [hp0]) hm
  refine ⟨fun m hm => ?_, fun m hm => ?_, nodup_add hp h, fun m hm m' hm' hlink hpre => ?_⟩
  · obtain ⟨r, e, hr, rfl⟩ := (mem_add hp h).mp hm
    refine ⟨⟨r, rfl⟩, fun n hn => ?_⟩
    rcases List.mem_cons.mp hn with rfl | hn
    · exact hbase
    · exact ht.plain_of_lookup (hlook hr) n (by simp [hn])
  · obtain ⟨r, e, -, rfl⟩ := (mem_add hp h).mp hm
    cases e <;> simp [kindOf]
  · obtain ⟨r, e, hr, rfl⟩ := (mem_add hp h).mp hm
    obtain ⟨r', e', hr', rfl⟩ := (mem_add hp h).mp hm'
    obtain ⟨tgt, hk⟩ := hlink
    have hpre : r <+: r' := by simpa using hpre
    have hne : d.tree.lookup (p ++ r) ≠ some .dir := by
      rw [hlook hr]
      rintro he
      cases e <;> simp [kindOf] at hk he
    have heq := ht.eq_of_prefix (hlook hr') ((List.prefix_append_right_inj p).mpr hpre) hne
    obtain rfl := List.append_cancel_left heq
    have hee : e = e' := Option.some.inj ((hlook hr).symm.trans (hlook hr'))
    rw [hee]

/-! ### The calls of an extraction -/

section Calls

variable [Content β] {F : Frame (Disk β)} {d : Disk β} {dest p : PosixPath} {ms : List (Member β)}

omit [Content β] in
/-- The modes that are set in the end change nothing here. -/
theorem within_fixups : Within F ((ms.filter fun m => decide (m.kind matches .dir)).forM (fixup dest)) d :=
  Within.forM (fun _ => True) trivial (fun _ _ _ _ => within_look _ _) fun _ _ _ _ _ _ _ => trivial

/-- What the calls of an extraction that change the disk do. -/
inductive Call : (FileTree β → Option (FileTree β)) →
    ((PosixPath → Bool) → Option ℕ → FileTree β → FileTree β) → Prop
  | mkdirAbove (above : Bool) (p : PosixPath) :
      Call (fun t => if above && occupied t p then some t else t.mkdir p) fun _ _ t => t
  | makedir (p : PosixPath) : Call (fun t => if t.stat p = some .dir then some t else t.mkdir p) fun _ _ t => t
  | write (shared : Sharing) (p : PosixPath) (b : β) : Call (·.writeShared shared p b) fun _ written t =>
      match written with
      | some n => (t.writeShared shared p (Content.truncate n b)).getD t
      | none => t
  | unlink (p : PosixPath) : Call (·.unlink p) fun _ _ t => t
  | symlink (p : PosixPath) (linkname : PathText) : Call (·.symlink p linkname) fun _ _ t => t
  | link (p p' : PosixPath) : Call (·.link p p') fun _ _ t => t

variable (hcall : ∀ {op cutShort}, Call op cutShort → ∀ d : Disk β, Within F (effect op cutShort) d)

omit [Content β] hcall in
theorem within_makedirs_of {names : List String} {above : Bool}
    (hmkdir : ∀ above q (d : Disk β), q <+: names.reverse → Within F (mkdirAbove above q) d) :
    Within F (makedirs above names) d := by
  induction names generalizing above d with
  | nil => exact hmkdir _ _ _ List.prefix_rfl
  | cons n head ih =>
    have hhead : head.reverse <+: (n :: head).reverse := by simp
    refine (within_look _ _).bind fun there d₁ _ _ => ?_
    cases there with
    | true => exact hmkdir _ _ _ List.prefix_rfl
    | false =>
      exact (ih fun above q d hq => hmkdir above q d (hq.trans hhead)).bind fun _ _ _ _ =>
        Within.whenever fun _ => hmkdir _ _ _ List.prefix_rfl

omit [Content β] hcall in
theorem within_makeUpperdirs_of
    (hmkdir : ∀ above q (d : Disk β), q <+: (PathText.dirname p).filter (· ≠ "") →
      Within F (mkdirAbove above q) d) : Within F (makeUpperdirs p) d :=
  (within_look _ _).bind fun _ _ _ _ => Within.whenever fun _ =>
    within_makedirs_of fun above q d hq => hmkdir above q d (by rwa [List.reverse_reverse] at hq)

include hcall

theorem within_makeSymlink_of {shared : Sharing} {linkname : PathText} :
    Within F (makeSymlink shared p linkname) d := by
  refine (within_look _ _).bind fun _ _ _ _ => (within_look _ _).bind fun _ _ _ _ =>
    (Within.tried (Within.whenever fun _ => hcall (.unlink _) _)).bind fun cleared _ _ _ => ?_
  cases cleared with
  | true => exact (Within.tried (hcall (.symlink _ _) _)).bind fun _ _ _ _ => Within.pure _
  | false => exact Within.pure _

theorem within_makeHardlink_of {shared : Sharing} {source : PosixPath} :
    Within F (makeHardlink shared source p) d := by
  refine (within_look _ _).bind fun places _ _ _ => (Within.tried (hcall (.link _ _) _)).bind fun _ _ _ _ => ?_
  split <;> exact Within.pure _

omit [Content β] hcall in
theorem within_replaceLink_of {extract : List (Member β) → Sharing → Member β → FileM β Sharing} {caught : Bool}
    {shared : Sharing} {found : Option (Member β × List (Member β))}
    (hextract : ∀ before shared m d, Within F (extract before shared m) d) :
    Within F (replaceLink dest extract caught shared found) d := by
  cases found with
  | none =>
    cases caught with
    | true => exact Within.pure _
    | false => exact Within.throw _
  | some found => exact (within_consult _).bind fun _ _ _ _ => hextract _ _ _ _

theorem within_extractMember_of {fuel : ℕ} {other : Bool} {before : List (Member β)} {shared : Sharing}
    {m : Member β} : Within F (extractMember dest ms p fuel other before shared m) d := by
  induction fuel generalizing other before shared m d with
  | zero => exact Within.throw _
  | succ fuel ih =>
    have hreplace : ∀ {caught shared found} {d : Disk β},
        Within F (replaceLink dest (extractMember dest ms p fuel true) caught shared found) d :=
      within_replaceLink_of fun _ _ _ _ => ih
    refine (within_makeUpperdirs_of fun _ _ d _ => hcall (.mkdirAbove _ _) d).bind fun _ _ _ _ => ?_
    obtain ⟨name, kind⟩ := m
    cases kind with
    | dir => exact (hcall (.makedir _) _).bind fun _ _ _ _ => Within.pure _
    | file b => exact (hcall (.write _ _ _) _).bind fun _ _ _ _ => Within.pure _
    | symlink linkname =>
      refine (within_makeSymlink_of hcall).bind fun made _ _ _ => ?_
      obtain ⟨_ | _, shared⟩ := made
      · exact hreplace
      · exact Within.pure _
    | hardlink linkname =>
      refine (within_look _ _).bind fun there _ _ _ => ?_
      dsimp only
      split
      · refine (within_makeHardlink_of hcall).bind fun made _ _ _ => ?_
        obtain ⟨_ | _, shared⟩ := made
        · exact hreplace
        · exact Within.pure _
      · exact hreplace
    | special => exact Within.throw _

theorem within_extractNext_of {state : List (Member β) × Sharing} {m : Member β} :
    Within F (extractNext dest ms state m) d :=
  Within.bind ((within_consult _).bind fun _ _ _ _ => Within.get.bind fun _ _ _ _ =>
    within_extractMember_of hcall) fun _ _ _ _ => Within.pure _

theorem within_rounds_of {rest : List (Member β)} {state : List (Member β) × Sharing} :
    Within F (rest.foldlM (extractNext dest ms) state) d :=
  Within.foldlM fun _ _ _ _ => within_extractNext_of hcall

/-- **An extraction stays in a frame** in which each of its calls stays. -/
theorem within_extractall_of : Within F (extractall dest ms) d :=
  (within_rounds_of hcall).bind fun _ _ _ _ => within_fixups.bind fun _ _ _ _ => Within.pure _

end Calls

/-! ### Names that mean what they say -/

theorem dropWhile_of_plain {name : PathText} (h : ∀ n ∈ name, PosixPath.isPlain n = true) :
    name.dropWhile (· = "") = name := by
  cases name with
  | nil => rfl
  | cons n name =>
    have hn := (PosixPath.isName_of_plain (h n List.mem_cons_self)).1
    simp [hn]

theorem rdropWhile_of_plain {p : PosixPath} (h : ∀ n ∈ p, PosixPath.isPlain n = true) :
    p.rdropWhile (· = "") = p := by
  rcases PosixPath.eq_nil_or_concat p with rfl | ⟨d, n, rfl⟩
  · rfl
  · have hn := (PosixPath.isName_of_plain (h n (by simp))).1
    rw [List.rdropWhile_concat_neg]
    simp [hn]

theorem dirname_of_plain {p : PosixPath} (h : ∀ n ∈ p, PosixPath.isPlain n = true) :
    PathText.dirname p = p.dropLast :=
  rdropWhile_of_plain fun n hn => h n (List.dropLast_subset p hn)

theorem filter_of_plain {p : PosixPath} (h : ∀ n ∈ p, PosixPath.isPlain n = true) :
    p.filter (· ≠ "") = p :=
  List.filter_eq_self.mpr fun n hn => decide_eq_true (PosixPath.isName_of_plain (h n hn)).1

theorem normpath_of_plain {p : PathText} (h : ∀ n ∈ p, PosixPath.isPlain n = true) (hp : p ≠ []) :
    p.normpath = p := by
  have hslashes : p.slashes = 0 :=
    PathText.slashes_eq_zero fun hempty => (PosixPath.isName_of_plain (h _ hempty)).1 rfl
  have hfold : ∀ (done l : List String) (absolute : Bool), (∀ n ∈ l, PosixPath.isPlain n = true) →
      l.foldl (PathText.normStep absolute) done = done ++ l := by
    intro done l absolute hl
    induction l generalizing done with
    | nil => simp
    | cons n l ih =>
      have hn := PosixPath.isName_of_plain (hl n List.mem_cons_self)
      rw [List.foldl_cons, ih _ fun m hm => hl m (List.mem_cons_of_mem _ hm)]
      simp [PathText.normStep, hn.1, hn.2.1, hn.2.2]
  have hparts : p.normParts = p := hfold [] p _ h
  rw [PathText.normpath, if_pos hslashes, hparts, if_neg hp]

/-- A member that is found, and the members before it. -/
theorem getMember_eq_some {name : PathText} {l before : List (Member β)} {m : Member β}
    (h : getMember name l = some (m, before)) : m.name.normpath = name ∧ ∃ after, l = after ++ m :: before := by
  induction l with
  | nil => cases h
  | cons x l ih =>
    unfold getMember at h
    split at h
    · next hname =>
      obtain ⟨rfl, rfl⟩ := Prod.mk.inj (Option.some.inj h)
      exact ⟨hname, [], rfl⟩
    · obtain ⟨hname, after, rfl⟩ := ih h
      exact ⟨hname, x :: after, rfl⟩

/-! ### Extracting confined -/

/-- The member `m` of an archive, with the members `before` it from the last on. -/
def At (ms before : List (Member β)) (m : Member β) : Prop := ∃ rest, ms = before.reverse ++ m :: rest

theorem At.mem {ms before : List (Member β)} {m : Member β} (h : At ms before m) : m ∈ ms := by
  obtain ⟨rest, rfl⟩ := h
  simp

theorem at_of_getMember {ms before : List (Member β)} {name : PathText} {m : Member β}
    (h : getMember name ms.reverse = some (m, before)) : At ms before m := by
  obtain ⟨-, after, hsplit⟩ := getMember_eq_some h
  refine ⟨after.reverse, ?_⟩
  rw [← List.reverse_reverse ms, hsplit]
  simp

theorem At.of_getMember {ms before before' : List (Member β)} {name : PathText} {m m' : Member β}
    (hat : At ms before m) (h : getMember name before = some (m', before')) : At ms before' m' := by
  obtain ⟨rest, rfl⟩ := hat
  obtain ⟨-, after, rfl⟩ := getMember_eq_some h
  exact ⟨after.reverse ++ m :: rest, by simp⟩

/-- An archive whose names and hard links are plain, none of them at or below the name of a symbolic link that
comes before. -/
structure Unfollowed (ms : List (Member β)) : Prop where
  plain : ∀ m ∈ ms, ∀ n ∈ m.name, PosixPath.isPlain n = true
  plainLink : ∀ m ∈ ms, ∀ linkname, m.kind = .hardlink linkname → ∀ n ∈ linkname.normpath,
    PosixPath.isPlain n = true
  apart : ∀ before m, At ms before m → ∀ x ∈ before, (∃ linkname, x.kind = .symlink linkname) →
    ¬ x.name <+: m.name
  apartLink : ∀ before m, At ms before m → ∀ x ∈ before, (∃ linkname, x.kind = .symlink linkname) →
    ∀ linkname, m.kind = .hardlink linkname → ¬ x.name <+: linkname.normpath

/-- The archive of a directory is one. -/
theorem TreeLike.unfollowed {base : String} {ms : List (Member β)} (h : TreeLike base ms) : Unfollowed ms := by
  have hnolink : ∀ m ∈ ms, ∀ linkname, m.kind ≠ .hardlink linkname := by
    intro m hm linkname hk
    rcases h.kinds m hm with hk' | ⟨b, hk'⟩ | ⟨tgt, hk'⟩
    · simp [hk'] at hk
    · simp [hk'] at hk
    · simp [hk'] at hk
  refine ⟨fun m hm => (h.plain m hm).2, fun m hm linkname hk => absurd hk (hnolink m hm linkname),
    fun before m hat x hx hlink hpre => ?_,
      fun before m hat x _ _ linkname hk => absurd hk (hnolink m hat.mem linkname)⟩
  obtain ⟨rest, rfl⟩ := hat
  obtain rfl := h.apart x (by simp [hx]) m (by simp) hlink hpre
  have hnodup := h.nodup
  rw [List.map_append] at hnodup
  exact List.disjoint_of_nodup_append hnodup (List.mem_map_of_mem (List.mem_reverse.mpr hx)) (by simp)

section Confined

variable {α : Type} {may may' : PosixPath → Entry β → Prop} {R free : PosixPath → Prop} {d : Disk β}
  {dest p : PosixPath} {ms : List (Member β)}

/-- However a program ends, the tree meets the policy `may` and nothing outside `R` has changed; what it returns
is `good`, in the tree it returns in. -/
structure Confines (may : PosixPath → Entry β → Prop) (R : PosixPath → Prop) (good : α → FileTree β → Prop)
    (x : FileM β α) (d : Disk β) : Prop where
  tidy : Tidy may (endState (x d)).tree
  same : ∀ q, ¬ R q → (endState (x d)).tree.lookup q = d.tree.lookup q
  good : ∀ a d', x d = .ok a d' → good a d'.tree

section Rules

variable {good : α → FileTree β → Prop} {x : FileM β α}

theorem Confines.mono (h : Confines may R good x d) (hle : ∀ q e, may q e → may' q e) :
    Confines may' R good x d :=
  ⟨h.tidy.mono fun q e _ => hle q e, h.same, h.good⟩

theorem Confines.imp {good' : α → FileTree β → Prop} (h : Confines may R good x d)
    (hgood : ∀ a t, good a t → good' a t) : Confines may R good' x d :=
  ⟨h.tidy, h.same, fun a d' hx => hgood a d'.tree (h.good a d' hx)⟩

/-- A looser policy is met too, and the stricter one where the program returns. -/
theorem Confines.weaken (h : Confines may R good x d) (hle : ∀ q e, may q e → may' q e) :
    Confines may' R (fun a t => good a t ∧ Tidy may t) x d := by
  refine ⟨h.tidy.mono fun q e _ => hle q e, h.same, fun a d' hx => ⟨h.good a d' hx, ?_⟩⟩
  have ht := h.tidy
  rwa [hx] at ht

theorem Confines.within (h : Confines may R good x d) : Within (confined may R) x d :=
  fun _ => ⟨h.tidy, h.same⟩

theorem confines_pure {a : α} (ht : Tidy may d.tree) (h : good a d.tree) :
    Confines may R good (pure a : FileM β α) d := by
  refine ⟨ht, fun _ _ => rfl, fun a' d' hpure => ?_⟩
  obtain ⟨rfl, rfl⟩ := pure_eq_ok.mp hpure
  exact h

theorem confines_throw (e : FileError) (ht : Tidy may d.tree) : Confines may R good (throw e : FileM β α) d :=
  ⟨ht, fun _ _ => rfl, fun _ _ h => by cases h⟩

theorem Confines.bind {γ : Type} {good' : γ → FileTree β → Prop} {f : α → FileM β γ}
    (hx : Confines may R good x d)
    (hf : ∀ a d', x d = .ok a d' → Tidy may d'.tree → good a d'.tree → Confines may R good' (f a) d') :
    Confines may R good' (x >>= f) d := by
  cases h : x d with
  | ok a d' =>
    have ht := hx.tidy
    have hsame := hx.same
    rw [h] at ht hsame
    have hrest := hf a d' h ht (hx.good a d' h)
    refine ⟨?_, fun q hq => ?_, fun b d'' hb => ?_⟩
    · rw [bind_run_of_ok h]
      exact hrest.tidy
    · rw [bind_run_of_ok h]
      exact (hrest.same q hq).trans (hsame q hq)
    · rw [bind_run_of_ok h] at hb
      exact hrest.good b d'' hb
  | error e d' =>
    have hraises : (x >>= f) d = .error e d' := bind_eq_error.mpr (.inl h)
    have ht := hx.tidy
    have hsame := hx.same
    rw [h] at ht hsame
    exact ⟨by rw [hraises]; exact ht, by rw [hraises]; exact hsame,
      fun b d'' hb => by rw [hraises] at hb; cases hb⟩

/-- What stays in the frame of a stricter policy leaves the tree to that policy. -/
theorem confines_of_within (h : Within (confined may R) x d) (hle : ∀ q e, may q e → may' q e)
    (ht : Tidy may d.tree) : Confines may' R (fun _ t => Tidy may t) x d := by
  obtain ⟨ht', hsame⟩ := h ht
  exact ⟨ht'.mono fun q e _ => hle q e, hsame, fun a d' hx => (h.of_ok hx ht).1⟩

end Rules

/-- Every name of a file with several names is one of `free`. -/
def Shares (free : PosixPath → Prop) (shared : Sharing) : Prop := ∀ g ∈ shared, ∀ r ∈ g, free r

theorem shares_nil : Shares free [] := fun _ hg => absurd hg List.not_mem_nil

/-- A name that may not be shared is not. -/
theorem Shares.names_eq_nil {shared : Sharing} {q : PosixPath} (h : Shares free shared) (hq : ¬ free q) :
    shared.names q = [] := by
  refine List.eq_nil_iff_forall_not_mem.mpr fun r hr => ?_
  obtain ⟨g, hg, hmem, -⟩ := Sharing.mem_of_mem_names hr
  exact hq (h g hg q hmem)

/-- Where no name may be shared, a file is written as any other. -/
theorem writeThrough_of_shares [Content β] {shared : Sharing}
    (h : Shares (fun _ => False) shared) (p : PosixPath) (b : β) :
    (writeThrough shared p b : FileM β Unit) = writeBytes p b := by
  have hnames : ∀ q, shared.names q = [] := fun q => h.names_eq_nil id
  have hsame : ∀ (t : FileTree β) c, t.writeShared shared p c = t.writeShared [] p c := by
    intro t c
    unfold FileTree.writeShared
    cases t.locate true p with
    | none => rfl
    | some q =>
      simp only [Option.elim_some, hnames]
      rfl
  rw [← writeThrough_nil]
  unfold writeThrough
  simp only [hsame]

theorem Shares.without {shared : Sharing} (h : Shares free shared) (q : PosixPath) :
    Shares free (shared.without q) := by
  intro g hg r hr
  obtain ⟨g', hg', rfl⟩ := List.mem_map.mp hg
  exact h g' hg' r (List.mem_filter.mp hr).1

theorem Shares.link {shared : Sharing} {q r : PosixPath} (h : Shares free shared) (hq : free q) (hr : free r) :
    Shares free (shared.link q r) := by
  intro g hg x hx
  rcases List.mem_cons.mp hg with rfl | hg
  · rcases List.mem_cons.mp hx with rfl | hx
    · exact hr
    · rcases List.mem_cons.mp hx with rfl | hx
      · exact hq
      · obtain ⟨g, hg, -, hx⟩ := Sharing.mem_of_mem_names hx
        exact h g hg x hx
  · exact h g (List.mem_filter.mp hg).1 x hx

/-- The policy `may`, and links at the places of the links of an archive. -/
def withLinks (may : PosixPath → Entry β → Prop) (dest : PosixPath) (ms : List (Member β)) (q : PosixPath)
    (e : Entry β) : Prop :=
  may q e ∨ ∃ m ∈ ms, (∃ linkname, m.kind = .symlink linkname) ∧ q = dest ++ m.name ∧ ∃ tgt, e = .symlink tgt

/-- A policy under which the members of an archive can be extracted where their names say, each in the place of
another, with any file at the places that are `free`, which hard links join. -/
structure Fits [Content β] (may : PosixPath → Entry β → Prop) (free : PosixPath → Prop) (dest : PosixPath)
    (ms : List (Member β)) : Prop where
  firm : ∀ m ∈ ms, Firm may (dest ++ m.name)
  dirs : ∀ m ∈ ms, ∀ q, q <+: dest ++ m.name → may q .dir
  files : ∀ m ∈ ms, ∀ x ∈ ms, ∀ b, x.kind = .file b → may (dest ++ m.name) (.file b) ∧
    ∀ n, may (dest ++ m.name) (.file (Content.truncate n b))
  firmLink : ∀ m ∈ ms, ∀ linkname, m.kind = .hardlink linkname → Firm may (dest ++ linkname.normpath)
  freeLink : ∀ m ∈ ms, ∀ linkname, m.kind = .hardlink linkname →
    free (dest ++ m.name) ∧ free (dest ++ linkname.normpath)
  freely : ∀ r, free r → ∀ b, may r (.file b)

theorem tree_of_effect_error {op : FileTree β → Option (FileTree β)} {e : FileError} {d' : Disk β}
    (h : effect op (fun _ _ t => t) d = .error e d') : d'.tree = d.tree := by
  unfold effect at h
  split at h
  · obtain ⟨-, rfl⟩ := EStateM.Result.error.inj h
    rfl
  · split at h
    · cases h
    · obtain ⟨-, rfl⟩ := EStateM.Result.error.inj h
      rfl

theorem within_mkdirAbove {above : Bool}
    (hp : Tidy may d.tree → ∀ q, d.tree.locate false p = some q → Admits may R q .dir) :
    Within (confined may R) (mkdirAbove above p) d := by
  refine within_effect (fun t' h ht => ?_) fun _ _ => Keeps.refl _
  split at h
  · exact Option.some.inj h ▸ Keeps.refl _ ht
  · exact keeps_mkdir (hp ht) h ht

theorem within_makeUpperdirs (hplain : ∀ n ∈ p, PosixPath.isPlain n = true)
    (hp : ∀ v, v <+: p → ∀ t, Tidy may t → ∀ q, t.locate false v = some q → Admits may R q .dir) :
    Within (confined may R) (makeUpperdirs p) d := by
  refine within_makeUpperdirs_of fun above v d hv => within_mkdirAbove (hp v ?_ d.tree)
  rw [dirname_of_plain hplain, filter_of_plain fun n hn => hplain n (List.dropLast_subset p hn)] at hv
  exact hv.trans (List.dropLast_prefix p)

theorem within_makedir (hp : Tidy may d.tree → ∀ q, d.tree.locate false p = some q → Admits may R q .dir) :
    Within (confined may R) (makedir p) d := by
  refine within_effect (fun t' h ht => ?_) fun _ _ => Keeps.refl _
  split at h
  · exact Option.some.inj h ▸ Keeps.refl _ ht
  · exact keeps_mkdir (hp ht) h ht

/-- A symbolic link is made where the policy admits it, or not made and the tree left to the stricter policy. -/
theorem confines_makeSymlink {shared : Sharing} {linkname : PathText} (hle : ∀ q e, may q e → may' q e)
    (hR : ∀ t, Tidy may t → ∀ q, t.locate false p = some q → ∀ r, q <+: r → R r)
    (hlink : ∀ t, Tidy may t → ∀ q, t.locate false p = some q → Admits may' R q (.symlink linkname))
    (hshared : Shares free shared) (ht : Tidy may d.tree) :
    Confines may' R (fun made t => Shares free made.2 ∧ (made.1 = false → Tidy may t))
      (makeSymlink shared p linkname) d := by
  refine (confines_of_within (within_look _ _) hle ht).bind fun place d₁ _ _ ht₁ =>
    (confines_of_within (within_look _ _) hle ht₁).bind fun there d₂ _ _ ht₂ => ?_
  refine (confines_of_within (Within.tried (Within.whenever fun _ => within_unlink_of (hR _))) hle ht₂).bind
    fun cleared d₃ _ ht₃' ht₃ => ?_
  cases cleared with
  | false => exact confines_pure ht₃' ⟨hshared, fun _ => ht₃⟩
  | true =>
    have hmade : Confines may' R (fun made t => made = false → Tidy may t) (tried (symlink p linkname)) d₃ := by
      have hwithin : Within (confined may' R) (tried (symlink p linkname)) d₃ :=
        Within.tried (within_symlink (hlink _ ht₃))
      obtain ⟨ht₄, hsame⟩ := hwithin ht₃'
      refine ⟨ht₄, hsame, fun made d₄ h₄ => ?_⟩
      rintro rfl
      rcases tried_eq_ok.mp h₄ with ⟨hfalse, -⟩ | ⟨-, e, herror⟩
      · cases hfalse
      · rw [tree_of_effect_error herror]
        exact ht₃
    refine hmade.bind fun made d₄ _ ht₄ hleft => confines_pure ht₄ ⟨?_, hleft⟩
    cases there with
    | false => exact hshared
    | true =>
      cases place with
      | none => exact hshared
      | some q => exact hshared.without q

/-- What stands at `source`, no directory, may be given the second name `p`, and both names are `free`. -/
structure Joins (may : PosixPath → Entry β → Prop) (R free : PosixPath → Prop) (source p : PosixPath) :
    Prop where
  free : ∀ t, Tidy may t → ∀ q r, t.locate false source = some q → t.locate false p = some r → free q ∧ free r
  admits : ∀ t, Tidy may t → ∀ q r e, t.locate false source = some q → t.locate false p = some r →
    t.lookup q = some e → e ≠ .dir → Admits may R r e

/-- A hard link is made where the policy admits it, or not made and the tree left to the policy. -/
theorem confines_makeHardlink {shared : Sharing} {source : PosixPath} (hjoins : Joins may R free source p)
    (hshared : Shares free shared) (ht : Tidy may d.tree) :
    Confines may R (fun made _ => Shares free made.2) (makeHardlink shared source p) d := by
  have hlinked : ∀ {d : Disk β}, Tidy may d.tree → Within (confined may R) (tried (link source p)) d := by
    intro d ht
    refine Within.tried (within_effect (fun t' h ht => ?_) fun _ _ => Keeps.refl _)
    obtain ⟨q, q', e, hq, hq', he, hdir, rfl, hnone⟩ := link_eq_some h
    obtain ⟨hplain, hR, hmay⟩ := hjoins.admits _ ht q q' e hq hq' he hdir
    exact keeps_set hplain (locate_parent ht.tree hq') (by simp [hnone]) hmay hR ht
  refine (confines_of_within (within_look _ _) (fun _ _ => id) ht).bind fun places d₁ h₁ ht₁ _ => ?_
  obtain ⟨hplaces, rfl⟩ := look_eq_ok.mp h₁
  obtain rfl := Option.some.inj hplaces
  refine (confines_of_within (hlinked ht₁) (fun _ _ => id) ht₁).bind fun made d₂ _ ht₂ _ => ?_
  split
  · next q r hpair hmade =>
    obtain ⟨hq, hr⟩ := Prod.mk.inj hpair
    obtain ⟨hfree, hfree'⟩ := hjoins.free _ ht₁ q r hq hr
    exact confines_pure ht₂ (hshared.link hfree hfree')
  · exact confines_pure ht₂ hshared

/-- What stands for a link is confined where the member it leads to is. -/
theorem confines_replaceLink {extract : List (Member β) → Sharing → Member β → FileM β Sharing} {caught : Bool}
    {shared : Sharing} {found : Option (Member β × List (Member β))} (hle : ∀ q e, may q e → may' q e)
    (hextract : ∀ y before, found = some (y, before) → ∀ name (d : Disk β), Tidy may d.tree →
      Confines may' R (fun shared _ => Shares free shared) (extract before shared ⟨name, normKind y.kind⟩) d)
    (hshared : Shares free shared) (ht : Tidy may d.tree) :
    Confines may' R (fun shared _ => Shares free shared) (replaceLink dest extract caught shared found) d := by
  have ht' : Tidy may' d.tree := ht.mono fun q e _ => hle q e
  cases found with
  | none =>
    cases caught with
    | true => exact confines_pure ht' hshared
    | false => exact confines_throw _ ht'
  | some found =>
    obtain ⟨y, before⟩ := found
    refine (confines_of_within (within_consult _) hle ht).bind fun filtered d₁ h₁ _ ht₁ => ?_
    obtain ⟨hfilter, rfl⟩ := consult_eq_ok.mp h₁
    obtain ⟨root, -, -, -, rfl⟩ := dataFilter_eq_ok.mp (mapError_eq_ok.mp hfilter)
    exact hextract y before rfl _ _ ht₁

/-- The member `y`, with those `before'` it, is looked for in the place of the link `x`. -/
inductive StandsFor (ms before : List (Member β)) (x y : Member β) (before' : List (Member β)) : Prop
  | symlink {linkname name : PathText} : x.kind = .symlink linkname → getMember name ms.reverse = some (y, before') →
      StandsFor ms before x y before'
  | hardlink {linkname : PathText} : x.kind = .hardlink linkname →
      getMember linkname.normpath.normpath before = some (y, before') → StandsFor ms before x y before'

theorem StandsFor.at {before before' : List (Member β)} {x y : Member β} (h : StandsFor ms before x y before')
    (hx : At ms before x) : At ms before' y := by
  cases h with
  | symlink _ h => exact at_of_getMember h
  | hardlink _ h => exact hx.of_getMember h

/-- No symbolic link stands for a hard one. -/
theorem Unfollowed.not_symlink_of_getMember {before before' : List (Member β)} {x y : Member β}
    {linkname : PathText} (hms : Unfollowed ms) (hx : At ms before x) (hk : x.kind = .hardlink linkname)
    (h : getMember linkname.normpath.normpath before = some (y, before')) (tgt : PathText) :
    y.kind ≠ .symlink tgt := by
  intro hlink
  obtain ⟨hname, after, hsplit⟩ := getMember_eq_some h
  have hapart := hms.apartLink before x hx y (by simp [hsplit]) ⟨tgt, hlink⟩ linkname hk
  have hplain := hms.plainLink x hx.mem linkname hk
  rw [normpath_of_plain hplain (PathText.normpath_ne_nil _)] at hname
  have hyname : y.name ≠ [] := by
    intro hnil
    rw [hnil] at hname
    have hdot := hplain "." (by rw [← hname]; decide)
    exact (PosixPath.isName_of_plain hdot).2.1 rfl
  rw [normpath_of_plain (hms.plain y (hx.of_getMember h).mem) hyname] at hname
  exact hapart (hname ▸ List.prefix_rfl)

/-- A path where a member that is `fit` may be put, and so may what stands for it. The policy `may` holds until a
symbolic link has been made, and `may'` after that. -/
structure Hosts [Content β] (may may' : PosixPath → Entry β → Prop) (R : PosixPath → Prop) (ms : List (Member β))
    (p : PosixPath) (fit : Member β → Prop) : Prop where
  stricter : ∀ q e, may q e → may' q e
  upper : ∀ d, Within (confined may R) (makeUpperdirs p) d
  dirs : ∀ t, Tidy may t → ∀ q, t.locate false p = some q → Admits may R q .dir ∧ ∀ r, q <+: r → R r
  files : ∀ y, fit y → ∀ b, y.kind = .file b → ∀ t, Tidy may t → ∀ q, t.locate true p = some q →
    Admits may R q (.file b) ∧ ∀ n, Admits may R q (.file (Content.truncate n b))
  links : ∀ y, fit y → ∀ linkname, y.kind = .symlink linkname → ∀ t, Tidy may t → ∀ q,
    t.locate false p = some q → Admits may' R q (.symlink linkname.normpath)
  next : ∀ before x y before', At ms before x → fit x → StandsFor ms before x y before' → fit y

/-- A member that is extracted where it may be put, or what stands for it. -/
theorem confines_extractMember [Content β] {fuel : ℕ} {other : Bool} {before : List (Member β)}
    {shared : Sharing} {name : PathText} {x : Member β} {fit : Member β → Prop}
    (hosts : Hosts may may' R ms p fit) (hfreely : ∀ r, free r → R r ∧ ∀ b, may r (.file b))
    (hx : At ms before x) (hfit : fit x)
    (hhard : other = false → ∀ linkname, x.kind = .hardlink linkname →
      Joins may R free (dest ++ linkname.normpath) p)
    (hshared : Shares free shared) (ht : Tidy may d.tree) :
    Confines may' R (fun shared _ => Shares free shared)
      (extractMember dest ms p fuel other before shared ⟨name, normKind x.kind⟩) d := by
  have hle := hosts.stricter
  induction fuel generalizing other before shared name x d with
  | zero => exact confines_throw _ (ht.mono fun q e _ => hle q e)
  | succ fuel ih =>
    -- what stands for a link is a member that may be put in its place
    have hreplace : ∀ {caught : Bool} {shared : Sharing} {found : Option (Member β × List (Member β))} {d : Disk β},
        (∀ y before', found = some (y, before') → StandsFor ms before x y before') →
        Shares free shared → Tidy may d.tree →
        Confines may' R (fun shared _ => Shares free shared)
          (replaceLink dest (extractMember dest ms p fuel true) caught shared found) d := by
      intro caught shared found d hfound hshared ht
      refine confines_replaceLink hle (fun y before' h name d ht => ?_) hshared ht
      have hstands := hfound y before' h
      exact ih (hstands.at hx) (hosts.next before x y before' hx hfit hstands) (fun h => by cases h) hshared ht
    refine (confines_of_within (hosts.upper d) hle ht).bind fun _ d₁ _ _ ht₁ => ?_
    obtain ⟨xname, kind⟩ := x
    cases kind with
    | dir =>
      exact (confines_of_within (within_makedir fun ht q hq => (hosts.dirs _ ht q hq).1) hle ht₁).bind
        fun _ _ _ ht₂ _ => confines_pure ht₂ hshared
    | file b =>
      have hwritten : Within (confined may R) (writeThrough shared p b) d₁ :=
        within_writeThrough (hosts.files _ hfit b rfl _) fun g hg r hr => hfreely r (hshared g hg r hr)
      exact (confines_of_within hwritten hle ht₁).bind fun _ _ _ ht₂ _ => confines_pure ht₂ hshared
    | symlink linkname =>
      refine (confines_makeSymlink hle (fun t ht q hq => (hosts.dirs t ht q hq).2)
        (hosts.links _ hfit linkname rfl) hshared ht₁).bind fun made d₂ _ ht₂ hmade => ?_
      obtain ⟨_ | _, shared⟩ := made
      · exact hreplace (fun y before' h => .symlink rfl h) hmade.1 (hmade.2 rfl)
      · exact confines_pure ht₂ hmade.1
    | hardlink linkname =>
      refine (confines_of_within (within_look _ _) hle ht₁).bind fun there d₂ _ _ ht₂ => ?_
      dsimp only
      split
      · next hfirst =>
        obtain ⟨-, hother⟩ := Bool.and_eq_true_iff.mp hfirst
        have hjoins := hhard (by simpa using hother) linkname rfl
        refine ((confines_makeHardlink hjoins hshared ht₂).weaken hle).bind fun made d₃ _ ht₃ hgood => ?_
        obtain ⟨_ | _, shared⟩ := made
        · exact hreplace (fun y before' h => .hardlink rfl h) hgood.1 hgood.2
        · exact confines_pure ht₃ hgood.1
      · exact hreplace (fun y before' h => .hardlink rfl h) hshared ht₂
    | special => exact confines_throw _ (ht₁.mono fun q e _ => hle q e)

/-- A firm path hosts what the policy lets stand there. -/
theorem hosts_of_firm [Content β] {fit : Member β → Prop} (hle : ∀ q e, may q e → may' q e) (hp : Firm may p)
    (hdir : ∀ q, q <+: p → may q .dir)
    (hfile : ∀ y, fit y → ∀ b, y.kind = .file b → may p (.file b) ∧ ∀ n, may p (.file (Content.truncate n b)))
    (hlink : ∀ y, fit y → ∀ linkname, y.kind = .symlink linkname → may' p (.symlink linkname.normpath))
    (hR : ∀ q, q <+: p ∨ p <+: q → R q)
    (hnext : ∀ before x y before', At ms before x → fit x → StandsFor ms before x y before' → fit y) :
    Hosts may may' R ms p fit where
  stricter := hle
  upper d := within_makeUpperdirs hp.plain fun v hv t ht =>
    ((hp.mono hv).leads ht).admits ⟨(hp.mono hv).plain, hR v (.inl hv), hdir v hv⟩
  dirs t ht q hq := by
    obtain rfl := hp.leads ht q hq
    exact ⟨⟨hp.plain, hR q (.inl List.prefix_rfl), hdir q List.prefix_rfl⟩, fun r hr => hR r (.inr hr)⟩
  files y hy b hk t ht q hq := by
    obtain rfl := hp.leads ht q hq
    obtain ⟨hmay, hcut⟩ := hfile y hy b hk
    exact ⟨⟨hp.plain, hR q (.inl List.prefix_rfl), hmay⟩, fun n => ⟨hp.plain, hR q (.inl List.prefix_rfl), hcut n⟩⟩
  links y hy linkname hk t ht q hq := by
    obtain rfl := hp.leads ht q hq
    exact ⟨hp.plain, hR q (.inl List.prefix_rfl), hlink y hy linkname hk⟩
  next := hnext

/-- What stands for a link of such an archive may be put where that may: a symbolic link stands for another alone. -/
theorem Unfollowed.next {before before' : List (Member β)} {x y : Member β} (hms : Unfollowed ms)
    (hx : At ms before x)
    (hfit : x ∈ ms ∧ ((∀ tgt, may' p (.symlink tgt)) ∨ ∀ linkname, x.kind ≠ .symlink linkname))
    (hstands : StandsFor ms before x y before') :
    y ∈ ms ∧ ((∀ tgt, may' p (.symlink tgt)) ∨ ∀ linkname, y.kind ≠ .symlink linkname) := by
  refine ⟨(hstands.at hx).mem, ?_⟩
  cases hstands with
  | symlink hk _ => exact .inl (hfit.2.resolve_right fun h => h _ hk)
  | hardlink hk h => exact .inr (hms.not_symlink_of_getMember hx hk h)

/-- A file on a firm path may be given a second name on a firm path. -/
theorem joins_of_firm {source : PosixPath} (hsource : Firm may source) (hp : Firm may p)
    (hfree : free source ∧ free p) (hfreely : ∀ r, free r → R r ∧ ∀ b, may r (.file b)) :
    Joins may R free source p where
  free t ht q r hq hr := by
    rw [hsource.leads ht q hq, hp.leads ht r hr]
    exact hfree
  admits t ht q r e hq hr he hdir := by
    obtain rfl := hsource.leads ht q hq
    obtain rfl := hp.leads ht r hr
    cases e with
    | dir => exact absurd rfl hdir
    | symlink tgt => exact absurd (ht.allowed _ _ he) (hsource.noLink _ List.prefix_rfl tgt)
    | file b => exact ⟨hp.plain, (hfreely _ hfree.2).1, (hfreely _ hfree.2).2 b⟩

theorem firm_withLinks {before : List (Member β)} {r : PosixPath} (h : Firm may (dest ++ r))
    (hfresh : ∀ x ∈ before, (∃ linkname, x.kind = .symlink linkname) → ¬ x.name <+: r) :
    Firm (withLinks may dest before) (dest ++ r) := by
  refine ⟨h.plain, fun q hq tgt hlink => ?_⟩
  rcases hlink with hlink | ⟨x, hx, hkind, rfl, -⟩
  · exact h.noLink q hq tgt hlink
  · exact hfresh x hx hkind ((List.prefix_append_right_inj dest).mp hq)

theorem withLinks_mono {ms' : List (Member β)} (h : ∀ m ∈ ms, m ∈ ms') {q : PosixPath} {e : Entry β}
    (hq : withLinks may dest ms q e) : withLinks may dest ms' q e :=
  hq.imp_right fun ⟨m, hm, hrest⟩ => ⟨m, h m hm, hrest⟩

/-- **One member** of a plain name, at a path that hosts it. -/
theorem confines_extractOne_of [Content β] {before : List (Member β)} {shared : Sharing} {m : Member β}
    {fit : Member β → Prop} (hplain : ∀ n ∈ dest ++ m.name, PosixPath.isPlain n = true)
    (hosts : Hosts may may' R ms (dest ++ m.name) fit) (hfreely : ∀ r, free r → R r ∧ ∀ b, may r (.file b))
    (hat : At ms before m) (hfit : fit m)
    (hhard : ∀ linkname, m.kind = .hardlink linkname →
      Joins may R free (dest ++ linkname.normpath) (dest ++ m.name))
    (hshared : Shares free shared) (ht : Tidy may d.tree) :
    Confines may' R (fun shared _ => Shares free shared) (extractOne dest ms before shared m) d := by
  refine (confines_of_within (within_consult _) hosts.stricter ht).bind fun filtered d₁ h₁ _ ht₁ => ?_
  obtain ⟨hfilter, rfl⟩ := consult_eq_ok.mp h₁
  obtain ⟨root, -, -, -, rfl⟩ := dataFilter_eq_ok.mp hfilter
  refine (confines_of_within Within.get hosts.stricter ht₁).bind fun d₂ d₃ h₃ _ ht₃ => ?_
  rw [dropWhile_of_plain fun n hn => hplain n (List.mem_append_right _ hn), rdropWhile_of_plain hplain]
  exact confines_extractMember hosts hfreely hat hfit (fun _ => hhard) hshared ht₃

/-- **One member**, after those before it have been extracted. -/
theorem confines_extractOne [Content β] {before : List (Member β)} {shared : Sharing} {m : Member β}
    (hms : Unfollowed ms) (hfits : Fits may free dest ms) (hat : At ms before m)
    (hR : ∀ q, q <+: dest ++ m.name ∨ dest ++ m.name <+: q → R q) (hfree : ∀ r, free r → R r)
    (hshared : Shares free shared) (ht : Tidy (withLinks may dest before) d.tree) :
    Confines (withLinks may dest (m :: before)) R (fun shared _ => Shares free shared)
      (extractOne dest ms before shared m) d := by
  have hm := hat.mem
  have hle : ∀ q e, withLinks may dest before q e → withLinks may dest (m :: before) q e :=
    fun q e => withLinks_mono fun x hx => List.mem_cons_of_mem m hx
  have hp := firm_withLinks (hfits.firm m hm) (hms.apart before m hat)
  have hfreely : ∀ r, free r → R r ∧ ∀ b, withLinks may dest before r (.file b) :=
    fun r hr => ⟨hfree r hr, fun b => .inl (hfits.freely r hr b)⟩
  refine confines_extractOne_of hp.plain (hosts_of_firm hle hp (fun q hq => .inl (hfits.dirs m hm q hq))
    (fun y hy b hb => ?_) (fun y hy linkname hk => hy.2.resolve_right (fun h => h linkname hk) _) hR
    fun before x y before' hx hfit hstands => hms.next hx hfit hstands) hfreely hat ⟨hm, ?_⟩
    (fun linkname hk => ?_) hshared ht
  · obtain ⟨hmay, hcut⟩ := hfits.files m hm y hy.1 b hb
    exact ⟨.inl hmay, fun n => .inl (hcut n)⟩
  · by_cases hlink : ∃ linkname, m.kind = .symlink linkname
    · exact .inl fun tgt => .inr ⟨m, List.mem_cons_self, hlink, rfl, tgt, rfl⟩
    · exact .inr fun linkname hk => hlink ⟨linkname, hk⟩
  · obtain ⟨hname, htarget⟩ := hfits.freeLink m hm linkname hk
    exact joins_of_firm (firm_withLinks (hfits.firmLink m hm linkname hk) fun x hx hlink =>
      hms.apartLink before m hat x hx hlink linkname hk) hp ⟨htarget, hname⟩ hfreely

/-- **Any number of rounds**: the members so far are where their names say, and nothing else is touched. -/
theorem confines_rounds [Content β] {before rest later : List (Member β)} {shared : Sharing}
    (hms : Unfollowed ms) (hfits : Fits may free dest ms)
    (hR : ∀ m ∈ ms, ∀ q, q <+: dest ++ m.name ∨ dest ++ m.name <+: q → R q) (hfree : ∀ r, free r → R r)
    (hsplit : ms = before.reverse ++ (rest ++ later))
    (hshared : Shares free shared) (ht : Tidy (withLinks may dest before) d.tree) :
    Confines (withLinks may dest ms) R (fun state _ => Shares free state.2)
      (rest.foldlM (extractNext dest ms) (before, shared)) d := by
  induction rest generalizing before shared d with
  | nil =>
    refine confines_pure (ht.mono fun q e _ => withLinks_mono fun m hm => ?_) hshared
    rw [hsplit]
    exact List.mem_append_left _ (List.mem_reverse.mpr hm)
  | cons m rest ih =>
    have hat : At ms before m := ⟨rest ++ later, by simpa using hsplit⟩
    have hround : Confines (withLinks may dest (m :: before)) R
        (fun state _ => state.1 = m :: before ∧ Shares free state.2)
        (extractNext dest ms (before, shared) m) d :=
      (confines_extractOne hms hfits hat (hR m hat.mem) hfree hshared ht).bind fun _ _ _ ht₁ hgood =>
        confines_pure ht₁ ⟨rfl, hgood⟩
    have hmem : ∀ x ∈ m :: before, x ∈ ms := by
      intro x hx
      rcases List.mem_cons.mp hx with rfl | hx
      · exact hat.mem
      · simp [hsplit, hx]
    rw [List.foldlM_cons]
    refine (hround.weaken fun q e => withLinks_mono hmem).bind fun state d₁ _ _ hgood => ?_
    obtain ⟨before', shared'⟩ := state
    obtain ⟨⟨rfl, hshared'⟩, ht₁⟩ := hgood
    exact ih (by simpa using hsplit) hshared' ht₁

/-- **An archive is extracted where its names say**, and nothing else is touched. -/
theorem confines_extractall [Content β] (hms : Unfollowed ms) (hfits : Fits may free dest ms)
    (hR : ∀ m ∈ ms, ∀ q, q <+: dest ++ m.name ∨ dest ++ m.name <+: q → R q) (hfree : ∀ r, free r → R r)
    (ht : Tidy may d.tree) :
    Confines (withLinks may dest ms) R (fun shared _ => Shares free shared) (extractall dest ms) d := by
  have ht₀ : Tidy (withLinks may dest []) d.tree := ht.mono fun q e _ h => .inl h
  have hsplit : ms = ([] : List (Member β)).reverse ++ (ms ++ []) := by simp
  refine (confines_rounds hms hfits hR hfree hsplit shares_nil ht₀).bind fun state d₁ _ ht₁ hgood => ?_
  exact (confines_of_within within_fixups (fun _ _ => id) ht₁).bind fun _ _ _ ht₂ _ => confines_pure ht₂ hgood

end Confined

end TarFile
