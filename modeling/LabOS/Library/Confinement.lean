import LabOS.Library.FileOps
import Mathlib.Data.List.Infix

/-!
# Programs confined to a part of the disk

A policy `may` says which entries may stand at which path. A tree is *tidy*
under it when nothing else stands there, and a path is *firm* when the policy lets
no link stand on it: a call on a firm path acts on exactly that path. `confined may
R` is the frame of the programs that write only what the policy allows: from a tidy
tree, however they end, the tree is tidy again and only paths in the region `R`
have changed.

## What is proved

* `Firm.leads` and `Firm.leads_child` — where a call on a firm path, or on a name in
  a firm directory, acts.
* `within_makeDirs`, `within_writeBytes`, `within_copy2`, `within_rmtree`, … — every
  operation stays confined to the region its path is in.
-/

namespace FileTree

variable {β : Type} {may : PosixPath → Entry β → Prop}

/-- A tree in which every entry is allowed where it stands. -/
structure Tidy (may : PosixPath → Entry β → Prop) (t : FileTree β) : Prop where
  tree : IsTree t
  allowed : ∀ p e, t.lookup p = some e → may p e

/-- A path of plain names on which the policy lets no link stand. -/
structure Firm (may : PosixPath → Entry β → Prop) (p : PosixPath) : Prop where
  plain : ∀ n ∈ p, PosixPath.isPlain n = true
  noLink : ∀ q, q <+: p → ∀ tgt, ¬ may q (.symlink tgt)

theorem Tidy.mono {may' : PosixPath → Entry β → Prop} {t : FileTree β} (ht : Tidy may t)
    (h : ∀ p e, t.lookup p = some e → may p e → may' p e) : Tidy may' t :=
  ⟨ht.tree, fun p e he => h p e he (ht.allowed p e he)⟩

theorem Firm.mono {p q : PosixPath} (h : Firm may p) (hq : q <+: p) : Firm may q :=
  ⟨fun n hn => h.plain n (hq.subset hn), fun r hr => h.noLink r (hr.trans hq)⟩

theorem Firm.noLink_of_tidy {t : FileTree β} {p : PosixPath} (h : Firm may p)
    (ht : Tidy may t) : NoLink t p :=
  fun q hq tgt he => h.noLink q hq tgt (ht.allowed q _ he)

/-- Where a call on `p` acts, if it does: on `p` itself. -/
def Leads (t : FileTree β) (follow : Bool) (p : PosixPath) : Prop := ∀ q, t.locate follow p = some q → q = p

theorem NoLink.leads {t : FileTree β} {follow : Bool} {p : PosixPath} (h : NoLink t p)
    (hplain : ∀ m ∈ p, PosixPath.isPlain m = true) : Leads t follow p :=
  fun _ hq => locate_eq_of_noLink (fun n hn => PosixPath.isName_of_plain (hplain n hn)) h hq

theorem Firm.leads {t : FileTree β} {follow : Bool} {p : PosixPath} (h : Firm may p) (ht : Tidy may t) :
    Leads t follow p :=
  (h.noLink_of_tidy ht).leads h.plain

theorem NoLink.leads_child {t : FileTree β} {d : PosixPath} {n : String} (h : NoLink t d)
    (hplain : ∀ m ∈ d ++ [n], PosixPath.isPlain m = true) : Leads t false (d ++ [n]) :=
  fun _ hq => locate_eq (fun m hm => PosixPath.isName_of_plain (hplain m hm))
    (fun r tgt hr hor => h r (PosixPath.prefix_of_prefix_concat hr (by simpa using hor)) tgt) hq

theorem Firm.leads_child {t : FileTree β} {d : PosixPath} {n : String} (h : Firm may d) (ht : Tidy may t)
    (hn : PosixPath.isPlain n = true) : Leads t false (d ++ [n]) :=
  (h.noLink_of_tidy ht).leads_child fun m hm => by
    rcases List.mem_append.mp hm with hm | hm
    · exact h.plain m hm
    · exact List.mem_singleton.mp hm ▸ hn

/-- On a tidy tree a firm path resolves to itself. -/
theorem Firm.realpath {t : FileTree β} {p : PosixPath} (h : Firm may p) (ht : Tidy may t) :
    t.realpath p = (p, true) :=
  realpath_of_noLink (fun n hn => PosixPath.isName_of_plain (h.plain n hn)) (h.noLink_of_tidy ht)

/-- What is found at a path that leads to itself stands there. -/
theorem Leads.lookup_of_stat {t : FileTree β} {p : PosixPath} {e : Entry β} (hp : Leads t true p)
    (h : t.stat p = some e) :
    t.lookup p = some e := by
  unfold stat at h
  obtain ⟨q, hq, he⟩ := Option.bind_eq_some_iff.mp h
  exact hp q hq ▸ he

/-- What stands at a path and is no link is found there. -/
theorem IsTree.stat_of_lookup {t : FileTree β} {p : PosixPath} {e : Entry β} (ht : IsTree t)
    (h : t.lookup p = some e) (he : ∀ tgt, e ≠ .symlink tgt) : t.stat p = some e := by
  unfold stat
  rw [ht.locate_self h he]
  exact h

/-- No link stands on the way to a path. -/
def linkless (W : PosixPath) (p : PosixPath) (e : Entry β) : Prop := p <+: W → ∀ tgt, e ≠ .symlink tgt

theorem tidy_linkless {t : FileTree β} {W : PosixPath} : Tidy (linkless W) t ↔ IsTree t ∧ NoLink t W := by
  constructor
  · exact fun h => ⟨h.tree, fun q hq tgt he => h.allowed q _ he hq tgt rfl⟩
  · rintro ⟨ht, hlink⟩
    exact ⟨ht, fun q e he hq tgt htgt => hlink q hq tgt (htgt ▸ he)⟩

theorem firm_linkless {W : PosixPath} (hplain : ∀ n ∈ W, PosixPath.isPlain n = true) :
    Firm (@linkless β W) W :=
  ⟨hplain, fun _ hq tgt hmay => hmay hq tgt rfl⟩

/-- From a tidy tree `t` to a tidy tree `t'`, with changes in `R` only. -/
def Keeps (may : PosixPath → Entry β → Prop) (R : PosixPath → Prop) (t t' : FileTree β) : Prop :=
  Tidy may t → Tidy may t' ∧ ∀ p, ¬ R p → t'.lookup p = t.lookup p

section Keeps

variable {R : PosixPath → Prop} {t t' : FileTree β} {p : PosixPath}

theorem Keeps.refl (t : FileTree β) : Keeps may R t t := fun ht => ⟨ht, fun _ _ => rfl⟩

theorem Keeps.trans {t'' : FileTree β} (h : Keeps may R t t') (h' : Keeps may R t' t'') :
    Keeps may R t t'' := by
  intro ht
  obtain ⟨ht', hout⟩ := h ht
  obtain ⟨ht'', hout'⟩ := h' ht'
  exact ⟨ht'', fun p hp => (hout' p hp).trans (hout p hp)⟩

/-- A resolved path stays one when what changed on the way to it is firm. -/
theorem Keeps.resolved {src : PosixPath} (h : Keeps may R t t') (ht : Tidy may t) (hsrc : Resolved t src)
    (hp : Firm may p) (hR : ∀ q, R q → q <+: src → q <+: p) : Resolved t' src := by
  obtain ⟨ht', hout⟩ := h ht
  refine ⟨fun q hq tgt he => ?_, hsrc.names⟩
  by_cases hRq : R q
  · exact hp.noLink q (hR q hRq hq) tgt (ht'.allowed q _ he)
  · exact hsrc.noLink q hq tgt ((hout q hRq).symm.trans he)

/-- Putting an entry where no directory is, in a directory. -/
theorem keeps_set {e : Entry β} (hplain : ∀ n ∈ p, PosixPath.isPlain n = true)
    (hd : t.lookup p.dropLast = some .dir) (hold : t.lookup p ≠ some .dir) (hmay : may p e) (hR : R p) :
    Keeps may R t (t.set p e) := by
  intro ht
  rcases PosixPath.eq_nil_or_concat p with rfl | ⟨d, n, rfl⟩
  · exact absurd rfl hold
  refine ⟨⟨ht.tree.set (hplain n (by simp)) (by simpa using hd) hold, fun q e' hq => ?_⟩, fun q hq => ?_⟩
  · rw [lookup_set (by simp)] at hq
    split at hq
    · next hqp =>
      obtain rfl := Option.some.inj hq
      exact hqp ▸ hmay
    · exact ht.allowed q e' hq
  · exact lookup_set_ne fun h => hq (h ▸ hR)

/-- Removing what is at `p` and below, but for a part that is closed under going up. -/
theorem keeps_prune {kept : PosixPath → Bool} (hR : ∀ q, p <+: q → R q)
    (hk : ∀ q n, p <+: q → kept (q ++ [n]) = true → (t.lookup (q ++ [n])).isSome → kept q = true) :
    Keeps may R t (t.prune p kept) := by
  intro ht
  refine ⟨⟨ht.tree.prune hk, fun q e hq => ?_⟩, fun q hq => lookup_prune_of_not_below fun h => hq (hR q h)⟩
  by_cases hq0 : q = []
  · rw [hq0, lookup_nil] at hq
    exact hq0 ▸ ht.allowed [] e hq
  · rw [lookup_prune hq0] at hq
    split at hq
    · cases hq
    · exact ht.allowed q e hq

/-- The policy lets the entry stand at the path, in the region. -/
structure Admits (may : PosixPath → Entry β → Prop) (R : PosixPath → Prop) (p : PosixPath) (e : Entry β) :
    Prop where
  plain : ∀ n ∈ p, PosixPath.isPlain n = true
  region : R p
  allowed : may p e

/-- What may be put at a path that leads to itself may be put where it leads. -/
theorem Leads.admits {follow : Bool} {e : Entry β} (hp : Leads t follow p) (h : Admits may R p e) :
    ∀ q, t.locate follow p = some q → Admits may R q e :=
  fun q hq => hp q hq ▸ h

/-- What `mkdir` made: a directory where nothing was. -/
theorem mkdir_eq_some (h : t.mkdir p = some t') :
    ∃ q, t.locate false p = some q ∧ t' = t.set q .dir ∧ t.lookup q = none := by
  unfold mkdir at h
  split at h
  · next q hq =>
    split at h
    · next hnone => exact ⟨q, hq, (Option.some.inj h).symm, Option.isNone_iff_eq_none.mp hnone⟩
    · cases h
  · cases h

theorem keeps_mkdir (hp : ∀ q, t.locate false p = some q → Admits may R q .dir) (h : t.mkdir p = some t') :
    Keeps may R t t' := by
  intro ht
  obtain ⟨q, hq, rfl, hnone⟩ := mkdir_eq_some h
  obtain ⟨hplain, hR, hmay⟩ := hp q hq
  exact keeps_set hplain (locate_parent ht.tree hq) (by simp [hnone]) hmay hR ht

/-- What `symlink` made: a link where nothing was. -/
theorem symlink_eq_some {tgt : PathText} (h : t.symlink p tgt = some t') :
    ∃ q, t.locate false p = some q ∧ t' = t.set q (.symlink tgt) ∧ t.lookup q = none := by
  unfold symlink at h
  split at h
  · next q hq =>
    split at h
    · next hnone => exact ⟨q, hq, (Option.some.inj h).symm, Option.isNone_iff_eq_none.mp hnone⟩
    · cases h
  · cases h

theorem keeps_symlink {tgt : PathText} (hp : ∀ q, t.locate false p = some q → Admits may R q (.symlink tgt))
    (h : t.symlink p tgt = some t') : Keeps may R t t' := by
  intro ht
  obtain ⟨q, hq, rfl, hnone⟩ := symlink_eq_some h
  obtain ⟨hplain, hR, hmay⟩ := hp q hq
  exact keeps_set hplain (locate_parent ht.tree hq) (by simp [hnone]) hmay hR ht

/-- What a write that is done leaves: the file where the path leads, in a directory. -/
theorem write_eq_some {b : β} (h : t.write p b = some t') :
    ∃ q, t.locate true p = some q ∧ t' = t.set q (.file b) ∧ t.lookup q ≠ some .dir := by
  unfold write at h
  split at h
  · next q hq =>
    split at h
    · next hnone => exact ⟨q, hq, (Option.some.inj h).symm, by simp [hnone]⟩
    · next hfile => exact ⟨q, hq, (Option.some.inj h).symm, by simp [hfile]⟩
    · cases h
  · cases h

/-- What is found in a part of a tree is found in the whole tree. -/
theorem stat_mono {e : Entry β} (hsub : ∀ x e, t.lookup x = some e → t'.lookup x = some e)
    (h : t.stat p = some e) : t'.stat p = some e := by
  obtain ⟨q, hq, he⟩ := Option.bind_eq_some_iff.mp h
  exact Option.bind_eq_some_iff.mpr ⟨q, locate_mono hsub hq he, hsub q e he⟩

/-- The last name of a path at which a file is found is plain. -/
theorem plain_name_of_stat {b : β} (ht : IsTree t) (hp : p ≠ []) (h : t.stat p = some (.file b)) :
    PosixPath.isPlain (PosixPath.name p) = true := by
  obtain ⟨q, hq, he⟩ := Option.bind_eq_some_iff.mp h
  rcases PosixPath.eq_nil_or_concat p with rfl | ⟨r, n, rfl⟩
  · exact absurd rfl hp
  · simpa [PosixPath.name] using plain_of_locate ht hq he

/-- A file that has no other name is written at its own. -/
theorem writeShared_nil (t : FileTree β) (p : PosixPath) (b : β) : t.writeShared [] p b = t.write p b := by
  unfold writeShared
  cases t.write p b with
  | none => rfl
  | some t' => cases t.locate true p <;> rfl

theorem lookup_setFiles {names : List PosixPath} {b : β} {q : PosixPath} :
    (t.setFiles names b).lookup q =
      if q ∈ names ∧ ((t.lookup q).bind Entry.bytes?).isSome = true then some (.file b) else t.lookup q := by
  induction names generalizing t with
  | nil => simp [setFiles]
  | cons r names ih =>
    show (setFiles (if ((t.lookup r).bind Entry.bytes?).isSome then t.set r (.file b) else t)
        names b).lookup q =
      _
    rw [ih]
    split
    · next hfile =>
      have hr : r ≠ [] := by
        rintro rfl
        cases hfile
      by_cases hq : q = r
      · subst hq
        rw [lookup_set_self hr]
        simp [hfile, Entry.bytes?]
      · rw [lookup_set_ne hq]
        simp [hq]
    · next hfile =>
      by_cases hq : q = r
      · subst hq
        simp [hfile]
      · simp [hq]

/-- Writing files again where the policy allows it. -/
theorem keeps_setFiles {names : List PosixPath} {b : β} (hnames : ∀ r ∈ names, R r ∧ may r (.file b)) :
    Keeps may R t (t.setFiles names b) := by
  induction names generalizing t with
  | nil => exact Keeps.refl t
  | cons r names ih =>
    have hrest := fun x hx => hnames x (List.mem_cons_of_mem _ hx)
    show Keeps may R t
      (setFiles (if ((t.lookup r).bind Entry.bytes?).isSome then t.set r (.file b) else t) names b)
    split
    · next hfile =>
      obtain ⟨c, hc⟩ := Option.isSome_iff_exists.mp hfile
      obtain ⟨e, he, hbytes⟩ := Option.bind_eq_some_iff.mp hc
      obtain rfl := Entry.bytes?_eq_some.mp hbytes
      obtain ⟨hR, hmay⟩ := hnames r List.mem_cons_self
      refine Keeps.trans (fun ht => ?_) (ih hrest)
      exact keeps_set (ht.tree.plain_of_lookup he) (ht.tree.rooted.dir_parent he) (by simp [he]) hmay hR ht
    · exact ih hrest

/-- What a write that is done leaves where the file has several names. -/
theorem writeShared_eq_some {shared : Sharing} {b : β} (h : t.writeShared shared p b = some t') :
    ∃ q, t.locate true p = some q ∧ t.lookup q ≠ some .dir ∧
      t' = (t.set q (.file b)).setFiles (shared.names q) b := by
  unfold writeShared at h
  obtain ⟨t₁, hwrite, rfl⟩ := Option.map_eq_some_iff.mp h
  obtain ⟨q, hq, rfl, hdir⟩ := write_eq_some hwrite
  exact ⟨q, hq, hdir, by rw [hq]; rfl⟩

/-- What `link` made: a name for a file or a link where nothing was. -/
theorem link_eq_some {p' : PosixPath} (h : t.link p p' = some t') :
    ∃ q q' e, t.locate false p = some q ∧ t.locate false p' = some q' ∧ t.lookup q = some e ∧ e ≠ .dir ∧
      t' = t.set q' e ∧ t.lookup q' = none := by
  unfold link at h
  split at h
  · next q q' hq hq' =>
    split at h
    · next b hb =>
      split at h
      · next hnone =>
        exact ⟨q, q', .file b, hq, hq', hb, by simp, (Option.some.inj h).symm,
          Option.isNone_iff_eq_none.mp hnone⟩
      · cases h
    · next tgt htgt =>
      split at h
      · next hnone =>
        exact ⟨q, q', .symlink tgt, hq, hq', htgt, by simp, (Option.some.inj h).symm,
          Option.isNone_iff_eq_none.mp hnone⟩
      · cases h
    · cases h
  · cases h

theorem keeps_unlink (hR : ∀ q, t.locate false p = some q → ∀ r, q <+: r → R r) (h : t.unlink p = some t') :
    Keeps may R t t' := by
  unfold unlink at h
  split at h
  · next q hq =>
    split at h
    · obtain rfl := Option.some.inj h
      exact keeps_prune (hR q hq) fun _ _ _ h => by cases h
    · obtain rfl := Option.some.inj h
      exact keeps_prune (hR q hq) fun _ _ _ h => by cases h
    · cases h
  · cases h

theorem keeps_rmtree {kept : PosixPath → Bool} (hp : Leads t false p) (hR : ∀ q, p <+: q → R q)
    (h : t.rmtree p kept = some t') : Keeps may R t t' := by
  unfold rmtree at h
  split at h
  · next q hq =>
    obtain rfl := hp q hq
    split at h
    · obtain rfl := Option.some.inj h
      refine keeps_prune hR fun r n _ hr _ => ?_
      simp only [List.any_eq_true, Bool.and_eq_true, List.isPrefixOf_iff_prefix] at hr ⊢
      obtain ⟨y, hy, ⟨hry, hqy⟩, hky⟩ := hr
      exact ⟨y, hy, ⟨(PosixPath.prefix_concat_self r n).trans hry, hqy⟩, hky⟩
    · cases h
  · cases h

end Keeps

end FileTree

namespace FileOps

open Exceptional FileTree

variable {α β ε : Type} {may : PosixPath → Entry β → Prop} {R : PosixPath → Prop} {d : Disk β} {p : PosixPath}

/-- The frame of programs over a disk that stay in a frame on its tree. -/
def onTree (G : Frame (FileTree β)) : Frame (Disk β) where
  rel d d' := G.rel d.tree d'.tree
  refl d := G.refl d.tree
  trans h h' := G.trans h h'

/-- The frame of changes that keep the tree tidy and stay in `R`. -/
def keeping (may : PosixPath → Entry β → Prop) (R : PosixPath → Prop) : Frame (FileTree β) where
  rel := Keeps may R
  refl := Keeps.refl
  trans h h' := h.trans h'

/-- The frame of programs that keep the tree tidy and change only paths in `R`. -/
abbrev confined (may : PosixPath → Entry β → Prop) (R : PosixPath → Prop) : Frame (Disk β) :=
  onTree (keeping may R)

/-- A program confined to a region is confined to a larger one. -/
theorem within_of_subset {R' : PosixPath → Prop} {x : EStateM ε (Disk β) α} (h : Within (confined may R) x d)
    (hR : ∀ p, R p → R' p) : Within (confined may R') x d :=
  fun ht => (h ht).imp_right fun hout p hp => hout p fun hRp => hp (hR p hRp)

/-- What keeps to the frame from a tidy tree keeps to it. -/
theorem within_of_tidy {x : EStateM ε (Disk β) α} (h : Tidy may d.tree → Within (confined may R) x d) :
    Within (confined may R) x d :=
  fun ht => h ht ht

/-! ### Reading -/

@[simp] theorem look_eq_ok {f : FileTree β → Option α} {e : FileError} {a : α} {d' : Disk β} :
    look f e d = .ok a d' ↔ f d.tree = some a ∧ d = d' := by
  unfold look
  rw [bind_eq_ok]
  constructor
  · rintro ⟨_, _, h, h'⟩
    obtain ⟨rfl, rfl⟩ := get_eq_ok.mp h
    exact orRaise_eq_ok.mp h'
  · rintro ⟨h, rfl⟩
    exact ⟨d, d, get_eq_ok.mpr ⟨rfl, rfl⟩, orRaise_eq_ok.mpr ⟨h, rfl⟩⟩

theorem iterdir_eq_ok {names : List String} {d' : Disk β} (h : iterdir p d = .ok names d') :
    (∃ q, d.tree.locate true p = some q ∧ names = d.tree.children q) ∧ d = d' := by
  obtain ⟨hf, rfl⟩ := look_eq_ok.mp h
  refine ⟨?_, rfl⟩
  split at hf
  · next q hq =>
    split at hf
    · exact ⟨q, hq, (Option.some.inj hf).symm⟩
    · cases hf
  · cases hf

theorem within_look {F : Frame (Disk β)} (f : FileTree β → Option α) (e : FileError) :
    Within F (look f e) d :=
  Within.bind Within.get fun _ _ _ _ => Within.orRaise _ _

theorem isDir_eq_true {d' : Disk β} (h : isDir p d = .ok true d') : d.tree.stat p = some .dir := by
  have := (look_eq_ok.mp h).1
  split at this
  · assumption
  · simp at this

theorem isFile_eq_true {d' : Disk β} (h : isFile p d = .ok true d') :
    ∃ b, d.tree.stat p = some (.file b) := by
  have := (look_eq_ok.mp h).1
  split at this
  · next b hb => exact ⟨b, hb⟩
  · simp at this

theorem readBytes_eq_ok {b : β} {d' : Disk β} (h : readBytes p d = .ok b d') :
    d.tree.stat p = some (.file b) ∧ d = d' := by
  obtain ⟨hf, rfl⟩ := look_eq_ok.mp h
  split at hf
  · next hb =>
    obtain rfl := Option.some.inj hf
    exact ⟨hb, rfl⟩
  · cases hf

@[simp] theorem resolve_eq_ok {q : PosixPath} {d' : Disk β} :
    resolve p d = .ok q d' ↔ ((d.tree.realpath p).1 = q ∧ d.tree.loops q = false) ∧ d = d' := by
  unfold resolve
  rw [look_eq_ok]
  cases hloops : d.tree.loops (d.tree.realpath p).1 with
  | true =>
    rw [if_pos rfl]
    constructor
    · rintro ⟨hnone, -⟩
      cases hnone
    · rintro ⟨⟨rfl, hnot⟩, -⟩
      rw [hloops] at hnot
      cases hnot
  | false =>
    simp only [Bool.false_eq_true, if_false, Option.some.injEq]
    constructor
    · rintro ⟨rfl, rfl⟩
      exact ⟨⟨rfl, hloops⟩, rfl⟩
    · rintro ⟨⟨rfl, -⟩, rfl⟩
      exact ⟨rfl, rfl⟩

/-- What is resolved to its end is returned. -/
theorem resolve_of_realpath {q : PosixPath} (h : d.tree.realpath p = (q, true)) : resolve p d = .ok q d := by
  have hres := resolved_of_realpath h
  exact resolve_eq_ok.mpr ⟨⟨congrArg Prod.fst h, loops_of_noLink hres.names hres.noLink⟩, rfl⟩

/-- A path on which no link stands is its own resolution. -/
theorem resolve_of_noLink (hplain : ∀ n ∈ p, PosixPath.isPlain n = true) (hlink : NoLink d.tree p) :
    resolve p d = .ok p d :=
  resolve_of_realpath (realpath_of_noLink (fun n hn => PosixPath.isName_of_plain (hplain n hn)) hlink)

/-- A decision is the one on the tree, and changes nothing. -/
theorem consult_eq_ok {f : FileTree β → Except FileError α} {a : α} {d' : Disk β} :
    consult f d = .ok a d' ↔ f d.tree = .ok a ∧ d = d' := by
  unfold consult
  rw [bind_eq_ok]
  constructor
  · rintro ⟨_, _, h, h'⟩
    obtain ⟨rfl, rfl⟩ := get_eq_ok.mp h
    exact fromExcept_eq_ok.mp h'
  · rintro ⟨h, rfl⟩
    exact ⟨d, d, get_eq_ok.mpr ⟨rfl, rfl⟩, fromExcept_eq_ok.mpr ⟨h, rfl⟩⟩

/-- A refusal is the one on the tree. -/
theorem consult_eq_error {f : FileTree β → Except FileError α} {e : FileError} (h : f d.tree = .error e) :
    consult f d = .error e d := by
  unfold consult
  rw [bind_run_of_ok (get_run d), h]
  rfl

theorem within_consult {F : Frame (Disk β)} (f : FileTree β → Except FileError α) : Within F (consult f) d :=
  Within.bind Within.get fun _ _ _ _ => Within.fromExcept _

/-! ### Changing -/

/-- A call that returns did what it says. -/
theorem op_of_effect {op : FileTree β → Option (FileTree β)} {cutShort u} {d' : Disk β}
    (h : effect op cutShort d = .ok u d') : op d.tree = some d'.tree := by
  unfold effect at h
  split at h
  · cases h
  · split at h
    · next hop =>
      obtain ⟨rfl, rfl⟩ := EStateM.Result.ok.inj h
      exact hop
    · cases h

/-- A file that is written where no link is on the way stands there. -/
theorem set_of_writeBytes [Content β] {b : β} {u : Unit} {d' : Disk β} (hlink : NoLink d.tree p)
    (hplain : ∀ n ∈ p, PosixPath.isPlain n = true) (h : writeBytes p b d = .ok u d') :
    d'.tree = d.tree.set p (.file b) := by
  obtain ⟨q, hq, hset, -⟩ := write_eq_some (op_of_effect h)
  obtain rfl := hlink.leads hplain q hq
  exact hset

/-- A file that is written at a firm path stands there, where the tree is tidy afterwards. -/
theorem lookup_of_writeThrough [Content β] {shared : Sharing} {b : β} {u : Unit} {d' : Disk β} (hp : Firm may p)
    (ht : Tidy may d'.tree) (h : writeThrough shared p b d = .ok u d') : d'.tree.lookup p = some (.file b) := by
  obtain ⟨t₁, hwrite, htree⟩ := Option.map_eq_some_iff.mp (op_of_effect h)
  obtain ⟨q, hq, hset, hdir⟩ := write_eq_some hwrite
  have hkept : ∀ r, ((t₁.lookup r).bind Entry.bytes?).isSome = false ∨ t₁.lookup r = some (.file b) →
      d'.tree.lookup r = t₁.lookup r := by
    intro r hr
    rw [← htree, lookup_setFiles]
    split
    · next hshared => exact (hr.resolve_left (by simp [hshared.2])).symm
    · rfl
  -- a link on the way would be there still, since no link stood where the file is
  have hlink : NoLink d.tree p := by
    intro r hr tgt he
    have hne : r ≠ q := by
      rintro rfl
      simp [write, hq, he] at hwrite
    have hsame : t₁.lookup r = some (.symlink tgt) := by rw [hset, lookup_set_ne hne, he]
    exact hp.noLink r hr tgt (ht.allowed r _ ((hkept r (.inl (by rw [hsame]; rfl))).trans hsame))
  obtain rfl := hlink.leads hp.plain q hq
  have hne : q ≠ [] := by
    rintro rfl
    exact hdir (lookup_nil _)
  have hself : t₁.lookup q = some (.file b) := by rw [hset, lookup_set_self hne]
  exact (hkept q (.inr hself)).trans hself

/-- What is removed, or has been: nothing stands at `p` and below, and all else is as it was. -/
theorem lookup_of_unlink (hp : Leads d.tree false p) {u : Unit} {d' : Disk β} (h : unlink p d = .ok u d') :
    ∀ q, q ≠ [] → d'.tree.lookup q = if p <+: q then none else d.tree.lookup q := by
  intro q hq
  have hop : d.tree.unlink p = some d'.tree := op_of_effect h
  unfold FileTree.unlink at hop
  split at hop
  · next r hr =>
    obtain rfl := hp r hr
    split at hop
    · rw [← Option.some.inj hop, lookup_prune hq]
      simp
    · rw [← Option.some.inj hop, lookup_prune hq]
      simp
    · cases hop
  · cases hop

theorem lookup_of_rmtree (hp : Leads d.tree false p) {u : Unit} {d' : Disk β} (h : rmtree p d = .ok u d') :
    ∀ q, q ≠ [] → d'.tree.lookup q = if p <+: q then none else d.tree.lookup q := by
  intro q hq
  have hop : d.tree.rmtree p (fun _ => false) = some d'.tree := op_of_effect h
  unfold FileTree.rmtree at hop
  split at hop
  · next r hr =>
    obtain rfl := hp r hr
    split at hop
    · rw [← Option.some.inj hop, removeSome, lookup_prune hq]
      simp
    · cases hop
  · cases hop

/-- A call stays in a frame in which what it does stays, and what it leaves when it is interrupted. -/
theorem within_effect {G : Frame (FileTree β)} {op : FileTree β → Option (FileTree β)} {cutShort}
    (hop : ∀ t', op d.tree = some t' → G.rel d.tree t')
    (hcut : ∀ kept written, G.rel d.tree (cutShort kept written d.tree)) :
    Within (onTree G) (effect op cutShort) d := by
  show G.rel d.tree (endState (effect op cutShort d)).tree
  unfold effect
  split
  · exact hcut _ _
  · split
    · next h => exact hop _ h
    · exact G.refl _

theorem within_mkdir (hp : Tidy may d.tree → Leads d.tree false p)
    (hplain : ∀ n ∈ p, PosixPath.isPlain n = true) (hR : R p) (hmay : may p .dir) :
    Within (confined may R) (mkdir p) d :=
  within_effect (fun _ h ht => keeps_mkdir ((hp ht).admits ⟨hplain, hR, hmay⟩) h ht) fun _ _ => Keeps.refl _

theorem within_symlink {tgt : PathText}
    (hp : ∀ q, d.tree.locate false p = some q → Admits may R q (.symlink tgt)) :
    Within (confined may R) (symlink p tgt) d :=
  within_effect (fun _ h ht => keeps_symlink hp h ht) fun _ _ => Keeps.refl _

/-- Removing what a path leads to, where the region has that and all below it. -/
theorem within_unlink_of (hR : Tidy may d.tree → ∀ q, d.tree.locate false p = some q → ∀ r, q <+: r → R r) :
    Within (confined may R) (unlink p) d :=
  within_effect (fun _ h ht => keeps_unlink (hR ht) h ht) fun _ _ => Keeps.refl _

theorem within_unlink (hp : Tidy may d.tree → Leads d.tree false p) (hR : ∀ q, p <+: q → R q) :
    Within (confined may R) (unlink p) d :=
  within_unlink_of fun ht q hq => hp ht q hq ▸ hR

theorem within_rmtree (hp : Tidy may d.tree → Leads d.tree false p) (hR : ∀ q, p <+: q → R q) :
    Within (confined may R) (rmtree p) d := by
  refine within_effect (fun _ h ht => keeps_rmtree (hp ht) hR h ht) fun kept _ ht => ?_
  cases h : d.tree.rmtree p kept with
  | none => exact Keeps.refl _ ht
  | some t' => exact keeps_rmtree (hp ht) hR h ht

/-- Writing a file of several names, all of them where the policy allows what is written. -/
theorem within_writeThrough [Content β] {shared : Sharing} {b : β}
    (hp : Tidy may d.tree → ∀ q, d.tree.locate true p = some q →
      Admits may R q (.file b) ∧ ∀ n, Admits may R q (.file (Content.truncate n b)))
    (hshared : ∀ g ∈ shared, ∀ r ∈ g, R r ∧ ∀ c, may r (.file c)) :
    Within (confined may R) (writeThrough shared p b) d := by
  have hnames : ∀ q, ∀ r ∈ shared.names q, R r ∧ ∀ c, may r (.file c) := by
    intro q r hr
    obtain ⟨g, hg, -, hr⟩ := Sharing.mem_of_mem_names hr
    exact hshared g hg r hr
  have hwrite : ∀ {c : β} {t' : FileTree β},
      (Tidy may d.tree → ∀ q, d.tree.locate true p = some q → Admits may R q (.file c)) →
      d.tree.writeShared shared p c = some t' → Keeps may R d.tree t' := by
    intro c t' hadmits h
    obtain ⟨q, hq, hdir, rfl⟩ := writeShared_eq_some h
    refine Keeps.trans (fun ht => ?_) (keeps_setFiles fun r hr => ⟨(hnames q r hr).1, (hnames q r hr).2 c⟩)
    obtain ⟨hplain, hR, hmay⟩ := hadmits ht q hq
    exact keeps_set hplain (locate_parent ht.tree hq) hdir hmay hR ht
  refine within_effect (fun _ h => hwrite (fun ht q hq => (hp ht q hq).1) h) fun _ written ht => ?_
  cases written with
  | none => exact Keeps.refl _ ht
  | some n =>
    cases h : d.tree.writeShared shared p (Content.truncate n b) with
    | none => simpa [h] using (Keeps.refl _ : Keeps may R d.tree d.tree) ht
    | some t' => simpa [h] using hwrite (fun ht q hq => (hp ht q hq).2 n) h ht

/-- A file without another name is written as any other. -/
theorem writeThrough_nil [Content β] {p : PosixPath} {b : β} :
    (writeThrough [] p b : FileM β Unit) = writeBytes p b := by
  unfold writeThrough writeBytes
  simp only [writeShared_nil]

/-- Writing what the policy allows, whole or cut short. -/
theorem within_writeBytes [Content β] {b : β} (hp : Tidy may d.tree → Leads d.tree true p)
    (hplain : ∀ n ∈ p, PosixPath.isPlain n = true) (hR : R p) (hmay : may p (.file b))
    (hcut : ∀ n, may p (.file (Content.truncate n b))) : Within (confined may R) (writeBytes p b) d :=
  writeThrough_nil (p := p) (b := b) ▸ within_writeThrough
    (fun ht q hq => ⟨(hp ht).admits ⟨hplain, hR, hmay⟩ q hq, fun n => (hp ht).admits ⟨hplain, hR, hcut n⟩ q hq⟩)
    fun _ hg => absurd hg List.not_mem_nil

/-- Making directories stays in a frame in which each `mkdir` stays. -/
theorem within_makeDirs_of {F : Frame (Disk β)} (hmkdir : ∀ q d, q <+: p → Within F (mkdir q) d) :
    Within F (makeDirs p) d := by
  refine Within.forM (fun _ => True) trivial (fun q hq d _ => ?_) fun _ _ _ _ _ _ _ => trivial
  exact (within_look _ _).bind fun _ _ _ _ => Within.whenever fun _ => hmkdir q _ ((List.mem_inits q p).mp hq)

/-- Making the directories of a firm path changes nothing but these. -/
theorem within_makeDirs (hp : Firm may p) (hR : ∀ q, q <+: p → R q) (hmay : ∀ q, q <+: p → may q .dir) :
    Within (confined may R) (makeDirs p) d :=
  within_makeDirs_of fun q _ hq =>
    within_mkdir (fun ht => (hp.mono hq).leads ht) (hp.mono hq).plain (hR q hq) (hmay q hq)

/-- A copy stays in a frame in which each write stays. -/
theorem within_copy2_of [Content β] {F : Frame (Disk β)} {src dst : PosixPath}
    (hwrite : ∀ q b d, Within F (writeBytes q b) d) : Within F (copy2 src dst) d :=
  (within_look _ _).bind fun _ _ _ _ => (within_look _ _).bind fun _ _ _ _ =>
    (Within.raiseIf _ _).bind fun _ _ _ _ => (within_look _ _).bind fun _ _ _ _ => hwrite _ _ _

/-- Copying to a firm path changes that path, or the copied name in it. -/
theorem within_copy2 [Content β] {src dst : PosixPath}
    (hdst : ∀ q, q = dst ∨ d.tree.stat dst = some .dir ∧ q = dst ++ [PosixPath.name src] → Firm may q ∧ R q)
    (hmay : ∀ b q, d.tree.stat src = some (.file b) → q = dst ∨ q = dst ++ [PosixPath.name src] →
      may q (.file b) ∧ ∀ n, may q (.file (Content.truncate n b))) :
    Within (confined may R) (copy2 src dst) d := by
  refine (within_look _ _).bind fun into d₁ h₁ _ => (within_look _ _).bind fun same d₂ h₂ _ =>
    (Within.raiseIf _ _).bind fun _ d₃ h₃ _ => (within_look _ _).bind fun b d₄ h₄ _ => ?_
  have hinto : into = true → d.tree.stat dst = some .dir := by
    rintro rfl
    exact isDir_eq_true h₁
  obtain ⟨-, rfl⟩ := look_eq_ok.mp h₁
  obtain ⟨-, rfl⟩ := look_eq_ok.mp h₂
  obtain ⟨-, rfl⟩ := raiseIf_eq_ok.mp h₃
  obtain ⟨hb, rfl⟩ := readBytes_eq_ok h₄
  cases hi : into with
  | false =>
    obtain ⟨hfirm, hR⟩ := hdst dst (.inl rfl)
    obtain ⟨hm, hcut⟩ := hmay b dst hb (.inl rfl)
    exact within_writeBytes (fun ht => hfirm.leads ht) hfirm.plain hR hm hcut
  | true =>
    obtain ⟨hfirm, hR⟩ := hdst _ (.inr ⟨hinto hi, rfl⟩)
    obtain ⟨hm, hcut⟩ := hmay b _ hb (.inr rfl)
    exact within_writeBytes (fun ht => hfirm.leads ht) hfirm.plain hR hm hcut

/-- The frame of programs that only remove. -/
def removing : Frame (FileTree β) where
  rel t t' := ∀ p e, t'.lookup p = some e → t.lookup p = some e
  refl _ _ _ h := h
  trans h h' p e he := h p e (h' p e he)

theorem removing_of_rmtree {t t' : FileTree β} {kept : PosixPath → Bool} (h : t.rmtree p kept = some t') :
    removing.rel t t' := by
  intro q e he
  unfold FileTree.rmtree at h
  split at h
  · split at h
    · rw [← Option.some.inj h, removeSome] at he
      by_cases hq : q = []
      · rw [hq] at he ⊢
        exact he
      · rw [lookup_prune hq] at he
        split at he
        · cases he
        · exact he
    · cases h
  · cases h

/-- Removing a directory, whole or in part, adds nothing. -/
theorem within_rmtree_removing : Within (onTree removing) (rmtree p) d := by
  refine within_effect (fun _ h => removing_of_rmtree h) fun kept _ => ?_
  cases h : d.tree.rmtree p kept with
  | none => exact removing.refl _
  | some t' => exact removing_of_rmtree h

/-- What is found where something has been removed was found there before. -/
theorem stat_of_removing {t t' : FileTree β} {e : Entry β} (h : removing.rel t t') (he : t'.stat p = some e) :
    t.stat p = some e := by
  obtain ⟨q, hq, hlook⟩ := Option.bind_eq_some_iff.mp he
  exact Option.bind_eq_some_iff.mpr ⟨q, locate_mono h hq hlook, h _ _ hlook⟩

/-- The frame of programs that make directories and nothing else. -/
def onlyDirs : Frame (FileTree β) where
  rel t t' := ∀ p e, t'.lookup p = some e → e = .dir ∨ t.lookup p = some e
  refl _ _ _ h := .inr h
  trans h h' p e he := (h' p e he).elim .inl (h p e)

/-- Making the directories of a path makes directories, wherever the path leads. -/
theorem within_makeDirs_onlyDirs : Within (onTree onlyDirs) (makeDirs p) d := by
  refine within_makeDirs_of fun q d _ => within_effect (fun t' hop => ?_) fun _ _ => onlyDirs.refl _
  obtain ⟨r, -, hset, hnew⟩ := mkdir_eq_some hop
  have hr : r ≠ [] := by
    rintro rfl
    cases hnew
  intro x e hx
  rw [hset, lookup_set hr] at hx
  split at hx
  · exact .inl (Option.some.inj hx).symm
  · exact .inr hx

/-- **What a copy that returns did**: the bytes of the source now stand at the
destination, or under the source's name in it. -/
theorem copy2_eq_ok [Content β] {src dst : PosixPath} {u : Unit} {d' : Disk β}
    (h : copy2 src dst d = .ok u d') :
    ∃ b dst', (dst' = dst ∨ d.tree.stat dst = some .dir ∧ dst' = dst ++ [PosixPath.name src]) ∧
      d.tree.stat src = some (.file b) ∧ d.tree.write dst' b = some d'.tree := by
  obtain ⟨into, d₁, h₁, h⟩ := bind_eq_ok.mp h
  have hinto : into = true → d.tree.stat dst = some .dir := by
    rintro rfl
    exact isDir_eq_true h₁
  obtain ⟨-, rfl⟩ := look_eq_ok.mp h₁
  obtain ⟨same, d₂, h₂, h⟩ := bind_eq_ok.mp h
  obtain ⟨-, rfl⟩ := look_eq_ok.mp h₂
  obtain ⟨_, d₃, h₃, h⟩ := bind_eq_ok.mp h
  obtain ⟨-, rfl⟩ := raiseIf_eq_ok.mp h₃
  obtain ⟨b, d₄, h₄, h⟩ := bind_eq_ok.mp h
  obtain ⟨hb, rfl⟩ := readBytes_eq_ok h₄
  refine ⟨b, _, ?_, hb, op_of_effect h⟩
  cases hi : into with
  | false => exact .inl rfl
  | true => exact .inr ⟨hinto hi, rfl⟩

/-- A copy to a firm path, where the policy lets no directory stand, leaves the bytes of the source there. -/
theorem lookup_of_copy2 [Content β] {src dst : PosixPath} {b : β} {u : Unit} {d' : Disk β}
    (hdst : Firm may dst) (hnodir : ¬ may dst .dir) (ht : Tidy may d.tree)
    (hsrc : d.tree.stat src = some (.file b)) (h : copy2 src dst d = .ok u d') :
    d'.tree.lookup dst = some (.file b) := by
  obtain ⟨b', dst', hplace, hb', hwrite⟩ := copy2_eq_ok h
  obtain rfl : b = b' := by
    rw [hsrc] at hb'
    exact Entry.file.inj (Option.some.inj hb')
  obtain rfl : dst' = dst := by
    rcases hplace with hsame | ⟨hdir, -⟩
    · exact hsame
    · exact absurd (ht.allowed _ _ ((hdst.leads ht).lookup_of_stat hdir)) hnodir
  obtain ⟨q, hq, hset, hfile⟩ := write_eq_some hwrite
  obtain rfl := hdst.leads ht q hq
  rw [hset]
  apply lookup_set_self
  rintro rfl
  exact hfile (lookup_nil _)

end FileOps
