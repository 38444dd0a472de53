import LabOS.Library.TarFile

/-!
# Directories that stay

Of the calls a program makes only `rmtree`, `rmdir` and `rename` take a directory away. A program of
the others leaves every directory where it is, wherever its paths lead.

## What is proved

* `within_makeDirs_standing`, `within_copy2_standing`, `within_extractall_standing` — making
  directories, copying and extracting leave every directory standing.
-/

namespace FileTree

open Exceptional

variable {β : Type} {t t' : FileTree β} {p q : PosixPath}

/-- The frame of programs that take no directory away from the place `p`. -/
def standing (p : PosixPath) : Frame (FileTree β) where
  rel t t' := Rooted t → Rooted t' ∧ (t.lookup p = some .dir → t'.lookup p = some .dir)
  refl _ ht := ⟨ht, id⟩
  trans h h' ht := by
    obtain ⟨ht', hp⟩ := h ht
    obtain ⟨ht'', hp'⟩ := h' ht'
    exact ⟨ht'', fun hdir => hp' (hp hdir)⟩

/-- `t'` is `t` but for what stands at `q`: that was no directory, and what it is now, if anything, is in
one. -/
structure Replaced (t t' : FileTree β) (q : PosixPath) : Prop where
  noDir : t.lookup q ≠ some .dir
  parent : t'.lookup q ≠ none → t.lookup q.dropLast = some .dir
  same : ∀ x, x ≠ q → t'.lookup x = t.lookup x

theorem Replaced.standing (h : Replaced t t' q) (p : PosixPath) : (standing p).rel t t' := by
  have hkept : ∀ x, t.lookup x = some .dir → t'.lookup x = some .dir := by
    intro x hx
    rw [h.same x, hx]
    rintro rfl
    exact h.noDir hx
  refine fun ht => ⟨fun x n e hx => hkept x ?_, hkept p⟩
  by_cases hq : x ++ [n] = q
  · have hparent := h.parent (by rw [← hq, hx]; simp)
    rwa [← hq, List.dropLast_concat] at hparent
  · exact ht x n e ((h.same _ hq).symm.trans hx)

/-- An entry put where no directory is. -/
theorem replaced_set {e : Entry β} (hd : t.lookup q.dropLast = some .dir) (hold : t.lookup q ≠ some .dir) :
    Replaced t (t.set q e) q :=
  ⟨hold, fun _ => hd, fun _ hx => lookup_set_ne hx⟩

theorem standing_of_mkdir (h : t.mkdir q = some t') : (standing p).rel t t' := by
  intro ht
  obtain ⟨r, hr, rfl, hnone⟩ := mkdir_eq_some h
  exact (replaced_set (ht.locate_parent hr) (by simp [hnone])).standing p ht

theorem standing_of_symlink {tgt : PathText} (h : t.symlink q tgt = some t') : (standing p).rel t t' := by
  intro ht
  obtain ⟨r, hr, rfl, hnone⟩ := symlink_eq_some h
  exact (replaced_set (ht.locate_parent hr) (by simp [hnone])).standing p ht

theorem standing_of_write {b : β} (h : t.write q b = some t') : (standing p).rel t t' := by
  intro ht
  obtain ⟨r, hr, rfl, hold⟩ := write_eq_some h
  exact (replaced_set (ht.locate_parent hr) hold).standing p ht

/-- What `unlink` took away: what stood where the path leads, and nothing else. -/
theorem unlink_eq_some (ht : Rooted t) (h : t.unlink p = some t') :
    ∃ q, t.locate false p = some q ∧ t.lookup q ≠ some .dir ∧ t'.lookup q = none ∧
      ∀ x, x ≠ q → t'.lookup x = t.lookup x := by
  obtain ⟨q, hq, hentry, rfl⟩ : ∃ q, t.locate false p = some q ∧ t.lookup q ≠ some .dir ∧
      t' = t.prune q fun _ => false := by
    unfold unlink at h
    split at h
    · next q hq =>
      split at h
      · next he => exact ⟨q, hq, by simp [he], (Option.some.inj h).symm⟩
      · next he => exact ⟨q, hq, by simp [he], (Option.some.inj h).symm⟩
      · cases h
    · cases h
  have hne : q ≠ [] := by
    rintro rfl
    exact hentry rfl
  refine ⟨q, hq, hentry, by rw [lookup_prune hne, if_pos ⟨List.prefix_rfl, rfl⟩], fun x hx => ?_⟩
  by_cases hx0 : x = []
  · rw [hx0, lookup_nil, lookup_nil]
  rw [lookup_prune hx0]
  split
  · -- nothing stands below what is no directory
    next hbelow =>
    by_contra hsome
    obtain ⟨e, he⟩ := Option.ne_none_iff_exists'.mp (Ne.symm hsome)
    exact hx (ht.eq_of_prefix he hbelow.1 hentry).symm
  · rfl

theorem standing_of_link {q' : PosixPath} (h : t.link q q' = some t') : (standing p).rel t t' := by
  intro ht
  obtain ⟨_, r, e, -, hr, -, -, rfl, hnone⟩ := link_eq_some h
  exact (replaced_set (ht.locate_parent hr) (by simp [hnone])).standing p ht

/-- A file written under another of its names. -/
theorem standing_of_setFiles {names : List PosixPath} {b : β} : (standing p).rel t (t.setFiles names b) := by
  induction names generalizing t with
  | nil => exact (standing p).refl t
  | cons r names ih =>
    show (standing p).rel t
      (setFiles (if ((t.lookup r).bind Entry.bytes?).isSome then t.set r (.file b) else t) names b)
    split
    · next hfile =>
      obtain ⟨c, hc⟩ := Option.isSome_iff_exists.mp hfile
      obtain ⟨e, he, hbytes⟩ := Option.bind_eq_some_iff.mp hc
      obtain rfl := Entry.bytes?_eq_some.mp hbytes
      refine (standing p).trans (fun ht => ?_) ih
      exact (replaced_set (ht.dir_parent he) (by simp [he])).standing p ht
    · exact ih

theorem standing_of_writeShared {shared : Sharing} {b : β} (h : t.writeShared shared q b = some t') :
    (standing p).rel t t' := by
  unfold writeShared at h
  obtain ⟨t₁, hwrite, rfl⟩ := Option.map_eq_some_iff.mp h
  exact (standing p).trans (standing_of_write hwrite) standing_of_setFiles

theorem standing_of_unlink (h : t.unlink q = some t') : (standing p).rel t t' := by
  intro ht
  obtain ⟨r, -, hentry, hgone, hsame⟩ := unlink_eq_some ht h
  exact (Replaced.mk hentry (fun hsome => absurd hgone hsome) hsame).standing p ht

end FileTree

namespace FileOps

open Exceptional FileTree

variable {α β ε : Type} {p q : PosixPath} {d : Disk β}

theorem within_mkdir_standing : Within (onTree (standing p)) (mkdir q) d :=
  within_effect (fun _ h => standing_of_mkdir h) fun _ _ => (standing p).refl _

theorem within_symlink_standing {tgt : PathText} : Within (onTree (standing p)) (symlink q tgt) d :=
  within_effect (fun _ h => standing_of_symlink h) fun _ _ => (standing p).refl _

theorem within_unlink_standing : Within (onTree (standing p)) (unlink q) d :=
  within_effect (fun _ h => standing_of_unlink h) fun _ _ => (standing p).refl _

theorem within_writeThrough_standing [Content β] {shared : Sharing} {b : β} :
    Within (onTree (standing p)) (writeThrough shared q b) d := by
  refine within_effect (fun _ h => standing_of_writeShared h) fun _ written => ?_
  cases written with
  | none => exact (standing p).refl _
  | some n =>
    cases h : d.tree.writeShared shared q (Content.truncate n b) with
    | none => simpa [h] using (standing p).refl d.tree
    | some t' => simpa [h] using standing_of_writeShared h

theorem within_writeBytes_standing [Content β] {b : β} : Within (onTree (standing p)) (writeBytes q b) d :=
  writeThrough_nil (p := q) (b := b) ▸ within_writeThrough_standing

/-- **Making directories** leaves every directory standing. -/
theorem within_makeDirs_standing : Within (onTree (standing p)) (makeDirs q) d :=
  within_makeDirs_of fun _ _ _ => within_mkdir_standing

/-- **Copying a file** leaves every directory standing. -/
theorem within_copy2_standing [Content β] {src dst : PosixPath} :
    Within (onTree (standing p)) (copy2 src dst) d :=
  within_copy2_of fun _ _ _ => within_writeBytes_standing

theorem within_call_standing [Content β] {op : FileTree β → Option (FileTree β)}
    {cutShort : (PosixPath → Bool) → Option ℕ → FileTree β → FileTree β} (hcall : TarFile.Call op cutShort) :
    Within (onTree (standing p)) (effect op cutShort) d := by
  cases hcall with
  | mkdirAbove above q =>
    refine within_effect (fun t' h => ?_) fun _ _ => (standing p).refl _
    split at h
    · exact Option.some.inj h ▸ (standing p).refl _
    · exact standing_of_mkdir h
  | makedir q =>
    refine within_effect (fun t' h => ?_) fun _ _ => (standing p).refl _
    split at h
    · exact Option.some.inj h ▸ (standing p).refl _
    · exact standing_of_mkdir h
  | write shared q b => exact within_writeThrough_standing
  | unlink q => exact within_unlink_standing
  | symlink q linkname => exact within_symlink_standing
  | link q q' => exact within_effect (fun _ h => standing_of_link h) fun _ _ => (standing p).refl _

/-- **Extracting an archive** leaves every directory standing. -/
theorem within_extractall_standing [Content β] {dest : PosixPath} {ms : List (Member β)} :
    Within (onTree (standing p)) (TarFile.extractall dest ms) d :=
  TarFile.within_extractall_of fun hcall _ => within_call_standing hcall

/-- What is confined to a region without the place `p` leaves it standing. -/
theorem standing_of_confined {may : PosixPath → Entry β → Prop} {R : PosixPath → Prop}
    {x : EStateM ε (Disk β) α} (h : Within (confined may R) x d) (ht : Tidy may d.tree) (hp : ¬ R p) :
    Within (onTree (standing p)) x d := by
  obtain ⟨ht', hout⟩ := h ht
  exact fun _ => ⟨ht'.tree.rooted, fun hdir => (hout p hp).trans hdir⟩

end FileOps
