import LabOS.Library.Confinement

/-!
# Disks without faults

On a disk with no fate left every call is done, so a program over it is a function of the
tree. Where no link stands on the paths of a program this function can be written down:
making the directories of a path puts a directory at each name of it that is not there yet.

## What is proved

* `FileTree.IsTree.locate_concat` — a name in a directory is found there, be anything at it or nothing.
* `made_of_makeDirs` — making directories takes nothing away.
* `makeDirs_run` — what making the directories of a path without links does.
-/

namespace FileTree

variable {β : Type} {t : FileTree β} {p q : PosixPath} {n : String}

/-! ### Directories made -/

/-- The directories of `p` put where nothing is. -/
def withDirs (t : FileTree β) (p : PosixPath) : FileTree β :=
  p.inits.foldl (fun t q => if (t.lookup q).isNone then t.set q .dir else t) t

theorem withDirs_concat (t : FileTree β) (p : PosixPath) (n : String) :
    t.withDirs (p ++ [n]) =
      if ((t.withDirs p).lookup (p ++ [n])).isNone then (t.withDirs p).set (p ++ [n]) .dir
      else t.withDirs p := by
  have hinits : (p ++ [n]).inits = p.inits ++ [p ++ [n]] := by simp [List.inits_append]
  unfold withDirs
  rw [hinits, List.foldl_append]
  rfl

theorem lookup_withDirs_of_not_prefix (h : ¬ q <+: p) : (t.withDirs p).lookup q = t.lookup q := by
  induction p using List.reverseRecOn with
  | nil => rfl
  | append_singleton p n ih =>
    have hq : ¬ q <+: p := fun hq => h (hq.trans (PosixPath.prefix_concat_self p n))
    have hne : q ≠ p ++ [n] := by
      rintro rfl
      exact h List.prefix_rfl
    rw [withDirs_concat]
    split
    · rw [lookup_set_ne hne, ih hq]
    · exact ih hq

theorem lookup_withDirs_above (h : q <+: p) :
    (t.withDirs p).lookup q = some ((t.lookup q).getD .dir) := by
  induction p using List.reverseRecOn with
  | nil =>
    rw [List.prefix_nil.mp h]
    rfl
  | append_singleton p n ih =>
    rw [withDirs_concat]
    rcases List.prefix_concat_iff.mp h with rfl | hq
    · have hself : (t.withDirs p).lookup (p ++ [n]) = t.lookup (p ++ [n]) :=
        lookup_withDirs_of_not_prefix (PosixPath.not_concat_prefix p n)
      rw [hself]
      split
      · next hnone => rw [lookup_set_self (by simp), Option.isNone_iff_eq_none.mp hnone]; rfl
      · next hsome =>
        obtain ⟨e, he⟩ := Option.ne_none_iff_exists'.mp (mt Option.isNone_iff_eq_none.mpr hsome)
        rw [hself, he]
        rfl
    · have hne : q ≠ p ++ [n] := by
        rintro rfl
        exact PosixPath.not_concat_prefix p n hq
      split
      · rw [lookup_set_ne hne, ih hq]
      · exact ih hq

/-- Where nothing or a directory stands, a directory stands afterwards. -/
theorem lookup_withDirs_of_open (hopen : t.lookup q = none ∨ t.lookup q = some .dir) (h : q <+: p) :
    (t.withDirs p).lookup q = some .dir := by
  rw [lookup_withDirs_above h]
  rcases hopen with hnone | hdir
  · rw [hnone]
    rfl
  · rw [hdir]
    rfl

/-- No file and no link stands on the way to `p`, nor at `p`. -/
def Open (t : FileTree β) (p : PosixPath) : Prop := ∀ q, q <+: p → t.lookup q = none ∨ t.lookup q = some .dir

theorem Open.mono (h : Open t p) (hq : q <+: p) : Open t q := fun r hr => h r (hr.trans hq)

theorem Open.concat (h : Open t p) (hn : t.lookup (p ++ [n]) = none ∨ t.lookup (p ++ [n]) = some .dir) :
    Open t (p ++ [n]) := by
  intro q hq
  rcases List.prefix_concat_iff.mp hq with rfl | hq
  · exact hn
  · exact h q hq

theorem Open.noLink (h : Open t p) : NoLink t p := by
  intro q hq tgt he
  rcases h q hq with hnone | hdir
  · rw [hnone] at he
    cases he
  · rw [hdir] at he
    cases he

theorem IsTree.open_of_dir (ht : IsTree t) (h : t.lookup p = some .dir) : Open t p := by
  intro q hq
  by_cases hne : q = p
  · exact .inr (hne ▸ h)
  · exact .inr (ht.dir_of_prefix h hq hne)

theorem IsTree.withDirs (ht : IsTree t) (hp : ∀ n ∈ p, PosixPath.isPlain n = true) (h : Open t p) :
    IsTree (t.withDirs p) := by
  induction p using List.reverseRecOn with
  | nil => exact ht
  | append_singleton p n ih =>
    have hpre : p <+: p ++ [n] := PosixPath.prefix_concat_self p n
    have htree := ih (fun m hm => hp m (hpre.subset hm)) (h.mono hpre)
    rw [withDirs_concat]
    split
    · next hnone =>
      refine htree.set (hp n (by simp)) (lookup_withDirs_of_open (h p hpre) List.prefix_rfl) ?_
      rw [Option.isNone_iff_eq_none.mp hnone]
      simp
    · exact htree

/-- Can a file be written at `p`? -/
def writable (t : FileTree β) (p : PosixPath) : Bool :=
  match t.locate true p with
  | some q =>
    match t.lookup q with
    | none | some (.file _) => true
    | _ => false
  | none => false

theorem isSome_write (t : FileTree β) (p : PosixPath) (b : β) : (t.write p b).isSome = t.writable p := by
  unfold FileTree.write writable
  cases t.locate true p with
  | none => rfl
  | some q =>
    cases he : t.lookup q with
    | none => simp [he]
    | some e => cases e <;> simp [he]

theorem isSome_writeShared (t : FileTree β) (shared : Sharing) (p : PosixPath) (b : β) :
    (t.writeShared shared p b).isSome = t.writable p := by
  rw [writeShared, Option.isSome_map, isSome_write]

/-- A removal that keeps nothing. -/
theorem removeSome_nothing (t : FileTree β) (p : PosixPath) :
    (t.removeSome p fun _ => false) = t.prune p fun _ => false := by
  unfold removeSome
  congr 1
  funext x
  exact List.any_eq_false.mpr (by simp)

/-! ### Names in a directory -/

private theorem walks_concat (ht : IsTree t) {follow : Bool} {limit : ℕ} (cur : PosixPath) {rest : PosixPath}
    (hdir : t.lookup (cur ++ rest) = some .dir) (hn : PosixPath.IsName n)
    (hlast : ∀ tgt, t.lookup (cur ++ rest ++ [n]) = some (.symlink tgt) → follow = false) :
    Walks t follow limit cur (rest ++ [n]) (cur ++ rest ++ [n]) := by
  induction rest generalizing cur with
  | nil =>
    simp only [List.append_nil, List.nil_append] at hdir hlast ⊢
    cases he : t.lookup (cur ++ [n]) with
    | none => exact .new hdir hn he
    | some e =>
      cases e with
      | dir => exact .down hdir hn he (by simp) .done
      | file b => exact .down hdir hn he (by simp) .done
      | symlink tgt => exact .stop hdir hn (hlast tgt he) he
  | cons m rest ih =>
    have happ : cur ++ m :: rest = cur ++ [m] ++ rest := by simp
    have hcur : t.lookup cur = some .dir := ht.dir_of_prefix hdir (List.prefix_append _ _) (by simp)
    have hm : PosixPath.IsName m := ht.isName_of_lookup hdir m (by simp)
    have hnext : t.lookup (cur ++ [m]) = some .dir := by
      by_cases hr : rest = []
      · simpa [hr] using hdir
      · exact ht.dir_of_prefix hdir (by simp) (by simpa using hr)
    rw [happ] at hdir hlast ⊢
    exact .down hcur hm hnext (by simp) (ih _ hdir hlast)

/-- **A name in a directory** is found there, whatever stands at it, where a link is not to be followed. -/
theorem IsTree.locate_concat (ht : IsTree t) {follow : Bool} (hdir : t.lookup p = some .dir)
    (hn : PosixPath.IsName n) (hlast : ∀ tgt, t.lookup (p ++ [n]) = some (.symlink tgt) → follow = false) :
    t.locate follow (p ++ [n]) = some (p ++ [n]) :=
  locate_eq_some.mpr (walks_concat ht [] hdir hn hlast)

/-- What stands in a directory is found there, the links among it not followed. -/
theorem IsTree.locate_child (ht : IsTree t) {e : Entry β} (h : t.lookup (p ++ [n]) = some e) :
    t.locate false (p ++ [n]) = some (p ++ [n]) :=
  ht.locate_concat (ht _ _ _ h).1 (PosixPath.isName_of_plain (ht _ _ _ h).2) fun _ _ => rfl

end FileTree

namespace FileOps

open Exceptional FileTree

variable {α β : Type} {t : FileTree β} {p : PosixPath} {n : String}

/-! ### Calls -/

theorem look_run {f : FileTree β → Option α} {e : FileError} {a : α} (h : f t = some a) (fates : List Fate) :
    look f e ⟨t, fates⟩ = .ok a ⟨t, fates⟩ :=
  look_eq_ok.mpr ⟨h, rfl⟩

theorem look_run_none {f : FileTree β → Option α} {e : FileError} (h : f t = none) (fates : List Fate) :
    look f e ⟨t, fates⟩ = .error e ⟨t, fates⟩ := by
  show (orRaise (f t) e : FileM β α) ⟨t, fates⟩ = _
  rw [h]
  rfl

/-- A call that is done. -/
theorem effect_run (op : FileTree β → Option (FileTree β)) (cutShort) {t' : FileTree β} (h : op t = some t') :
    effect op cutShort ⟨t, []⟩ = .ok () ⟨t', []⟩ := by
  simp [effect, h]

/-- A call that the kernel refuses. -/
theorem effect_run_none (op : FileTree β → Option (FileTree β)) (cutShort) (h : op t = none) :
    effect op cutShort ⟨t, []⟩ = .error .osError ⟨t, []⟩ := by
  simp [effect, h]

theorem mkdir_run {t' : FileTree β} (h : t.mkdir p = some t') : mkdir p ⟨t, []⟩ = .ok () ⟨t', []⟩ :=
  effect_run _ _ h

theorem mkdir_run_none (h : t.mkdir p = none) : mkdir p ⟨t, []⟩ = .error .osError ⟨t, []⟩ :=
  effect_run_none _ _ h

theorem unlink_run {t' : FileTree β} (h : t.unlink p = some t') : unlink p ⟨t, []⟩ = .ok () ⟨t', []⟩ :=
  effect_run _ _ h

theorem rmtree_run {t' : FileTree β} (h : (t.rmtree p fun _ => false) = some t') :
    rmtree p ⟨t, []⟩ = .ok () ⟨t', []⟩ :=
  effect_run _ _ h

theorem rmtree_run_none (h : (t.rmtree p fun _ => false) = none) :
    rmtree p ⟨t, []⟩ = .error .osError ⟨t, []⟩ :=
  effect_run_none _ _ h

theorem writeBytes_run [Content β] {b : β} {t' : FileTree β} (h : t.write p b = some t') :
    writeBytes p b ⟨t, []⟩ = .ok () ⟨t', []⟩ :=
  effect_run _ _ h

theorem writeThrough_run [Content β] {shared : Sharing} {b : β} {t' : FileTree β}
    (h : t.writeShared shared p b = some t') : writeThrough shared p b ⟨t, []⟩ = .ok () ⟨t', []⟩ :=
  effect_run _ _ h

theorem writeThrough_run_none [Content β] {shared : Sharing} {b : β} (h : t.writeShared shared p b = none) :
    writeThrough shared p b ⟨t, []⟩ = .error .osError ⟨t, []⟩ :=
  effect_run_none _ _ h

theorem symlink_run {tgt : PathText} {t' : FileTree β} (h : t.symlink p tgt = some t') :
    symlink p tgt ⟨t, []⟩ = .ok () ⟨t', []⟩ :=
  effect_run _ _ h

/-- The frame of programs that bring no fault to a disk without any. -/
def faultless : Frame (Disk β) where
  rel d d' := d.fates = [] → d'.fates = []
  refl _ h := h
  trans h h' hd := h' (h hd)

theorem within_effect_faultless (op : FileTree β → Option (FileTree β)) (cutShort) (d : Disk β) :
    Within faultless (effect op cutShort) d := by
  obtain ⟨t, fates⟩ := d
  rintro rfl
  cases h : op t with
  | none => rw [effect_run_none op cutShort h]; rfl
  | some t' => rw [effect_run op cutShort h]; rfl

theorem isDir_run (h : t.stat p = some .dir) (fates : List Fate) :
    isDir p ⟨t, fates⟩ = .ok true ⟨t, fates⟩ :=
  look_run (by rw [h]) fates

theorem isDir_run_false (h : t.stat p ≠ some .dir) (fates : List Fate) :
    isDir p ⟨t, fates⟩ = .ok false ⟨t, fates⟩ := by
  refine look_run ?_ fates
  split
  · next hdir => exact absurd hdir h
  · rfl

/-! ### Making directories -/

theorem makeDirs_concat (p : PosixPath) (n : String) :
    (makeDirs (p ++ [n]) : FileM β Unit) =
      (makeDirs p >>= fun _ => isDir (p ++ [n]) >>= fun there => whenever (!there) (mkdir (p ++ [n]))) := by
  have hinits : (p ++ [n]).inits = p.inits ++ [p ++ [n]] := by simp [List.inits_append]
  unfold makeDirs
  rw [hinits, forM_append_eq]
  congr 1
  funext _
  exact forM_singleton_eq _ _

/-- The frame of programs that leave all that is there as it is. -/
def growing : Frame (FileTree β) where
  rel t t' := ∀ q e, t.lookup q = some e → t'.lookup q = some e
  refl _ _ _ h := h
  trans h h' q e he := h' q e (h q e he)

theorem within_makeDirs_growing {d : Disk β} : Within (onTree growing) (makeDirs p) d := by
  refine within_makeDirs_of fun q d _ => within_effect (fun t' h => ?_) fun _ _ => growing.refl _
  obtain ⟨r, -, rfl, hnone⟩ := mkdir_eq_some h
  intro x e he
  have hne : x ≠ r := by
    rintro rfl
    rw [hnone] at he
    cases he
  rw [lookup_set_ne hne, he]

/-- Making directories takes nothing away, and ends with a directory at the path. -/
theorem made_of_makeDirs {d d' : Disk β} {u : Unit} (ht : IsTree d.tree) (hlink : NoLink d.tree (p ++ [n]))
    (hplain : ∀ m ∈ p ++ [n], PosixPath.isPlain m = true) (h : makeDirs (p ++ [n]) d = .ok u d') :
    IsTree d'.tree ∧ NoLink d'.tree (p ++ [n]) ∧ d'.tree.lookup (p ++ [n]) = some .dir ∧
      (∀ q e, d.tree.lookup q = some e → d'.tree.lookup q = some e) ∧
      ∀ q, ¬ q <+: p ++ [n] → d'.tree.lookup q = d.tree.lookup q := by
  have hkeep : ∀ {r}, r <+: p ++ [n] →
      Within (confined (linkless (p ++ [n])) fun q => q <+: p ++ [n]) (makeDirs r) d := fun hr =>
    within_makeDirs ((firm_linkless hplain).mono hr) (fun _ hq => hq.trans hr) fun _ _ _ _ h => by cases h
  obtain ⟨htidy, hout⟩ := (hkeep List.prefix_rfl).of_ok h (tidy_linkless.mpr ⟨ht, hlink⟩)
  obtain ⟨ht₁, hlink₁⟩ := tidy_linkless.mp htidy
  refine ⟨ht₁, hlink₁, ?_, within_makeDirs_growing.of_ok h, hout⟩
  rw [makeDirs_concat] at h
  obtain ⟨_, d₁, hparent, h⟩ := bind_eq_ok.mp h
  obtain ⟨there, d₂, hthere, h⟩ := bind_eq_ok.mp h
  obtain ⟨-, rfl⟩ := look_eq_ok.mp hthere
  cases there with
  | true =>
    obtain ⟨-, rfl⟩ := pure_eq_ok.mp h
    exact (hlink₁.leads hplain).lookup_of_stat (isDir_eq_true hthere)
  | false =>
    have hkeep₁ := (hkeep (PosixPath.prefix_concat_self p n)).of_ok hparent (tidy_linkless.mpr ⟨ht, hlink⟩)
    have hlink₂ := (tidy_linkless.mp hkeep₁.1).2
    obtain ⟨q, hq, hset, hnew⟩ := mkdir_eq_some (op_of_effect (show mkdir (p ++ [n]) d₁ = .ok u d' from h))
    obtain rfl := hlink₂.leads hplain q hq
    rw [hset, lookup_set_self (by simp)]

/-- **Making the directories of a path** without links and files puts a directory at every name of it. -/
theorem makeDirs_run (ht : IsTree t) (hp : ∀ n ∈ p, PosixPath.isPlain n = true) (h : Open t p) :
    makeDirs p ⟨t, []⟩ = .ok () ⟨t.withDirs p, []⟩ := by
  induction p using List.reverseRecOn with
  | nil =>
    -- the root is always there
    rfl
  | append_singleton p n ih =>
    have hpre : p <+: p ++ [n] := PosixPath.prefix_concat_self p n
    have hplain : ∀ m ∈ p, PosixPath.isPlain m = true := fun m hm => hp m (hpre.subset hm)
    have htree : IsTree (t.withDirs p) := ht.withDirs hplain (h.mono hpre)
    have hdir : (t.withDirs p).lookup p = some .dir := lookup_withDirs_of_open (h p hpre) List.prefix_rfl
    have hself : (t.withDirs p).lookup (p ++ [n]) = t.lookup (p ++ [n]) :=
      lookup_withDirs_of_not_prefix (PosixPath.not_concat_prefix p n)
    rw [makeDirs_concat, bind_run_of_ok (ih hplain (h.mono hpre)), withDirs_concat, hself]
    rcases h (p ++ [n]) List.prefix_rfl with hnone | hthere
    · have hn : PosixPath.IsName n := PosixPath.isName_of_plain (hp n (by simp))
      have hlocate : ∀ follow, (t.withDirs p).locate follow (p ++ [n]) = some (p ++ [n]) :=
        fun _ => htree.locate_concat hdir hn fun _ he => by rw [hself, hnone] at he; cases he
      have hstat : (t.withDirs p).stat (p ++ [n]) ≠ some .dir := by
        unfold FileTree.stat
        rw [hlocate, Option.bind_some, hself, hnone]
        simp
      have hmkdir : (t.withDirs p).mkdir (p ++ [n]) = some ((t.withDirs p).set (p ++ [n]) .dir) := by
        unfold FileTree.mkdir
        rw [hlocate]
        simp [hself, hnone]
      rw [bind_run_of_ok (isDir_run_false hstat []), hnone]
      exact mkdir_run hmkdir
    · have hstat : (t.withDirs p).stat (p ++ [n]) = some .dir :=
        htree.stat_of_lookup (hself.trans hthere) (by simp)
      rw [bind_run_of_ok (isDir_run hstat []), hthere]
      rfl

/-- **Where a file stands on the way** the directories above it are made, and the call raises. -/
theorem makeDirs_run_of_file (ht : IsTree t) (hp : ∀ n ∈ p, PosixPath.isPlain n = true) (hlink : NoLink t p)
    (h : ¬ Open t p) :
    ∃ q, q <+: p ∧ makeDirs p ⟨t, []⟩ = .error .osError ⟨t.withDirs q, []⟩ := by
  induction p using List.reverseRecOn with
  | nil => exact absurd (fun q hq => .inr (by rw [List.prefix_nil.mp hq]; rfl)) h
  | append_singleton p n ih =>
    have hpre : p <+: p ++ [n] := PosixPath.prefix_concat_self p n
    have hplain : ∀ m ∈ p, PosixPath.isPlain m = true := fun m hm => hp m (hpre.subset hm)
    rw [makeDirs_concat]
    by_cases hopen : Open t p
    · -- the file is at the end of the path
      have hself : (t.withDirs p).lookup (p ++ [n]) = t.lookup (p ++ [n]) :=
        lookup_withDirs_of_not_prefix (PosixPath.not_concat_prefix p n)
      obtain ⟨b, hb⟩ : ∃ b, t.lookup (p ++ [n]) = some (.file b) := by
        cases he : t.lookup (p ++ [n]) with
        | none => exact absurd (hopen.concat (.inl he)) h
        | some e =>
          cases e with
          | dir => exact absurd (hopen.concat (.inr he)) h
          | file b => exact ⟨b, rfl⟩
          | symlink tgt => exact absurd he (hlink _ List.prefix_rfl tgt)
      have htree : IsTree (t.withDirs p) := ht.withDirs hplain hopen
      have hstat : (t.withDirs p).stat (p ++ [n]) ≠ some .dir := by
        rw [htree.stat_of_lookup (hself.trans hb) (by simp)]
        simp
      have hmkdir : (t.withDirs p).mkdir (p ++ [n]) = none := by
        unfold FileTree.mkdir
        rw [htree.locate_child (hself.trans hb)]
        simp [hself, hb]
      refine ⟨p, hpre, ?_⟩
      rw [bind_run_of_ok (makeDirs_run ht hplain hopen), bind_run_of_ok (isDir_run_false hstat [])]
      exact mkdir_run_none hmkdir
    · obtain ⟨q, hq, hraises⟩ := ih hplain (hlink.mono hpre) hopen
      exact ⟨q, hq.trans hpre, bind_eq_error.mpr (.inl hraises)⟩

end FileOps
