import LabOS.Library.Filling

/-!
# Links that lead down

A link whose target is relative and never goes up leads to a place below the directory it stands in, wherever
that is. Where a directory has no other links in it, no path into it leads out; so an archive that makes only such
links there is extracted into the directory, also where its members are led over them.

## What is proved

* `prefix_of_walks` — a walk that never goes up ends below the place it starts from.
* `below_of_locate` — no path into a directory whose links lead down leads out of it.
* `TarFile.steady_of_descending` — an archive whose links lead down is extracted in steady rounds.
-/

namespace FileTree

variable {β : Type} {t : FileTree β} {W : PosixPath}

/-- No piece of the path goes up. -/
def LeadsDown (p : PathText) : Prop := ∀ n ∈ p, n = "." ∨ PosixPath.isPlain n = true

theorem leadsDown_of_plain {p : PosixPath} (h : ∀ n ∈ p, PosixPath.isPlain n = true) : LeadsDown p :=
  fun n hn => .inr (h n hn)

theorem LeadsDown.append {p q : PathText} (hp : LeadsDown p) (hq : LeadsDown q) : LeadsDown (p ++ q) :=
  fun n hn => (List.mem_append.mp hn).elim (hp n) (hq n)

theorem LeadsDown.isAbsolute {p : PathText} (h : LeadsDown p) : p.isAbsolute = false := by
  refine decide_eq_false (not_not.mpr (PathText.slashes_eq_zero fun hempty => ?_))
  rcases h "" hempty with hdot | hplain
  · exact absurd hdot (by decide)
  · exact absurd hplain (by decide)

/-- The links in `W` lead down, and none stands on the way to it. -/
def descent (W : PosixPath) (p : PosixPath) (e : Entry β) : Prop :=
  ∀ tgt, e = .symlink tgt → ¬ p <+: W ∧ (W <+: p → LeadsDown tgt)

theorem firm_descent {p : PosixPath} (hplain : ∀ n ∈ p, PosixPath.isPlain n = true) (hp : p <+: W) :
    Firm (@descent β W) p :=
  ⟨hplain, fun _ hq _ hmay => (hmay _ rfl).1 (hq.trans hp)⟩

/-- Where no link stands in the directory, all of them lead down. -/
theorem tidy_descent (ht : IsTree t) (hlinks : Unlinked W t) : Tidy (descent W) t := by
  refine ⟨ht, fun p e he tgt htgt => ⟨fun hp => ?_, fun hp => ?_⟩⟩
  · exact ht.noLink_of_dir hlinks.dir p hp tgt (htgt ▸ he)
  · exact absurd (htgt ▸ he) (hlinks.linkless p hp tgt)

/-- A piece that is passed over is not the last one, where that is plain. -/
private theorem concat_of_skip {n m : String} {rest a : List String} (hn : n = "" ∨ n = ".")
    (hm : PosixPath.isPlain m = true) (h : n :: rest = a ++ [m]) : ∃ a', rest = a' ++ [m] := by
  cases a with
  | nil =>
    obtain ⟨rfl, -⟩ := List.cons.inj h
    exact (hn.elim (PosixPath.isName_of_plain hm).1 (PosixPath.isName_of_plain hm).2.1).elim
  | cons _ a => exact ⟨a, (List.cons.inj h).2⟩

/-- **A walk that never goes up ends below the place it starts from**, and further down where it stops at a name. -/
theorem prefix_of_walks (ht : Tidy (descent W) t) {follow : Bool} {limit : ℕ} {cur rest q : PosixPath}
    (h : Walks t follow limit cur rest q) (hcur : W <+: cur) (hplain : ∀ n ∈ cur, PosixPath.isPlain n = true)
    (hrest : LeadsDown rest) :
    cur <+: q ∧ (∀ n ∈ q, PosixPath.isPlain n = true) ∧
      (follow = false → ∀ a n, PosixPath.isPlain n = true → rest = a ++ [n] → q ≠ cur) := by
  have hnext : ∀ {cur : PosixPath} {n : String} {rest : List String}, (∀ m ∈ cur, PosixPath.isPlain m = true) →
      PosixPath.IsName n → LeadsDown (n :: rest) → ∀ m ∈ cur ++ [n], PosixPath.isPlain m = true := by
    intro cur n rest hplain hn hrest m hm
    rcases List.mem_append.mp hm with hm | hm
    · exact hplain m hm
    · obtain rfl := List.mem_singleton.mp hm
      exact (hrest m List.mem_cons_self).resolve_left hn.2.1
  have htail : ∀ {n : String} {rest : List String}, LeadsDown (n :: rest) → LeadsDown rest :=
    fun hrest m hm => hrest m (List.mem_cons_of_mem _ hm)
  induction h with
  | done => exact ⟨List.prefix_rfl, hplain, fun _ a n _ hnil => by simp at hnil⟩
  | skip _ hskip _ ih =>
    obtain ⟨hpre, hq, hlast⟩ := ih hcur hplain (htail hrest)
    refine ⟨hpre, hq, fun hfollow a n hn hsplit => ?_⟩
    obtain ⟨a', hsplit⟩ := concat_of_skip hskip hn hsplit
    exact hlast hfollow a' n hn hsplit
  | up => exact absurd (hrest ".." List.mem_cons_self) (by decide)
  | stop _ hn _ _ | new _ hn _ =>
    exact ⟨List.prefix_append _ _, hnext hplain hn hrest, fun _ _ _ _ _ => by simp⟩
  | @link _ cur n rest q tgt _ hn hl hmore _ ih =>
    -- a link in the directory is read where it stands
    have htgt : LeadsDown tgt := (ht.allowed _ _ hl tgt rfl).2 (hcur.trans (List.prefix_append _ _))
    rw [if_neg (by simp [htgt.isAbsolute])] at ih
    obtain ⟨hpre, hq, hlast⟩ := ih hcur hplain (htgt.append (htail hrest))
    refine ⟨hpre, hq, fun hfollow a m hm hsplit => ?_⟩
    cases a with
    | nil => exact absurd ⟨(List.cons.inj hsplit).2, hfollow⟩ hmore
    | cons _ a =>
      have hrest : rest = a ++ [m] := (List.cons.inj hsplit).2
      exact hlast hfollow (tgt ++ a) m hm (by rw [hrest, List.append_assoc])
  | @down _ cur n rest q _ _ hn _ _ _ ih =>
    obtain ⟨hpre, hq, -⟩ := ih (hcur.trans (List.prefix_append _ _)) (hnext hplain hn hrest) (htail hrest)
    refine ⟨(List.prefix_append _ _).trans hpre, hq, fun _ _ _ _ _ => ?_⟩
    rintro rfl
    exact PosixPath.not_concat_prefix _ _ hpre

/-- A walk goes on from the end of a path where no link stands. -/
theorem walks_past {follow : Bool} {limit : ℕ} {cur a b q : PosixPath} (hplain : ∀ n ∈ a, PosixPath.IsName n)
    (hlink : NoLink t (cur ++ a)) (h : Walks t follow limit cur (a ++ b) q) :
    Walks t follow limit (cur ++ a) b q := by
  induction a generalizing cur with
  | nil => exact (List.append_nil cur).symm ▸ h
  | cons n a ih =>
    rw [List.append_cons] at hlink ⊢
    have hnot : ∀ tgt, t.lookup (cur ++ [n]) ≠ some (.symlink tgt) := hlink _ (List.prefix_append _ _)
    have hplain' := fun m hm => hplain m (List.mem_cons_of_mem n hm)
    rcases h.of_name (hplain n List.mem_cons_self) with ⟨tgt, hl, -⟩ | ⟨tgt, _, hl, -⟩ | ⟨_, -, -, h⟩ |
      ⟨-, hnil, rfl⟩
    · exact absurd hl (hnot tgt)
    · exact absurd hl (hnot tgt)
    · exact ih hplain' hlink h
    · obtain ⟨rfl, rfl⟩ := List.append_eq_nil_iff.mp hnil
      exact (List.append_nil (cur ++ [n])).symm ▸ .done

/-- **No path into the directory leads out of it.** -/
theorem below_of_locate (ht : Tidy (descent W) t) {follow : Bool} {p q : PosixPath}
    (hplain : ∀ n ∈ p, PosixPath.isPlain n = true) (hp : W <+: p) (h : t.locate follow p = some q) :
    W <+: q ∧ (∀ n ∈ q, PosixPath.isPlain n = true) ∧ (follow = false → p ≠ W → q ≠ W) := by
  obtain ⟨rest, rfl⟩ := hp
  have hW : ∀ n ∈ W, PosixPath.isPlain n = true := fun n hn => hplain n (List.mem_append_left _ hn)
  have hrest : ∀ n ∈ rest, PosixPath.isPlain n = true := fun n hn => hplain n (List.mem_append_right _ hn)
  have hwalk : Walks t follow 40 ([] ++ W) rest q :=
    walks_past (fun n hn => PosixPath.isName_of_plain (hW n hn))
      ((firm_descent hW List.prefix_rfl).noLink_of_tidy ht) (locate_eq_some.mp h)
  obtain ⟨hpre, hq, hlast⟩ := prefix_of_walks ht hwalk List.prefix_rfl hW (leadsDown_of_plain hrest)
  refine ⟨hpre, hq, fun hfollow hne => ?_⟩
  rcases PosixPath.eq_nil_or_concat rest with rfl | ⟨a, n, rfl⟩
  · exact absurd (List.append_nil W) hne
  · exact hlast hfollow a n (hrest n (by simp)) rfl

/-- What is no link may be put where a path into the directory leads. -/
theorem admits_below (ht : Tidy (descent W) t) {follow : Bool} {p q : PosixPath} {e : Entry β}
    (hplain : ∀ n ∈ p, PosixPath.isPlain n = true) (hp : W <+: p) (h : t.locate follow p = some q)
    (he : ∀ tgt, e ≠ .symlink tgt) : Admits (descent W) (fun q => W <+: q ∨ q <+: W) q e := by
  obtain ⟨hin, hq, -⟩ := below_of_locate ht hplain hp h
  exact ⟨hq, .inl hin, fun tgt htgt => absurd htgt (he tgt)⟩

/-- A link that leads down may be put where a path into the directory leads that is not followed to its end. -/
theorem admits_link_below (ht : Tidy (descent W) t) {p q : PosixPath} {tgt : PathText}
    (hplain : ∀ n ∈ p, PosixPath.isPlain n = true) (hp : W <+: p) (hne : p ≠ W) (h : t.locate false p = some q)
    (hdown : LeadsDown tgt) : Admits (@descent β W) (fun q => W <+: q ∨ q <+: W) q (.symlink tgt) := by
  obtain ⟨hin, hq, hqW⟩ := below_of_locate ht hplain hp h
  refine ⟨hq, .inl hin, fun tgt' htgt => ⟨fun hpre => ?_, fun _ => ?_⟩⟩
  · exact hqW rfl hne (hpre.eq_of_length_le hin.length_le)
  · exact Entry.symlink.inj htgt ▸ hdown

end FileTree

namespace TarFile

open Exceptional FileOps FileTree

variable {β : Type} {d d' : Disk β} {t₀ : FileTree β} {dest W p source : PosixPath} {base : String}
  {ms before : List (Member β)} {m : Member β}

/-- The links of an archive lead down, and the directory `base` is not one of them. -/
structure Descending (base : String) (ms : List (Member β)) : Prop where
  top : ∀ m ∈ ms, m.name = [base] → isFileOrDir m.kind = true
  leadsDown : ∀ m ∈ ms, ∀ linkname, m.kind = .symlink linkname → LeadsDown linkname.normpath

/-- No link stands for a file or a directory. -/
theorem StandsFor.not_isFileOrDir {before' : List (Member β)} {x y : Member β}
    (h : StandsFor ms before x y before') : ¬ isFileOrDir x.kind = true := by
  cases h with
  | symlink hk _ => simp [hk, isFileOrDir]
  | hardlink hk _ => simp [hk, isFileOrDir]

/-- A path into a directory whose links lead down hosts what keeps them so. -/
theorem hosts_below [Content β] (hplain : ∀ n ∈ p, PosixPath.isPlain n = true) (hp : W <+: p)
    (hdown : ∀ m ∈ ms, ∀ linkname, m.kind = .symlink linkname → LeadsDown linkname.normpath) :
    Hosts (descent W) (descent W) (fun q => W <+: q ∨ q <+: W) ms p fun y =>
      y ∈ ms ∧ (p = W → isFileOrDir y.kind = true) where
  stricter _ _ h := h
  upper d := by
    refine within_makeUpperdirs hplain fun v hv t ht q hq => ?_
    have hv' : ∀ n ∈ v, PosixPath.isPlain n = true := fun n hn => hplain n (hv.subset hn)
    rcases List.prefix_or_prefix_of_prefix hp hv with hbelow | habove
    · exact admits_below ht hv' hbelow hq (by simp)
    · obtain rfl := (firm_descent hv' habove).leads ht q hq
      exact ⟨hv', .inr habove, fun _ h => by cases h⟩
  dirs t ht q hq :=
    ⟨admits_below ht hplain hp hq (by simp),
      fun r hr => .inl ((below_of_locate ht hplain hp hq).1.trans hr)⟩
  files y _ b _ t ht q hq :=
    ⟨admits_below ht hplain hp hq (by simp), fun n => admits_below ht hplain hp hq (by simp)⟩
  links y hy linkname hk t ht q hq := by
    have hne : p ≠ W := fun h => by simpa [hk, isFileOrDir] using hy.2 h
    exact admits_link_below ht hplain hp hne hq (hdown y hy.1 linkname hk)
  next before x y before' hx hfit hstands :=
    ⟨(hstands.at hx).mem, fun h => absurd (hfit.2 h) hstands.not_isFileOrDir⟩

/-- A path where no link stands hosts files and directories, and no link is made. -/
theorem hosts_of_noLink [Content β] {t : FileTree β} (hplain : ∀ n ∈ p, PosixPath.isPlain n = true)
    (hlink : NoLink t p) :
    Hosts (linksOf t) (linksOf t) (fun _ => True) ms p fun y => isFileOrDir y.kind = true := by
  have hfirm : Firm (linksOf t) p := ⟨hplain, fun q hq tgt hmay => hlink q hq tgt (hmay tgt rfl)⟩
  refine hosts_of_firm (fun _ _ h => h) hfirm (fun q _ tgt h => by cases h) (fun y _ b _ => ⟨?_, fun n => ?_⟩)
    (fun y hy linkname hk => by simp [hk, isFileOrDir] at hy) (fun _ _ => trivial)
    fun before x y before' _ hfit hstands => absurd hfit hstands.not_isFileOrDir
  · intro tgt h
    cases h
  · intro tgt h
    cases h

/-- What is in such a directory may be given a second name there. -/
theorem joins_below (hplain : ∀ n ∈ p, PosixPath.isPlain n = true) (hp : W <+: p) (hne : p ≠ W)
    (hplain' : ∀ n ∈ source, PosixPath.isPlain n = true) (hsource : W <+: source) :
    Joins (@descent β W) (fun q => W <+: q ∨ q <+: W) (W <+: ·) source p where
  free t ht q r hq hr :=
    ⟨(below_of_locate ht hplain' hsource hq).1, (below_of_locate ht hplain hp hr).1⟩
  admits t ht q r e hq hr he _ := by
    cases e with
    | symlink tgt =>
      have hdown := (ht.allowed q _ he tgt rfl).2 (below_of_locate ht hplain' hsource hq).1
      exact admits_link_below ht hplain hp hne hr hdown
    | dir => exact admits_below ht hplain hp hr (by simp)
    | file b => exact admits_below ht hplain hp hr (by simp)

section Descending

variable [Content β] (h : Named base t₀ dest ms) (hdown : Descending base ms)
  (hdest : ∀ n ∈ dest, PosixPath.isPlain n = true) (ht₀ : IsTree t₀) (hempty : EmptyDir t₀ (dest ++ [base]))

include h hdown hdest ht₀ hempty

/-- **An archive whose links lead down** is extracted in steady rounds. -/
theorem steady_of_descending : Steady (dest ++ [base]) t₀ dest ms fun _ shared t =>
    Shares (dest ++ [base] <+: ·) shared ∧ Tidy (descent (dest ++ [base])) t := by
  rintro before m shared state d d' hat ⟨hshared, htidy⟩ hsame hround
  have hm := hat.mem
  have hplain := h.plain_place hdest hm
  have hlink₀ := h.noLink ht₀ hempty hm
  obtain ⟨shared', d₁, hone, hpure⟩ := bind_eq_ok.mp hround
  obtain ⟨rfl, rfl⟩ := pure_eq_ok.mp hpure
  by_cases hin : [base] <+: m.name
  · have hin' : dest ++ [base] <+: dest ++ m.name := (List.prefix_append_right_inj dest).mpr hin
    have htop : dest ++ m.name = dest ++ [base] → isFileOrDir m.kind = true :=
      fun heq => hdown.top m hm (List.append_cancel_left heq)
    have hconfines := confines_extractOne_of hplain (hosts_below hplain hin' hdown.leadsDown)
      (fun r hr => ⟨.inl hr, fun b _ h => by cases h⟩) hat ⟨hm, htop⟩ (fun linkname hk =>
        joins_below hplain hin' (fun heq => by simpa [hk, isFileOrDir] using htop heq)
          (fun n hn => ?_) ((List.prefix_append_right_inj dest).mpr (h.linknames m hm linkname hk))) hshared htidy
    · refine ⟨rfl, ⟨hconfines.good _ _ hone, ?_⟩, iff_of_true
        (sameOutside_of_confines ht₀ hempty.dir htidy.tree.rooted hsame hconfines hround)
        (staysIn_of_below ht₀ hempty.dir hplain hlink₀ hin')⟩
      have htidy' := hconfines.tidy
      rwa [hone] at htidy'
    · rcases List.mem_append.mp hn with hn | hn
      · exact hdest n hn
      · exact h.plainLink m hm linkname hk n hn
  · -- a file or a directory beside the directory makes no link, and is led over none
    have hout : ¬ dest ++ [base] <+: dest ++ m.name := fun hpre => hin ((List.prefix_append_right_inj dest).mp hpre)
    obtain ⟨-, hkind⟩ := (h.beside m hm).resolve_left hin
    have hlink : NoLink d.tree (dest ++ m.name) := fun q hq tgt he =>
      hlink₀ q hq tgt ((hsame q fun hW => hout (hW.trans hq)) ▸ he)
    have hconfines := confines_extractOne_of hplain (hosts_of_noLink hplain hlink)
      (fun r _ => ⟨trivial, fun b _ h => by cases h⟩) hat hkind
      (fun linkname hk => by simp [hk, isFileOrDir] at hkind) hshared ⟨htidy.tree, fun _ _ he _ htgt => htgt ▸ he⟩
    obtain ⟨e, he, hkind⟩ := exists_kindOf hkind
    refine ⟨rfl, ⟨hconfines.good _ _ hone, ?_⟩,
      same_iff_staysIn_of_noLink he hkind hplain hlink₀ hlink hout hshared hsame hround⟩
    have htidy' := hconfines.tidy
    rw [hone] at htidy'
    exact htidy'.mono fun q e _ hmay tgt htgt => htidy.allowed q _ (hmay tgt htgt) tgt rfl

end Descending

end TarFile
