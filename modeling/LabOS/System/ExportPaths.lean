import LabOS.System.Symbolic
import LabOS.Library.Confinement

/-!
# Export paths

Two checks read the path of an export. The policy engine compares its text with the prefixes
`/lab/exports/` and `/artifacts/approved/`; the gate parses it and asks for a path at or below
`/lab/exports`. Both have to let it pass.

## What is proved

* `export_checks_agree_iff` — for a path that goes nowhere up and names no export root, **the policy allows
  it exactly when the gate does not refuse it, if and only if** it is not written below
  `/artifacts/approved/`, and is written with `/lab/exports/` in front where it leads below `/lab/exports`.

## Where the two part

`export_checks_differ`: the policy allows `/artifacts/approved/x`, which the gate refuses, and refuses
`/lab//exports/x`, which the gate accepts.
-/

namespace PurePath

theorem splitParts_append (xs ys : List Char) :
    splitParts (xs ++ '/' :: ys) = splitParts xs ++ splitParts ys := by
  simp [splitParts, List.splitOn_append_cons_self]

/-- A text that begins with one slash is anchored there. -/
theorem parse_slash {s : String} {c : Char} {cs : List Char} (hs : s.toList = '/' :: c :: cs) (hc : c ≠ '/') :
    parse s = ⟨.slash, splitParts (c :: cs)⟩ := by
  unfold parse
  rw [hs]
  split
  · next h => exact absurd (List.cons.inj (List.cons.inj h).2).1 hc
  · next h => exact absurd (List.cons.inj (List.cons.inj h).2).1 hc
  · next h => rw [(List.cons.inj h).2]
  · next h => exact absurd rfl (h _)

/-- **A text that begins with a directory and a slash** is a path at or below that directory. -/
theorem parse_of_prefix {dir s : String} {c : Char} {cs : List Char} (hdir : dir.toList = '/' :: c :: cs)
    (hc : c ≠ '/') (h : dir.toList ++ ['/'] <+: s.toList) :
    ∃ rest, parse s = ⟨.slash, (parse dir).parts ++ rest⟩ := by
  obtain ⟨rest, hs⟩ := h
  have hs : s.toList = '/' :: c :: (cs ++ '/' :: rest) := by
    rw [← hs, hdir]
    simp
  refine ⟨splitParts rest, ?_⟩
  rw [parse_slash hs hc, parse_slash hdir hc, ← List.cons_append, splitParts_append]

/-- The parts that are kept of a text are not empty, and not `.`. -/
theorem mem_parts_parse {s n : String} (h : n ∈ (parse s).parts) : n ≠ "" ∧ n ≠ "." := by
  have hsplit : ∀ cs, n ∈ splitParts cs → n ≠ "" ∧ n ≠ "." := by
    intro cs hn
    simpa using (List.mem_filter.mp hn).2
  unfold parse at h
  split at h
  all_goals exact hsplit _ h

theorem mem_of_relativeTo {p base : PurePath} {relative : List String} {n : String}
    (h : p.relativeTo base = some relative) (hn : n ∈ relative) : n ∈ p.parts := by
  unfold relativeTo at h
  split at h
  · exact List.mem_of_mem_drop (Option.some.inj h ▸ hn)
  · cases h

end PurePath

namespace LabOS

open Exceptional FileOps FileTree PurePath PolicyEngine ExportGate

variable {β : Type}

/-- The path of a request names something in an export directory, whichever: no part of it is `..`, and it
is not one of the roots. -/
structure NamesArtifact (sourcePath : String) : Prop where
  noUp : ".." ∉ (parse sourcePath).parts
  notRoot : ∀ dir ∈ managedExportPrefixes, parse sourcePath ≠ parse dir

/-- The policy allows the path. -/
def PolicyAllows (profiles : Profiles) (profileName sourcePath : String) : Prop :=
  ∃ decision, validateExport profiles profileName sourcePath = .ok decision ∧ decision.allowed = true

/-- The gate refuses the path on grounds of policy. -/
def GateRefuses (storage : LabStorageRow) (sourcePath : String) (d : Disk β) : Prop :=
  ∃ message d', resolveManagedSource storage sourcePath d = .error (.exportPolicy message) d'

/-- The path is written below a directory, to the letter. -/
def WrittenBelow (dir sourcePath : String) : Prop := dir.toList ++ ['/'] <+: sourcePath.toList

instance (dir sourcePath : String) : Decidable (WrittenBelow dir sourcePath) :=
  inferInstanceAs (Decidable (_ <+: _))

variable {profiles : Profiles} {profileName sourcePath : String} {profile : Profile} {storage : LabStorageRow}
  {d : Disk β} {exportsRoot : PosixPath}

/-- The policy looks at the text. -/
theorem policyAllows_iff (hprofile : profile? profiles profileName = some profile) :
    PolicyAllows profiles profileName sourcePath ↔
      WrittenBelow "/lab/exports" sourcePath ∨ WrittenBelow "/artifacts/approved" sourcePath := by
  have hdecision : validateExport profiles profileName sourcePath =
      .ok (exportDecision profile sourcePath) := by
    rw [validateExport, getProfile_eq_ok.mpr hprofile]
    rfl
  have hallowed : (exportDecision profile sourcePath).allowed = true ↔
      WrittenBelow "/lab/exports" sourcePath ∨ WrittenBelow "/artifacts/approved" sourcePath := by
    have hprefixes : (managedExportPrefixes.any fun pre => pre.toList.isPrefixOf sourcePath.toList) = true ↔
        WrittenBelow "/lab/exports" sourcePath ∨ WrittenBelow "/artifacts/approved" sourcePath := by
      simp [managedExportPrefixes, WrittenBelow]
    rw [← hprefixes, exportDecision]
    split
    · next h => exact iff_of_true rfl h
    · next h => exact iff_of_false (by simp) h
  rw [← hallowed]
  constructor
  · rintro ⟨decision, hok, h⟩
    rw [hdecision] at hok
    exact Except.ok.inj hok ▸ h
  · exact fun h => ⟨_, hdecision, h⟩

/-- The gate looks at the parts: below an exports directory without links it refuses nothing else. -/
theorem gateRefuses_iff (hup : ".." ∉ (parse sourcePath).parts)
    (hroot : d.tree.realpath storage.exportsPath = (exportsRoot, true))
    (hlink : ∀ p, exportsRoot <+: p → ∀ tgt, d.tree.lookup p ≠ some (.symlink tgt)) :
    GateRefuses storage sourcePath d ↔ (parse sourcePath).relativeTo guestExportRoot = none := by
  unfold GateRefuses resolveManagedSource
  cases hrel : (parse sourcePath).relativeTo guestExportRoot with
  | none =>
    exact iff_of_true ⟨"exports must use a managed guest export path", d, rfl⟩ rfl
  | some relative =>
    -- what is asked for resolves to itself, so that the second check passes too
    have hres := resolved_of_realpath hroot
    have hnames : ∀ n ∈ exportsRoot ++ relative, PosixPath.IsName n := by
      intro n hn
      rcases List.mem_append.mp hn with hn | hn
      · exact hres.names n hn
      · have hpart := mem_of_relativeTo hrel hn
        refine ⟨(mem_parts_parse hpart).1, (mem_parts_parse hpart).2, ?_⟩
        rintro rfl
        exact hup hpart
    have hnoLink : NoLink d.tree (exportsRoot ++ relative) := by
      intro q hq
      rcases List.prefix_or_prefix_of_prefix hq (List.prefix_append exportsRoot relative) with habove | hbelow
      · exact hres.noLink q habove
      · exact hlink q hbelow
    have hsource := realpath_of_noLink hnames hnoLink
    refine iff_of_false ?_ (by simp)
    rintro ⟨message, d', h⟩
    rw [bind_run_of_ok (orRaise_eq_ok.mpr ⟨rfl, rfl⟩),
      bind_run_of_ok (files_eq_ok.mpr (resolve_of_realpath hroot)),
      bind_run_of_ok (files_eq_ok.mpr (resolve_of_realpath hsource)),
      raiseIf, if_neg (not_not.mpr (List.prefix_append _ _))] at h
    cases h

/-- A path written below `/lab/exports` is accepted by the gate, and one written below `/artifacts/approved`
is not. -/
theorem relativeTo_of_writtenBelow (h : WrittenBelow "/lab/exports" sourcePath) :
    (parse sourcePath).relativeTo guestExportRoot ≠ none := by
  have hparse : ∃ rest, parse sourcePath = ⟨.slash, (parse "/lab/exports").parts ++ rest⟩ :=
    parse_of_prefix rfl (by decide) h
  obtain ⟨rest, hparse⟩ := hparse
  rw [hparse, relativeTo, if_pos ⟨rfl, List.prefix_append _ _⟩]
  simp

theorem relativeTo_eq_none_of_writtenBelow (h : WrittenBelow "/artifacts/approved" sourcePath) :
    (parse sourcePath).relativeTo guestExportRoot = none := by
  have hparse : ∃ rest, parse sourcePath = ⟨.slash, (parse "/artifacts/approved").parts ++ rest⟩ :=
    parse_of_prefix rfl (by decide) h
  obtain ⟨rest, hparse⟩ := hparse
  have hfirst : (parse "/artifacts/approved").parts = ["artifacts", "approved"] := by decide
  rw [hparse, relativeTo, if_neg]
  rintro ⟨-, hpre⟩
  rw [hfirst] at hpre
  simp [guestExportRoot] at hpre

/-- **The policy engine and the gate agree on a path exactly when** it is not written below
`/artifacts/approved`, and is written below `/lab/exports`, to the letter, where it leads there. The path
goes nowhere up and is not one of the roots, and no link stands below the exports directory of the lab. -/
theorem export_checks_agree_iff (profiles : Profiles) (profileName : String) (profile : Profile)
    (hprofile : profile? profiles profileName = some profile) (sourcePath : String)
    (hpath : NamesArtifact sourcePath) (storage : LabStorageRow) (d : Disk β) (exportsRoot : PosixPath)
    (hroot : d.tree.realpath storage.exportsPath = (exportsRoot, true))
    (hlink : ∀ p, exportsRoot <+: p → ∀ tgt, d.tree.lookup p ≠ some (.symlink tgt)) :
    (PolicyAllows profiles profileName sourcePath ↔ ¬ GateRefuses storage sourcePath d) ↔
      ¬ WrittenBelow "/artifacts/approved" sourcePath ∧
        ((parse sourcePath).anchor = .slash ∧ ["lab", "exports"] <+: (parse sourcePath).parts →
          WrittenBelow "/lab/exports" sourcePath) := by
  have hleads : (parse sourcePath).relativeTo guestExportRoot ≠ none ↔
      (parse sourcePath).anchor = .slash ∧ ["lab", "exports"] <+: (parse sourcePath).parts := by
    rw [relativeTo]
    split
    · next h => exact iff_of_true (by simp) h
    · next h => exact iff_of_false (by simp) h
  rw [policyAllows_iff hprofile, gateRefuses_iff hpath.noUp hroot hlink, ← hleads]
  constructor
  · intro hagree
    exact ⟨fun hbelow => hagree.mp (.inr hbelow) (relativeTo_eq_none_of_writtenBelow hbelow), fun h =>
      (hagree.mpr h).resolve_right fun hbelow => h (relativeTo_eq_none_of_writtenBelow hbelow)⟩
  · rintro ⟨happroved, hletter⟩
    exact ⟨fun h => relativeTo_of_writtenBelow (h.resolve_right happroved), fun h => .inl (hletter h)⟩

/-- The storage row of a lab whose tree is below `/srv`. -/
def srvStorage : LabStorageRow where
  labId := "a"
  persistenceMode := "ephemeral"
  rootPath := ["srv", "labs", "a"]
  workspacePath := ["srv", "labs", "a", "workspace"]
  exportsPath := ["srv", "labs", "a", "exports"]
  quarantinePath := ["srv", "labs", "a", "quarantine"]
  snapshotsPath := ["srv", "labs", "a", "snapshots"]
  workspaceMountTarget := "/workspace"

theorem noLink_emptyState : ∀ p, ["srv", "labs", "a", "exports"] <+: p →
    ∀ tgt, emptyState.tree.lookup p ≠ some (.symlink tgt) := by
  intro p hp tgt he
  rw [lookup_emptyState (List.ne_nil_of_mem (hp.subset List.mem_cons_self))] at he
  split at he <;> cases he

/-- A file of the exports directory passes both checks. -/
theorem export_checks_agree_iff_report :
    PolicyAllows defaultProfiles "safe-dev" "/lab/exports/r.txt" ↔
      ¬ GateRefuses srvStorage "/lab/exports/r.txt" ⟨emptyState.tree, []⟩ := by
  have hprofile : (profile? defaultProfiles "safe-dev").isSome = true := by decide +kernel
  obtain ⟨profile, hprofile⟩ := Option.isSome_iff_exists.mp hprofile
  exact (export_checks_agree_iff defaultProfiles "safe-dev" profile hprofile "/lab/exports/r.txt"
    ⟨by decide, by decide⟩ srvStorage ⟨emptyState.tree, []⟩ ["srv", "labs", "a", "exports"] rfl
    noLink_emptyState).mpr ⟨by decide, fun _ => by decide⟩

/-- **The two checks differ**: on a path below `/artifacts/approved`, which only the policy engine knows,
and on another spelling of a path below `/lab/exports`, which only the gate understands. -/
theorem export_checks_differ :
    (NamesArtifact "/artifacts/approved/x" ∧ PolicyAllows defaultProfiles "safe-dev" "/artifacts/approved/x" ∧
      GateRefuses srvStorage "/artifacts/approved/x" ⟨emptyState.tree, []⟩) ∧
    NamesArtifact "/lab//exports/x" ∧ ¬ PolicyAllows defaultProfiles "safe-dev" "/lab//exports/x" ∧
      ¬ GateRefuses srvStorage "/lab//exports/x" ⟨emptyState.tree, []⟩ := by
  have hprofile : (profile? defaultProfiles "safe-dev").isSome = true := by decide +kernel
  obtain ⟨profile, hprofile⟩ := Option.isSome_iff_exists.mp hprofile
  rw [policyAllows_iff hprofile, policyAllows_iff hprofile, gateRefuses_iff (by decide) rfl noLink_emptyState,
    gateRefuses_iff (by decide) rfl noLink_emptyState]
  exact ⟨⟨⟨by decide, by decide⟩, by decide⟩, ⟨by decide, by decide⟩, by decide⟩

end LabOS
