import LabOS.Core.StateMachine
import LabOS.System.Coherence
import LabOS.System.Labs

/-!
# The lifecycles that run

The transition tables of `LabOS.Core.StateMachine` are declared and consulted by nothing
that writes a state. What runs is close to them: a lab ends in one step, without being
`destroying` in between, a run that never started can time out, an export that needs no
approval goes from quarantine straight to the released area, and an approved one can still
be denied.

## What is proved

* `lifecycle_steps` — every change of a state is an edge of the table or one of these.
* `lab_skips_destroying` — deleting an approved lab is no edge of the table.
-/

namespace LabOS

open Exceptional

variable {β : Type}

/-! ### Runs -/

/-- A run before and after some sweeps: its state is as it was, or its time was up. -/
def SweptRun (run run' : RunRow) : Prop := run'.state = run.state ∨ run'.state = .timedOut

theorem sweptRun_of_sweep {now : DateTime} {st st' : Store} {id : String} {run : RunRow}
    (h : Sweep now st st') (hrun : st.runs.get? id = some run) : ∃ run', st'.runs.get? id = some run' ∧
      SweptRun run run' := by
  cases h with
  | runTimedOut h₂ =>
    exact Table.exists_move_of_put (R := SweptRun) (fun _ => .inl rfl) h₂ rfl (.inr rfl) hrun
  | _ => exact ⟨run, hrun, .inl rfl⟩

theorem sweptRun_of_sweeps {now : DateTime} {st st' : Store} {id : String} {run : RunRow}
    (h : Sweeps now st st') (hrun : st.runs.get? id = some run) : ∃ run', st'.runs.get? id = some run' ∧
      SweptRun run run' := by
  induction h with
  | refl => exact ⟨run, hrun, .inl rfl⟩
  | tail _ hsweep ih =>
    obtain ⟨run₁, h₁, hfirst⟩ := ih
    obtain ⟨run₂, h₂, hstate | hstate⟩ := sweptRun_of_sweep hsweep h₁
    · exact ⟨run₂, h₂, hfirst.imp hstate.trans hstate.trans⟩
    · exact ⟨run₂, h₂, .inr hstate⟩

variable [Content β] {env : Environment β}

section Effects

variable {now : ℤ} {r : Request β} {m m' : ℕ} {st st' : Store}

/-- A run stays, and its state changes only to `timed_out`, by a pass. -/
theorem runMove_of_effect {id : String} {run : RunRow} (h : Effect env now r m m' st st')
    (hrun : st.runs.get? id = some run) :
    ∃ run', st'.runs.get? id = some run' ∧
      (run'.state = run.state ∨ (∃ at', IsPass r at') ∧ run'.state = .timedOut) := by
  cases h with
  | runCreated new | jobMadeRun _ _ _ new => exact ⟨run, Table.get?_put_of_fresh new.fresh hrun, .inl rfl⟩
  | reconciled sweeps =>
    obtain ⟨run', hrun', hswept⟩ := sweptRun_of_sweeps sweeps hrun
    exact ⟨run', hrun', hswept.imp_right fun hstate => ⟨⟨_, _, _, _, _, rfl, rfl⟩, hstate⟩⟩
  | _ => exact ⟨run, hrun, .inl rfl⟩

/-- A run is queued until its time is up. -/
theorem queued_of_effect (h : Effect env now r m m' st st')
    (hst : ∀ id run, st.runs.get? id = some run → run.state = .queued ∨ run.state = .timedOut) :
    ∀ id run, st'.runs.get? id = some run → run.state = .queued ∨ run.state = .timedOut := by
  intro id run' hrun'
  have hold : (∃ run, st.runs.get? id = some run) → run'.state = .queued ∨ run'.state = .timedOut := by
    rintro ⟨run, hrun⟩
    obtain ⟨run₁, hrun₁, hmove⟩ := runMove_of_effect h hrun
    obtain rfl := Option.some.inj (hrun₁.symm.trans hrun')
    rcases hmove with hstate | ⟨-, hstate⟩
    · rw [hstate]
      exact hst id run hrun
    · exact .inr hstate
  cases h with
  | runCreated new | jobMadeRun _ _ _ new =>
    rcases Table.eq_or_of_get?_put hrun' with ⟨-, rfl⟩ | ⟨-, hrun⟩
    · exact .inl new.state
    · exact hold ⟨_, hrun⟩
  | reconciled sweeps => exact hold ((addsNone_of_sweeps sweeps).runs hrun')
  | _ => exact hold ⟨_, hrun'⟩

end Effects

/-! ### Steps -/

/-- The request decides an approval of a lab that is not waiting for one. -/
def DecidesUnpending (st : Store) (r : Request β) (lab : LabRow) : Prop :=
  lab.state ≠ .pendingApproval ∧
    ∃ decision approvalId actor comment a, r = decisionRequest decision approvalId actor comment ∧
    st.approvals.get? approvalId = some a ∧ a.resourceType = "lab" ∧ a.resourceId = lab.id

section Steps

variable {now : ℤ} {r : Request β} {m m' : ℕ} {st st' : Store}

omit [Content β] in
/-- A lab moves along the table, or is destroyed. -/
theorem labStep_of_move {lab lab' : LabRow} (hlived : lab.state ∈ livedStates)
    (h : LabMove now st st' r lab lab') (hpending : ¬ DecidesUnpending st r lab)
    (hchanged : lab'.state ≠ lab.state) :
    lab'.state ∈ labTransitions lab.state ∨ r = .destroyLab lab.id ∧ lab'.state = .destroyed := by
  cases h with
  | same => exact absurd rfl hchanged
  | destroyed request => exact .inr ⟨request, rfl⟩
  | @decided decision approvalId actor comment a request decides type resource =>
    have hstate : lab.state = .pendingApproval := by
      by_contra hne
      exact hpending ⟨hne, decision, _, actor, comment, a, request, decides.row, type, resource⟩
    rw [hstate]
    cases decision <;> exact .inl (by simp [App.decidedLab, labTransitions])
  | swept _ swept =>
    rcases swept.state with hs | ⟨halive, hs⟩ | ⟨hdestroying, -⟩
    · exact absurd hs hchanged
    · rw [hs] at hchanged ⊢
      simp only [livedStates, List.mem_cons, List.not_mem_nil, or_false] at hlived
      rcases hlived with h | h | h | h
      · rw [h]
        exact .inl (by simp [labTransitions])
      · rw [h]
        exact .inl (by simp [labTransitions])
      · exact absurd h.symm hchanged
      · exact absurd h halive
    · simp [livedStates, hdestroying] at hlived

omit [Content β] in
/-- An export moves along the table, is released without an approval, or denied after one. -/
theorem exportStep_of_move {row row' : ExportRow} (hst : Coherent st)
    (hrow : st.exports.get? row.id = some row) (h : ExportMove now st st' r row row')
    (hchanged : row'.state ≠ row.state) :
    exportTransitions row.state = [] ∨ row'.state ∈ exportTransitions row.state ∨
      (r = .releaseExport row.id ∧ row.state = .quarantined ∧ row.approvalRequired = false ∧
        row'.state = .released) ∨
      ∃ reason, r = .denyExport row.id reason ∧ row.state = .approved ∧ row'.state = .rejected := by
  have hwaiting : Waits row → exportTransitions row.state = [] ∨ row.state = .quarantined := by
    intro hwaits
    rcases hwaits.2 with hs | hs
    · exact .inr hs
    · exact .inl (by rw [hs]; rfl)
  cases h with
  | same => exact absurd rfl hchanged
  | @decided decision _ _ _ a _ decides type resource _ =>
    have ha : st.approvals.get? a.id = some a := Table.key_of_get? decides.row ▸ decides.row
    rcases hwaiting (waits_of_pending hst ha decides.pending type resource hrow) with hnone | hs
    · exact .inl hnone
    · rw [hs]
      cases decision <;> exact .inr (.inl (by simp [App.decidedExport, exportTransitions]))
  | released request _ unrejected unreleased cleared =>
    rcases (hst.exports row.id row hrow).state with hs | hs | hs | hs
    · exact .inr (.inr (.inl ⟨request, hs, cleared, rfl⟩))
    · exact .inr (.inl (by simp [hs, exportTransitions]))
    · exact absurd hs unreleased
    · exact absurd hs unrejected
  | @denied reason request unrejected unreleased =>
    rcases (hst.exports row.id row hrow).state with hs | hs | hs | hs
    · exact .inr (.inl (by simp [hs, exportTransitions]))
    · exact .inr (.inr (.inr ⟨reason, request, hs, rfl⟩))
    · exact absurd hs unreleased
    · exact absurd hs unrejected
  | swept _ swept =>
    rcases swept with rfl | ⟨⟨a, ha, -, requested, -, type, resource⟩, rfl⟩
    · exact absurd rfl hchanged
    · rcases hwaiting (waits_of_pending hst ha requested type resource hrow) with hnone | hs
      · exact .inl hnone
      · exact .inr (.inl (by simp [hs, expiredExport, exportTransitions]))

end Steps

/-- **The lifecycles that run.** Within a request or pass from a reachable state, a lab changes its state
along the table or is destroyed by its `DELETE`, decisions on labs that do not wait for one aside; a run
only times out while it is queued, by a pass; and an export that is neither released nor rejected moves
along the table, is released from quarantine when it requires no approval, or is denied after it was
approved. -/
theorem lifecycle_steps (env : Environment β) (s₀ : State β) (h₀ : Initial env s₀) (actions : List (Action β))
    (r : Request β) (now : ℤ) (fates : List Fate) :
    (∀ lab ∈ (runFrom env s₀ actions).store.labs.rows,
      ∀ lab', (step env (runFrom env s₀ actions) (.request r now fates)).store.labs.get? lab.id = some lab' →
        labTransitions lab.state ≠ [] → lab'.state ≠ lab.state →
        ¬ DecidesUnpending (runFrom env s₀ actions).store r lab →
        lab'.state ∈ labTransitions lab.state ∨ r = .destroyLab lab.id ∧ lab'.state = .destroyed) ∧
    (∀ run ∈ (runFrom env s₀ actions).store.runs.rows,
      ∀ run', (step env (runFrom env s₀ actions) (.request r now fates)).store.runs.get? run.id = some run' →
        runTransitions run.state ≠ [] → run'.state ≠ run.state →
        (∃ at', IsPass r at') ∧ run.state = .queued ∧ run'.state = .timedOut) ∧
    ∀ row ∈ (runFrom env s₀ actions).store.exports.rows,
      ∀ row', (step env (runFrom env s₀ actions) (.request r now fates)).store.exports.get?
        row.id = some row' →
        exportTransitions row.state ≠ [] → row'.state ≠ row.state →
        row'.state ∈ exportTransitions row.state ∨
          (r = .releaseExport row.id ∧ row.state = .quarantined ∧ row.approvalRequired = false ∧
            row'.state = .released) ∨
          ∃ reason, r = .denyExport row.id reason ∧ row.state = .approved ∧ row'.state = .rejected := by
  have heffect := effect_of_answer env (runFrom env s₀ actions) r now fates
  refine ⟨fun lab hlab lab' hlab' hedges hchanged hpending => ?_,
    fun run hrun run' hrun' hedges hchanged => ?_,
    fun row hrow row' hrow' hedges hchanged => ?_⟩
  · obtain ⟨lab₁, hlab₁, hmove⟩ := labMove_of_effect heffect (Table.get?_of_mem hlab)
    obtain rfl := Option.some.inj (hlab₁.symm.trans hlab')
    exact labStep_of_move (lived_of_run h₀ actions lab.id lab (Table.get?_of_mem hlab)) hmove
      hpending hchanged
  · have hqueued : ∀ id run, (runFrom env s₀ actions).store.runs.get? id = some run →
        run.state = .queued ∨ run.state = .timedOut :=
      rows_kept (I := fun st => ∀ id run, st.runs.get? id = some run → run.state = .queued ∨
        run.state = .timedOut)
        queued_of_effect (h₀.store ▸ fun _ _ h => by cases h)
    obtain ⟨run₁, hrun₁, hmove⟩ := runMove_of_effect heffect (Table.get?_of_mem hrun)
    obtain rfl := Option.some.inj (hrun₁.symm.trans hrun')
    rcases hmove with hsame | ⟨hpass, hstate⟩
    · exact absurd hsame hchanged
    · rcases hqueued run.id run (Table.get?_of_mem hrun) with hs | hs
      · exact ⟨hpass, hs, hstate⟩
      · exact absurd (by rw [hs]; rfl) hedges
  · have hcoherent : Coherent (runFrom env s₀ actions).store :=
      rows_kept coherent_of_effect (h₀.store ▸ coherent_empty)
    obtain ⟨row₁, hrow₁, hmove⟩ := exportMove_of_effect heffect (Table.get?_of_mem hrow)
    obtain rfl := Option.some.inj (hrow₁.symm.trans hrow')
    exact (exportStep_of_move hcoherent (Table.get?_of_mem hrow) hmove hchanged).resolve_left hedges

/-- A lab that was approved at once is destroyed by its `DELETE`. -/
theorem lifecycle_steps_safeDev :
    ∃ lab ∈ (runFrom (symbolic defaultProfiles) emptyState
        [.request (.createLab "safe-dev" .human) 0 []]).store.labs.rows,
      ∃ lab', (step (symbolic defaultProfiles) (runFrom (symbolic defaultProfiles) emptyState
          [.request (.createLab "safe-dev" .human) 0 []])
            (.request (.destroyLab "a") 1 [])).store.labs.get? lab.id =
            some lab' ∧
        (lab'.state ∈ labTransitions lab.state ∨
          (.destroyLab "a" : Request Blob) = .destroyLab lab.id ∧ lab'.state = .destroyed) := by
  have hlab : ∃ lab ∈ (runFrom (symbolic defaultProfiles) emptyState
      [.request (.createLab "safe-dev" .human) 0 []]).store.labs.rows, lab.state = .approved ∧
        ((step (symbolic defaultProfiles) (runFrom (symbolic defaultProfiles) emptyState
          [.request (.createLab "safe-dev" .human) 0 []])
            (.request (.destroyLab "a") 1 [])).store.labs.get? lab.id).any
            (fun lab' => lab'.state = .destroyed) = true := by
    decide +kernel
  obtain ⟨lab, hlab, hstate, hafter⟩ := hlab
  obtain ⟨lab', hlab', hstate'⟩ := (Option.any_eq_true ..).mp hafter
  refine ⟨lab, hlab, lab', hlab',
    (lifecycle_steps (symbolic defaultProfiles) emptyState (initial_emptyState _) _
    (.destroyLab "a") 1 []).1 lab hlab lab' hlab' ?_ ?_ ?_⟩
  · rw [hstate]
    decide
  · rw [hstate, of_decide_eq_true hstate']
    decide
  · rintro ⟨-, decision, approvalId, actor, comment, a, request, -⟩
    cases decision <;> cases request

/-- **Not an edge of the table**: deleting an approved lab. -/
theorem lab_skips_destroying :
    ∃ lab ∈ (runFrom (symbolic defaultProfiles) emptyState
        [.request (.createLab "safe-dev" .human) 0 []]).store.labs.rows,
      labTransitions lab.state ≠ [] ∧
      ((step (symbolic defaultProfiles) (runFrom (symbolic defaultProfiles) emptyState
          [.request (.createLab "safe-dev" .human) 0 []])
            (.request (.destroyLab "a") 1 [])).store.labs.get? lab.id).any
        (fun lab' => lab'.state ≠ lab.state && !(labTransitions lab.state).contains lab'.state) = true := by
  decide +kernel

end LabOS
