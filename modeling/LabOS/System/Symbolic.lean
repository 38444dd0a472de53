import LabOS.System

/-!
# Symbolic contents

File contents as terms: the bytes a guest wrote, an archive of members, a manifest, or
what is none of these. The codec over them satisfies every law a codec is asked for,
so the laws are consistent, and an environment over them can be run.
-/

namespace LabOS

/-- The content of a file, by how it was made. -/
inductive Blob where
  /-- Text that was written in a lab. -/
  | data (labId : String) (text : List Char)
  | archive (members : List (Member Blob))
  | manifest (payload : Manifest)
  | junk

namespace Blob

/-- A text that is cut short is a shorter text; of an archive or a manifest nothing remains to be read. -/
instance : Content Blob where
  truncate n
    | .data labId text => .data labId (text.take n)
    | _ => .junk
  truncate_truncate m n b := by cases b <;> simp [List.take_take]

/-- The codec over terms. -/
def codec : Codec Blob where
  tarGz := .archive
  getmembers
    | .archive ms => some ms
    | _ => none
  dumps := .manifest
  loads
    | .manifest o => .ok o
    | _ => .error .jsonDecode
  size
    | .data _ text => text.length
    | _ => 0
  sha256
    | .data _ text => String.ofList text
    | _ => ""
  getmembers_tarGz _ := rfl
  getmembers_truncate _ _ _ h := by cases h
  loads_dumps _ := rfl
  loads_truncate _ _ _ h := by cases h

end Blob

/-- The `n`-th identifier. -/
def unaryId (n : ℕ) : String := String.ofList (List.replicate (n + 1) 'a')

theorem unaryId_injective : Function.Injective unaryId := by
  intro m n h
  have hlen := congrArg (fun s => s.toList.length) h
  simpa [unaryId] using hlen

theorem unaryId_isIdentifier (n : ℕ) : isIdentifier (unaryId n) = true := by
  have hne : ∀ s : String, s.toList.head? ≠ some 'a' → unaryId n ≠ s := by
    rintro s hs rfl
    exact hs (by simp [unaryId, List.replicate_succ])
  have hmem : ∀ c : Char, c ≠ 'a' → c ∉ (unaryId n).toList := by
    intro c hc
    simp [unaryId, hc]
  simp [isIdentifier, PosixPath.isPlain, hne "" (by decide), hne "." (by decide), hne ".." (by decide),
    hmem '/' (by decide), hmem '.' (by decide)]

/-- An environment over terms, with a profile table. -/
def symbolic (profiles : Profiles) : Environment Blob where
  root := ["srv"]
  profiles := profiles
  secrets _ := some "secret"
  codec := Blob.codec
  uuid4 := unaryId
  rootPlain := by decide
  uuid4_injective := unaryId_injective
  uuid4_isIdentifier := unaryId_isIdentifier

/-- The state such an environment starts in: no rows, and an empty managed root. -/
def emptyState : State Blob := ⟨Store.empty, FileTree.set ∅ ["srv"] .dir, 0⟩

theorem lookup_emptyState {p : PosixPath} (hp : p ≠ []) :
    emptyState.tree.lookup p = if p = ["srv"] then some .dir else none := by
  show (FileTree.set ∅ ["srv"] .dir : FileTree Blob).lookup p = _
  rw [FileTree.lookup_set (by simp)]
  simp [FileTree.lookup, hp]

theorem initial_emptyState (profiles : Profiles) : Initial (symbolic profiles) emptyState where
  store := rfl
  tree := FileTree.isTree_of_checkTree (by decide)
  noLink := by
    intro q _ tgt h
    by_cases hq : q = []
    · rw [hq] at h
      cases h
    · rw [lookup_emptyState hq] at h
      split at h <;> cases h
  unused := by
    intro p hp
    have hne : p ≠ ["srv"] := by
      rintro rfl
      simp [strictlyBelow, symbolic] at hp
    by_cases h0 : p = []
    · rw [h0] at hp
      simp [strictlyBelow, symbolic] at hp
    · rw [lookup_emptyState h0, if_neg hne]

end LabOS
