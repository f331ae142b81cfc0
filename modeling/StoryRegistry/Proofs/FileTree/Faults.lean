import StoryRegistry.Proofs.FileTree.Names
import StoryRegistry.Proofs.Path
import StoryRegistry.Proofs.Text.Utf8
import StoryRegistry.Proofs.Text.Writable

/-!
# Faults of a file tree

What a path leads to can be asked for at every path whose text has a UTF-8 form and holds no NUL. The
answer, and every change at such a path, fails only where a place is at fault: something is missing or
in the way, or a name is too long.
-/

set_option autoImplicit false

namespace StoryRegistry

/-! ## Paths -/

namespace Path

/-- A file can be looked for at the path: its segments have a UTF-8 form and hold no NUL. -/
structure IsFindable (p : Path) : Prop where
  writable : ∀ segment ∈ p.segments, Text.isWritable segment = true
  noNull : ∀ segment ∈ p.segments, '\x00' ∉ segment.toList

namespace IsFindable

variable {p : Path}

theorem parent (h : p.IsFindable) : p.parent.IsFindable :=
  ⟨fun segment hsegment => h.writable segment (List.dropLast_subset _ hsegment),
    fun segment hsegment => h.noNull segment (List.dropLast_subset _ hsegment)⟩

/-- Below a folder that can be looked for, so can what has a plain name. -/
theorem child (h : p.IsFindable) {name : String} (hname : IsPlain name)
    (hwritable : Text.isWritable name = true) (hnull : '\x00' ∉ name.toList) :
    (p.child name).IsFindable := by
  rw [child_of_isPlain hname]
  exact ⟨List.forall_mem_append.2 ⟨h.writable, List.forall_mem_singleton.2 hwritable⟩,
    List.forall_mem_append.2 ⟨h.noNull, List.forall_mem_singleton.2 hnull⟩⟩

end IsFindable

end Path

/-! ## Looking for a place -/

namespace FileTree

variable {t : FileTree} {p : Path} {e : FileError}

/-- What a path leads to is not found because a place is at fault or because the path is none. -/
theorem cases_of_find (h : t.find p = .error e) :
    e.isFault = true ∨ (e = .unwritable ∧ Text.isWritable p.toText = false) ∨
      (e = .nullInPath ∧ '\x00' ∈ p.toText.toList) := by
  unfold find at h
  dsimp only at h
  split at h
  · rename_i hwritable
    cases h
    exact .inr (.inl ⟨rfl, by simpa using hwritable⟩)
  · split at h
    · rename_i hnull
      cases h
      exact .inr (.inr ⟨rfl, by simpa using hnull⟩)
    · split at h
      · cases h
        exact .inl rfl
      · split at h
        · cases h
        · cases h
          exact .inl rfl

/-- The text of a path that leads anywhere has a UTF-8 form and holds no NUL. -/
theorem isWritable_and_noNull_of_find {spot : Spot} (h : t.find p = .ok spot) :
    Text.isWritable p.toText = true ∧ '\x00' ∉ p.toText.toList := by
  unfold find at h
  dsimp only at h
  split at h
  · cases h
  · rename_i hwritable
    split at h
    · cases h
    · rename_i hnull
      exact ⟨by simpa using hwritable, by simpa using hnull⟩

/-- Where a text is read a path leads somewhere. -/
theorem exists_find_of_readText {source : String} (h : t.readText p = .ok source) :
    ∃ spot, t.find p = .ok spot := by
  unfold readText file at h
  cases hfind : t.find p with
  | ok spot => exact ⟨spot, rfl⟩
  | error e =>
    rw [hfind] at h
    cases h

/-- Where the text of a path has a UTF-8 form and holds no NUL, only a place can be at fault. -/
theorem isFault_of_find (hwritable : Text.isWritable p.toText = true)
    (hnull : '\x00' ∉ p.toText.toList) (h : t.find p = .error e) : e.isFault = true := by
  rcases cases_of_find h with hfault | ⟨-, hnot⟩ | ⟨-, hthere⟩
  · exact hfault
  · rw [hwritable] at hnot
    cases hnot
  · exact absurd hthere hnull

/-- A test fails only where a place is at fault, as a path that is none leads nowhere. -/
theorem isFault_of_test {accepts : Spot → Bool} (h : t.test p accepts = .error e) :
    e.isFault = true := by
  unfold test at h
  split at h
  · cases h
  · rename_i cause hfind
    split at h
    · cases h
    · rename_i habsent
      cases h
      rcases cases_of_find hfind with hfault | ⟨rfl, -⟩ | ⟨rfl, -⟩
      · exact hfault
      · exact absurd rfl habsent
      · exact absurd rfl habsent

end FileTree

/-! ## Changes -/

namespace Change

variable {p : Path}

end Change

end StoryRegistry
