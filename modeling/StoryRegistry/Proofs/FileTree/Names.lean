import StoryRegistry.Proofs.FileTree.Growth
import StoryRegistry.Proofs.Naming

/-!
# Names of files

A plain name is one segment of a path. Below a folder it leads to a place of its own, so that files
with different plain names in one folder are different files. An item name with an ending is plain.
-/

set_option autoImplicit false

namespace StoryRegistry

namespace Path

/-- The name is one segment that leads to a file or a folder. -/
structure IsPlain (name : String) : Prop where
  noSlash : '/' ∉ name.toList
  filled : name ≠ ""
  notHere : name ≠ "."
  notAbove : name ≠ ".."

theorem IsPlain.isSegment {name : String} (h : IsPlain name) : IsSegment name :=
  ⟨h.noSlash, h.filled, h.notHere⟩

/-- A plain name becomes the last segment. -/
theorem child_of_isPlain {name : String} (h : IsPlain name) (p : Path) :
    p.child name = { p with segments := p.segments ++ [name] } := by
  have hparts : Text.parts '/' name = [name] := by
    rw [Text.parts, Text.splitOn_eq_singleton h.noSlash, List.map_singleton, String.ofList_toList]
  have hslashes : leadingSlashes name.toList = 0 := by
    have hno := h.noSlash
    cases hname : name.toList with
    | nil => rfl
    | cons c rest =>
      rw [hname] at hno
      have hc : c ≠ '/' := fun heq => hno (heq ▸ List.mem_cons_self)
      unfold leadingSlashes
      split <;> simp_all
  have hsegments : [name].filter (fun segment => segment != "" && segment != ".") = [name] := by
    simp [h.filled, h.notHere]
  simp [child, join, ofString, isAbsolute, hslashes, hparts, hsegments]

/-- A plain name is held by the directory that it was added to. -/
theorem parent_child {name : String} (h : IsPlain name) (p : Path) : (p.child name).parent = p := by
  rw [child_of_isPlain h, parent, List.dropLast_concat]

/-- Above a plain name are the directory that it was added to and those above that one. -/
theorem ancestors_child {name : String} (h : IsPlain name) (p : Path) :
    (p.child name).ancestors = p :: p.ancestors := by
  rw [ancestors_eq (by rw [child_of_isPlain h]; simp), parent_child h]

end Path

namespace FileTree

/-- A plain name leads to the place with that name below the folder. -/
theorem placeOf_child {name : String} (h : Path.IsPlain name) (t : FileTree) (p : Path) :
    t.placeOf (p.child name) = t.placeOf p ++ [name] := by
  rw [Path.child_of_isPlain h, placeOf, placeOf, Place.along_concat h.notAbove]
  rfl

/-- In one folder different plain names lead to different places. -/
theorem placeOf_child_injective {name other : String} (h : Path.IsPlain name)
    (hother : Path.IsPlain other) {t : FileTree} {p : Path}
    (heq : t.placeOf (p.child name) = t.placeOf (p.child other)) : name = other := by
  rw [placeOf_child h, placeOf_child hother] at heq
  exact List.singleton_inj.1 (List.append_cancel_left heq)

/-- A file in a folder is none in a folder below. -/
theorem placeOf_child_ne {name folder other : String} (h : Path.IsPlain name)
    (hfolder : Path.IsPlain folder) (hother : Path.IsPlain other) (t : FileTree) (p : Path) :
    t.placeOf (p.child name) ≠ t.placeOf ((p.child folder).child other) := by
  rw [placeOf_child h, placeOf_child hother, placeOf_child hfolder, List.append_assoc]
  intro heq
  have hlength := congrArg List.length (List.append_cancel_left heq)
  simp at hlength

end FileTree

namespace Schema

/-- An item name holds neither dots nor slashes. -/
theorem ne_dot_and_slash {name : String} (h : isItemName name = true) :
    ∀ c ∈ name.toList, c ≠ '.' ∧ c ≠ '/' := by
  intro c hc
  rcases (chars_of_isItemName h).2 c hc with rfl | hchar
  · decide
  · constructor <;> rintro rfl <;> exact absurd hchar (by decide)

/-- An item name with an ending is plain. -/
theorem isPlain_of_isItemName {name ending : String} (h : isItemName name = true)
    (hending : '/' ∉ ending.toList) : Path.IsPlain (name ++ ending) := by
  have hfilled := (chars_of_isItemName h).1
  have hchars := ne_dot_and_slash h
  have hfirst : ∀ c rest, (name ++ ending).toList = c :: rest → c ≠ '.' := by
    intro c rest heq
    cases hname : name.toList with
    | nil => exact absurd hname hfilled
    | cons first more =>
      rw [String.toList_append, hname, List.cons_append, List.cons.injEq] at heq
      exact heq.1 ▸ (hchars first (hname ▸ List.mem_cons_self)).1
  refine ⟨fun hmem => ?_, fun heq => ?_, fun heq => ?_, fun heq => ?_⟩
  · rcases List.mem_append.1 (String.toList_append ▸ hmem) with hmem | hmem
    · exact (hchars _ hmem).2 rfl
    · exact hending hmem
  · have hempty : name.toList ++ ending.toList = [] := by rw [← String.toList_append, heq]; rfl
    exact hfilled (List.append_eq_nil_iff.1 hempty).1
  · exact hfirst '.' [] (by rw [heq]; rfl) rfl
  · exact hfirst '.' ['.'] (by rw [heq]; rfl) rfl

end Schema

end StoryRegistry
