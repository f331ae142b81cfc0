import StoryRegistry.Proofs.FileTree.Names
import StoryRegistry.Proofs.Text.Utf8

/-!
# When a file can be written

A file can be written where its folder is there and no folder is in its place. Writing one file
keeps others from being written no more than it makes a folder of them.
-/

set_option autoImplicit false

namespace StoryRegistry

namespace FileTree

/-- A file can be written at the path: the folder above is there, and the path leads to no folder.
-/
def takes (t : FileTree) (p : Path) : Bool :=
  match t.find p.parent, t.find p with
  | .ok (.folder _), .ok (.file _ _) => true
  | .ok (.folder _), .ok (.free _) => true
  | _, _ => false

/-- The tree with a text in the file to which a path leads. -/
def putText (t : FileTree) (p : Path) (text : String) : FileTree :=
  t.putFile (t.placeOf p) text.toUTF8.data.toList

/-- Where a file can be written, the folder above is found, and the path leads to its place. -/
theorem takes_iff {t : FileTree} {p : Path} :
    t.takes p = true ↔ (∃ place, t.find p.parent = .ok (.folder place)) ∧
      t.find p = .ok (t.spot (t.placeOf p)) ∧ t.spot (t.placeOf p) ≠ .folder (t.placeOf p) := by
  unfold takes
  constructor
  · intro h
    split at h
    · rename_i above place content hfolder hfile
      have hspot := spot_of_find hfile
      exact ⟨⟨above, hfolder⟩, by rw [hfile, hspot], by rw [← hspot]; simp⟩
    · rename_i above place hfolder hfree
      have hspot := spot_of_find hfree
      exact ⟨⟨above, hfolder⟩, by rw [hfree, hspot], by rw [← hspot]; simp⟩
    · cases h
  · rintro ⟨⟨above, hfolder⟩, hfind, hspot⟩
    rw [hfolder, hfind]
    cases hplace : t.spot (t.placeOf p) with
    | folder place =>
      obtain ⟨rfl, -⟩ := spot_eq_folder hplace
      exact absurd hplace hspot
    | file place content => rfl
    | free place => rfl

/-- The tree grows by a text in a file. -/
theorem grown_putText {t : FileTree} {p : Path} (h : t.takes p = true) (text : String) :
    Grown (· = t.placeOf p) t (t.putText p text) :=
  Change.grown_putFile _ (takes_iff.1 h).2.2

/-- A file can be written after another one was. -/
theorem takes_putText {t : FileTree} {p q : Path} (hp : t.takes p = true) (hq : t.takes q = true)
    (text : String) : (t.putText q text).takes p = true := by
  obtain ⟨⟨above, hfolder⟩, hfind, hspot⟩ := takes_iff.1 hp
  have hgrown := grown_putText hq text
  refine takes_iff.2 ⟨?_, ?_, ?_⟩
  · have habove := spot_of_find hfolder
    obtain ⟨rfl, -⟩ := spot_eq_folder habove.symm
    exact ⟨_, by rw [hgrown.find hfolder, hgrown.folders _ habove.symm]⟩
  · rw [hgrown.find hfind, hgrown.placeOf_eq]
  · rw [hgrown.placeOf_eq]
    intro hnew
    obtain ⟨-, hfile, hthere⟩ := spot_eq_folder hnew
    by_cases hplace : t.placeOf p = t.placeOf q
    · rw [hplace, putText, putFile, Table.get?_set_self] at hfile
      cases hfile
    · rw [putText, putFile, Table.get?_set_of_ne hplace] at hfile
      exact hspot (spot_of_folder hfile hthere)

/-- A folder is found after a text was written. -/
theorem find_putText {t : FileTree} {p q : Path} {place : Place}
    (h : t.find p = .ok (.folder place)) (hq : t.takes q = true) (text : String) :
    (t.putText q text).find p = .ok (.folder place) := by
  have hgrown := grown_putText hq text
  have hspot := spot_of_find h
  obtain ⟨rfl, -⟩ := spot_eq_folder hspot.symm
  rw [hgrown.find h, hgrown.folders _ hspot.symm]

/-- Where files can be written in the one tree they can be written in the other, which has the
folders of the one. -/
structure AsOpen (t t' : FileTree) : Prop where
  takes : ∀ p, t.takes p = true → t'.takes p = true
  folders : ∀ p place, t.find p = .ok (.folder place) → t'.find p = .ok (.folder place)

instance : Std.Refl AsOpen where
  refl _ := ⟨fun _ h => h, fun _ _ h => h⟩

instance : IsTrans FileTree AsOpen where
  trans _ _ _ h h' :=
    ⟨fun p hp => h'.takes p (h.takes p hp), fun p place hp => h'.folders p place (h.folders p place hp)⟩

/-- A text that is written into a file keeps none from being written. -/
theorem asOpen_putText {t : FileTree} {q : Path} (h : t.takes q = true) (text : String) :
    AsOpen t (t.putText q text) :=
  ⟨fun _ hp => takes_putText hp h text, fun _ _ hp => find_putText hp h text⟩

end FileTree

namespace Change

/-- Making sure of a folder that is there changes nothing. -/
theorem ends_folder {t : FileTree} {p : Path} {place : Place}
    (h : t.find p = .ok (.folder place)) : ends (folder p) t = (.ok (), t) := by
  have hthere : t.isFolder p = .ok true := by
    simp only [FileTree.isFolder, FileTree.test, h]
  have hnew : ends (newFolder p) t = (.error (.fault .occupied p.toText), t) := by
    unfold newFolder
    rw [ends.bind_of_ok (by rw [ends_find, h])]
    rfl
  unfold folder
  rw [ends.tryCatch_eq, hnew]
  dsimp only
  unfold unlessFolder
  rw [ends.bind_of_ok (ends.get_eq t), hthere]
  rfl

/-- Making sure of a folder that is there, and of those above it, changes nothing. -/
theorem ends_folders {t : FileTree} {p : Path} {place : Place}
    (h : t.find p = .ok (.folder place)) : ends (folders p) t = (.ok (), t) := by
  unfold folders
  cases p.segments.length with
  | zero => exact ends_folder h
  | succ depth =>
    unfold foldersFrom
    rw [ends.tryCatch_eq, ends_folder h]

/-- Where a file can be written, bytes are. -/
theorem ends_write_of_takes {t : FileTree} {p : Path} (h : t.takes p = true) (bytes : List UInt8) :
    ends (write p bytes) t = (.ok (), t.putFile (t.placeOf p) bytes) := by
  obtain ⟨-, hfind, hspot⟩ := FileTree.takes_iff.1 h
  unfold write
  rw [ends.bind_of_ok (by rw [ends_find, hfind])]
  cases hplace : t.spot (t.placeOf p) with
  | folder place =>
    obtain ⟨rfl, -⟩ := FileTree.spot_eq_folder hplace
    exact absurd hplace hspot
  | file place content =>
    obtain ⟨rfl, -⟩ := FileTree.spot_eq_file hplace
    rfl
  | free place =>
    obtain ⟨rfl, -⟩ := FileTree.spot_eq_free hplace
    rfl

/-- Where a file can be written, a text that has a UTF-8 form is. -/
theorem ends_writeText_of_takes {t : FileTree} {p : Path} {text : String} (h : t.takes p = true)
    (hwritable : Text.isWritable text = true) :
    ends (writeText p text) t = (.ok (), t.putText p text) := by
  unfold writeText
  rw [Text.Utf8.encode?_eq_some hwritable]
  exact ends_write_of_takes h _

/-- Where a file can be written, a text that has no UTF-8 form leaves it empty. -/
theorem ends_writeText_of_not_writable {t : FileTree} {p : Path} {text : String}
    (h : t.takes p = true) (hnot : Text.isWritable text = false) :
    ends (writeText p text) t = (.error .unwritable, t.putText p "") := by
  have hnone : Text.Utf8.encode? text = none := by
    rw [Text.Utf8.encode?, hnot]
    rfl
  unfold writeText
  rw [hnone]
  dsimp only
  rw [ends.bind_of_ok (ends_write_of_takes h [])]
  rfl

end Change

end StoryRegistry
