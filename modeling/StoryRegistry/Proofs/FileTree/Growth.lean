import StoryRegistry.Proofs.Path
import StoryRegistry.Proofs.Step
import StoryRegistry.Proofs.Table

/-!
# How a file tree grows

The place to which a path leads depends on the path alone, as far as it leads anywhere. Making
folders and writing files takes nothing away: what was a folder stays one, and no file changes but
those that are written. What a path led to it leads to afterwards, unless it is one of these.
-/

set_option autoImplicit false

namespace StoryRegistry

/-! ## Places -/

/-- Where segments lead from a place on. -/
def Place.along : Place → List String → Place
  | place, [] => place
  | place, segment :: rest =>
    if segment == ".." then Place.along place.dropLast rest
    else Place.along (place ++ [segment]) rest

/-- A last segment is added to the place to which the others lead. -/
theorem Place.along_concat {segment : String} (h : segment ≠ "..") (place : Place)
    (segments : List String) :
    Place.along place (segments ++ [segment]) = Place.along place segments ++ [segment] := by
  induction segments generalizing place with
  | nil => simp [along, h]
  | cons first rest ih =>
    by_cases hfirst : first = ".."
    · simp [along, hfirst, ih]
    · simp [along, hfirst, ih]

/-- Segments lead from where those before them lead. -/
theorem Place.along_append (place : Place) (segments more : List String) :
    Place.along place (segments ++ more) = Place.along (Place.along place segments) more := by
  induction segments generalizing place with
  | nil => rfl
  | cons first rest ih =>
    rw [List.cons_append, along, along]
    split
    · exact ih _
    · exact ih _

/-- Segments without `..` are added to the place. -/
theorem Place.along_eq_append {segments : List String} (h : ".." ∉ segments) (place : Place) :
    Place.along place segments = place ++ segments := by
  induction segments generalizing place with
  | nil => rw [along, List.append_nil]
  | cons first rest ih =>
    obtain ⟨hfirst, hrest⟩ := List.ne_and_not_mem_of_not_mem_cons h
    rw [along, if_neg (by simpa using hfirst.symm), ih hrest, List.append_assoc]
    rfl

/-- Following segments from a place adds none that is `..`. -/
theorem Place.not_mem_along {place : Place} (h : ".." ∉ place) (segments : List String) :
    ".." ∉ Place.along place segments := by
  induction segments generalizing place with
  | nil => exact h
  | cons first rest ih =>
    rw [along]
    split
    · exact ih fun hmem => h (List.dropLast_subset _ hmem)
    · rename_i hfirst
      exact ih fun hmem => (List.mem_append.1 hmem).elim h fun hlast =>
        hfirst (by simp [List.mem_singleton.1 hlast])

namespace FileTree

/-- The place to which a path leads. -/
def placeOf (t : FileTree) (p : Path) : Place :=
  Place.along (if p.isAbsolute then [] else t.here) p.segments

/-- The place of what is at a place is that place. -/
theorem spot_eq_folder {t : FileTree} {place other : Place} (h : t.spot place = .folder other) :
    other = place ∧ Table.get? place t.files = none ∧ (place = [] ∨ place ∈ t.folders) := by
  unfold spot at h
  cases hfile : Table.get? place t.files with
  | some content =>
    rw [hfile] at h
    cases h
  | none =>
    rw [hfile] at h
    dsimp only at h
    split at h
    · rename_i hthere
      cases h
      refine ⟨rfl, rfl, ?_⟩
      simpa using hthere
    · cases h

/-- A file is found at its own place. -/
theorem spot_eq_file {t : FileTree} {place other : Place} {content : Stored}
    (h : t.spot place = .file other content) :
    other = place ∧ Table.get? place t.files = some content := by
  unfold spot at h
  cases hfile : Table.get? place t.files with
  | some found =>
    rw [hfile] at h
    cases h
    exact ⟨rfl, rfl⟩
  | none =>
    rw [hfile] at h
    dsimp only at h
    split at h <;> cases h

/-- A place is free if there is neither a file nor a folder. -/
theorem spot_eq_free {t : FileTree} {place other : Place} (h : t.spot place = .free other) :
    other = place ∧ Table.get? place t.files = none ∧ place ≠ [] ∧ place ∉ t.folders := by
  unfold spot at h
  cases hfile : Table.get? place t.files with
  | some found =>
    rw [hfile] at h
    cases h
  | none =>
    rw [hfile] at h
    dsimp only at h
    split at h
    · cases h
    · rename_i hthere
      cases h
      have hnot : ¬(place = [] ∨ place ∈ t.folders) := by simpa using hthere
      exact ⟨rfl, rfl, fun heq => hnot (Or.inl heq), fun hmem => hnot (Or.inr hmem)⟩

/-- A place is free exactly if it is not the root and there is neither a file nor a folder. -/
theorem spot_eq_free_iff {t : FileTree} {place : Place} :
    t.spot place = .free place ↔ place ∉ Table.names t.files ∧ place ≠ [] ∧ place ∉ t.folders := by
  constructor
  · intro h
    obtain ⟨-, hfile, hroot, hfolder⟩ := spot_eq_free h
    exact ⟨Table.get?_eq_none_iff.1 hfile, hroot, hfolder⟩
  · rintro ⟨hfile, hroot, hfolder⟩
    simp [spot, Table.get?_eq_none_iff.2 hfile, hroot, hfolder]

/-- Where there is a folder and no file, a folder is found. -/
theorem spot_of_folder {t : FileTree} {place : Place} (hfile : Table.get? place t.files = none)
    (hthere : place = [] ∨ place ∈ t.folders) : t.spot place = .folder place := by
  have hyes : (place.isEmpty || t.folders.contains place) = true := by simpa using hthere
  simp only [spot, hfile, hyes, if_true]

/-- A walk that leads anywhere leads to what is at the place along its segments. -/
theorem spot_of_walk {t : FileTree} {place : Place} {segments : List String} {spot : Spot}
    (h : t.walk place segments = .ok spot) : spot = t.spot (place.along segments) := by
  induction segments generalizing place with
  | nil =>
    cases h
    rfl
  | cons segment rest ih =>
    unfold walk at h
    cases hspot : t.spot place with
    | free other => rw [hspot] at h; cases h
    | file other content => rw [hspot] at h; cases h
    | folder other =>
      rw [hspot] at h
      dsimp only at h
      split at h
      · rename_i hup
        rw [ih h, Place.along, if_pos hup]
      · rename_i hup
        split at h
        · cases h
        · rw [ih h, Place.along, if_neg hup]

/-- A path that leads anywhere leads to what is at its place. -/
theorem spot_of_find {t : FileTree} {p : Path} {spot : Spot} (h : t.find p = .ok spot) :
    spot = t.spot (t.placeOf p) := by
  unfold find at h
  dsimp only at h
  split at h
  · cases h
  · split at h
    · cases h
    · split at h
      · cases h
      · cases hwalk : t.walk (if p.isAbsolute then [] else t.here) p.segments with
        | error kind => rw [hwalk] at h; cases h
        | ok found =>
          rw [hwalk] at h
          cases h
          exact spot_of_walk hwalk

/-- A path that leads to a file leads to the file at its place. -/
theorem find_of_file {t : FileTree} {p : Path} {content : Stored} (h : t.file p = .ok content) :
    t.find p = .ok (.file (t.placeOf p) content) ∧
      Table.get? (t.placeOf p) t.files = some content := by
  unfold file at h
  cases hfind : t.find p with
  | error e => rw [hfind] at h; cases h
  | ok spot =>
    rw [hfind] at h
    have hspot := spot_of_find hfind
    cases spot with
    | folder place => cases h
    | free place => cases h
    | file place found =>
      cases h
      obtain ⟨rfl, hget⟩ := spot_eq_file hspot.symm
      exact ⟨rfl, hget⟩

/-- A path whose names are listed leads to the folder at its place. -/
theorem find_of_list {t : FileTree} {p : Path} {found : List String} (h : t.list p = .ok found) :
    t.find p = .ok (.folder (t.placeOf p)) ∧ found = t.names (t.placeOf p) := by
  unfold list at h
  cases hfind : t.find p with
  | error e => rw [hfind] at h; cases h
  | ok spot =>
    rw [hfind] at h
    cases spot with
    | folder place =>
      cases h
      obtain ⟨rfl, -⟩ := spot_eq_folder (spot_of_find hfind).symm
      exact ⟨rfl, rfl⟩
    | file place content => cases h
    | free place => cases h

/-! ## Growth -/

/-- The one tree has grown out of the other by writing files at some places: folders are still
folders, and no other file has changed. -/
structure Grown (written : Place → Prop) (t t' : FileTree) : Prop where
  here : t'.here = t.here
  folders : ∀ place, t.spot place = .folder place → t'.spot place = .folder place
  files : ∀ place, ¬written place → Table.get? place t'.files = Table.get? place t.files

instance (written : Place → Prop) : Std.Refl (Grown written) where
  refl _ := ⟨rfl, fun _ h => h, fun _ _ => rfl⟩

instance (written : Place → Prop) : IsTrans FileTree (Grown written) where
  trans _ _ _ h h' :=
    ⟨h'.here.trans h.here, fun place hplace => h'.folders place (h.folders place hplace),
      fun place hplace => (h'.files place hplace).trans (h.files place hplace)⟩

namespace Grown

variable {written more : Place → Prop} {t t' : FileTree}

/-- Nothing more is written than what may be. -/
theorem mono (h : Grown written t t') (hsub : ∀ place, written place → more place) :
    Grown more t t' :=
  ⟨h.here, h.folders, fun place hplace =>
    h.files place fun hwritten => hplace (hsub place hwritten)⟩

/-- A path leads to the same place. -/
theorem placeOf_eq (h : Grown written t t') (p : Path) : t'.placeOf p = t.placeOf p := by
  unfold placeOf
  rw [h.here]

/-- A walk that led anywhere still leads to the same place. -/
theorem walk (h : Grown written t t') {place : Place} {segments : List String} {spot : Spot}
    (hwalk : t.walk place segments = .ok spot) :
    t'.walk place segments = .ok (t'.spot (place.along segments)) := by
  induction segments generalizing place with
  | nil => rfl
  | cons segment rest ih =>
    unfold FileTree.walk at hwalk ⊢
    cases hspot : t.spot place with
    | free other => rw [hspot] at hwalk; cases hwalk
    | file other content => rw [hspot] at hwalk; cases hwalk
    | folder other =>
      obtain ⟨rfl, -, -⟩ := spot_eq_folder hspot
      -- a walk that goes on is at a folder, and folders stay
      rw [hspot] at hwalk
      rw [h.folders _ hspot]
      dsimp only at hwalk ⊢
      split at hwalk
      · rename_i hup
        rw [if_pos hup, Place.along, if_pos hup]
        exact ih hwalk
      · rename_i hup
        split at hwalk
        · cases hwalk
        · rename_i hlong
          rw [if_neg hup, if_neg hlong, Place.along, if_neg hup]
          exact ih hwalk

/-- A path that led anywhere still leads to the same place. -/
theorem find (h : Grown written t t') {p : Path} {spot : Spot} (hfind : t.find p = .ok spot) :
    t'.find p = .ok (t'.spot (t.placeOf p)) := by
  unfold FileTree.find at hfind ⊢
  dsimp only at hfind ⊢
  split at hfind
  · cases hfind
  · rename_i hwritable
    split at hfind
    · cases hfind
    · rename_i hnull
      split at hfind
      · cases hfind
      · rename_i hlong
        rw [if_neg hwritable, if_neg hnull, if_neg hlong, h.here]
        cases hwalk : t.walk (if p.isAbsolute then [] else t.here) p.segments with
        | error kind => rw [hwalk] at hfind; cases hfind
        | ok found =>
          rw [h.walk hwalk]
          rfl

/-- A file that is not written stays as it is. -/
theorem file (h : Grown written t t') {p : Path} {content : Stored} (hfile : t.file p = .ok content)
    (hplace : ¬written (t.placeOf p)) : t'.file p = .ok content := by
  obtain ⟨hfind, hget⟩ := find_of_file hfile
  have hspot : t'.spot (t.placeOf p) = .file (t.placeOf p) content := by
    have hget' := h.files _ hplace
    rw [hget] at hget'
    simp only [spot, hget']
  simp only [FileTree.file, h.find hfind, hspot]
  rfl

end Grown

end FileTree

/-! ## Changes -/

namespace Change

/-- Looking for what a path leads to changes nothing. -/
theorem ends_find (p : Path) (t : FileTree) : ends (find p) t = (t.find p, t) := by
  unfold find
  rw [ends.bind_of_ok (ends.get_eq t)]
  cases t.find p <;> rfl

/-- Nothing is written. -/
def nothing (_ : Place) : Prop := False

/-- A free place becomes a folder, and no other place changes. -/
theorem grown_addFolder {t : FileTree} {place : Place} :
    FileTree.Grown nothing t (t.addFolder place) where
  here := rfl
  folders other hother := by
    obtain ⟨-, hfile, hthere⟩ := FileTree.spot_eq_folder hother
    refine FileTree.spot_of_folder hfile (hthere.imp id fun hmem => ?_)
    exact List.mem_append_left _ hmem
  files _ _ := rfl

/-- Making one folder leaves the tree as it is or with the new folder. -/
theorem leaves_newFolder {P : FileTree → FileTree → Prop} [Std.Refl P] {p : Path}
    (hadd : ∀ t, t.find p = .ok (.free (t.placeOf p)) → P t (t.addFolder (t.placeOf p))) :
    Leaves P (newFolder p) := by
  intro t
  unfold newFolder
  cases hfind : t.find p with
  | error e =>
    rw [ends.bind_of_error (by rw [ends_find, hfind])]
    exact refl_of _ t
  | ok spot =>
    rw [ends.bind_of_ok (by rw [ends_find, hfind])]
    cases spot with
    | free place =>
      obtain ⟨rfl, -⟩ := FileTree.spot_eq_free (FileTree.spot_of_find hfind).symm
      exact hadd t hfind
    | _ => exact refl_of _ t

/-- Passing over an error changes nothing. -/
theorem leaves_unlessFolder {P : FileTree → FileTree → Prop} [Std.Refl P] (p : Path)
    (e : FileError) : Leaves P (unlessFolder p e) := by
  intro t
  unfold unlessFolder
  rw [ends.bind_of_ok (ends.get_eq t)]
  cases t.isFolder p with
  | error other => exact refl_of _ t
  | ok there => cases there <;> exact refl_of _ t

/-- Making sure of a folder leaves what a new folder leaves. -/
theorem leaves_folder {P : FileTree → FileTree → Prop} [Std.Refl P] [IsTrans FileTree P] {p : Path}
    (hadd : ∀ t, t.find p = .ok (.free (t.placeOf p)) → P t (t.addFolder (t.placeOf p))) :
    Leaves P (folder p) := by
  refine (leaves_newFolder hadd).tryCatch fun e => ?_
  cases e with
  | fault kind text =>
    cases kind with
    | missing => exact .throw _
    | _ => exact leaves_unlessFolder p _
  | _ => exact .throw _

/-- Making sure of a folder and of those above it leaves what new folders leave. The induction is on
the folders above that are tried. -/
theorem leaves_folders {P : FileTree → FileTree → Prop} [Std.Refl P] [IsTrans FileTree P] {p : Path}
    (hadd : ∀ q ∈ p :: p.ancestors, ∀ t, t.find q = .ok (.free (t.placeOf q)) →
      P t (t.addFolder (t.placeOf q))) : Leaves P (folders p) := by
  unfold folders
  generalize p.segments.length = depth
  induction depth generalizing p with
  | zero => exact leaves_folder (hadd p List.mem_cons_self)
  | succ depth ih =>
    have hhere := leaves_folder (hadd p List.mem_cons_self)
    refine hhere.tryCatch fun e => ?_
    cases e with
    | fault kind text =>
      cases kind with
      | missing => exact (ih fun q hq => hadd q (Path.mem_of_mem_parent hq)).bind fun _ => hhere
      | _ => exact .throw _
    | _ => exact .throw _

/-- Making a folder and those above it makes a tree grow, whatever it comes to. -/
theorem grown_folders (p : Path) : Leaves (FileTree.Grown nothing) (folders p) :=
  leaves_folders fun _ _ _ _ => grown_addFolder

/-- Writing bytes leaves the tree as it is or with the bytes in a file where there is no folder. -/
theorem leaves_write {P : FileTree → FileTree → Prop} [Std.Refl P] {p : Path} {bytes : List UInt8}
    (hput : ∀ t, t.spot (t.placeOf p) ≠ .folder (t.placeOf p) →
      P t (t.putFile (t.placeOf p) bytes)) : Leaves P (write p bytes) := by
  intro t
  unfold write
  cases hfind : t.find p with
  | error e =>
    rw [ends.bind_of_error (by rw [ends_find, hfind])]
    exact refl_of _ t
  | ok spot =>
    rw [ends.bind_of_ok (by rw [ends_find, hfind])]
    have hspot := FileTree.spot_of_find hfind
    cases spot with
    | folder place => exact refl_of _ t
    | file place content =>
      obtain ⟨rfl, -⟩ := FileTree.spot_eq_file hspot.symm
      exact hput t (by rw [← hspot]; simp)
    | free place =>
      obtain ⟨rfl, -⟩ := FileTree.spot_eq_free hspot.symm
      exact hput t (by rw [← hspot]; simp)

/-- Putting a file where there is no folder changes no other place. -/
theorem grown_putFile {t : FileTree} {place : Place} (bytes : List UInt8)
    (h : t.spot place ≠ .folder place) : FileTree.Grown (· = place) t (t.putFile place bytes) where
  here := rfl
  folders other hother := by
    have hne : other ≠ place := by
      rintro rfl
      exact h hother
    obtain ⟨-, hfile, hthere⟩ := FileTree.spot_eq_folder hother
    refine FileTree.spot_of_folder ?_ hthere
    rw [FileTree.putFile, Table.get?_set_of_ne hne]
    exact hfile
  files other hother := Table.get?_set_of_ne hother _ _

/-- Writing writes nothing but the file to which the path leads, and the bytes into it if it
succeeds. -/
theorem ends_write (p : Path) (bytes : List UInt8) (t : FileTree) :
    FileTree.Grown (· = t.placeOf p) t (ends (write p bytes) t).2 ∧
      ((ends (write p bytes) t).1 = .ok () →
        (ends (write p bytes) t).2.file p = .ok ⟨bytes, t.clock⟩) := by
  -- a file that is there and one that is not are written alike
  have hput (hspot : t.spot (t.placeOf p) ≠ .folder (t.placeOf p)) {spot : Spot}
      (hfind : t.find p = .ok spot) :
      FileTree.Grown (· = t.placeOf p) t (t.putFile (t.placeOf p) bytes) ∧
        (t.putFile (t.placeOf p) bytes).file p = .ok ⟨bytes, t.clock⟩ := by
    have hgrown := grown_putFile bytes hspot
    have hget := Table.get?_set_self (t.placeOf p) (⟨bytes, t.clock⟩ : Stored) t.files
    have hnew : (t.putFile (t.placeOf p) bytes).spot (t.placeOf p) =
        .file (t.placeOf p) ⟨bytes, t.clock⟩ := by
      simp only [FileTree.spot, FileTree.putFile, hget]
    refine ⟨hgrown, ?_⟩
    simp only [FileTree.file, hgrown.find hfind, hnew]
    rfl
  unfold write
  cases hfind : t.find p with
  | error e =>
    rw [ends.bind_of_error (by rw [ends_find, hfind])]
    exact ⟨refl_of _ t, fun h => by cases h⟩
  | ok spot =>
    rw [ends.bind_of_ok (by rw [ends_find, hfind])]
    have hspot := FileTree.spot_of_find hfind
    cases spot with
    | folder place => exact ⟨refl_of _ t, fun h => by cases h⟩
    | file place content =>
      obtain ⟨rfl, -⟩ := FileTree.spot_eq_file hspot.symm
      obtain ⟨hgrown, hfile⟩ := hput (by rw [← hspot]; simp) hfind
      exact ⟨hgrown, fun _ => hfile⟩
    | free place =>
      obtain ⟨rfl, -⟩ := FileTree.spot_eq_free hspot.symm
      obtain ⟨hgrown, hfile⟩ := hput (by rw [← hspot]; simp) hfind
      exact ⟨hgrown, fun _ => hfile⟩

/-- Writing a text writes nothing but the file to which the path leads, and the text into it if it
succeeds. -/
theorem ends_writeText (p : Path) (text : String) (t : FileTree) :
    FileTree.Grown (· = t.placeOf p) t (ends (writeText p text) t).2 ∧
      ((ends (writeText p text) t).1 = .ok () → ∃ bytes, Text.Utf8.encode? text = some bytes ∧
        (ends (writeText p text) t).2.file p = .ok ⟨bytes, t.clock⟩) := by
  unfold writeText
  cases hencode : Text.Utf8.encode? text with
  | some bytes =>
    obtain ⟨hgrown, hfile⟩ := ends_write p bytes t
    exact ⟨hgrown, fun h => ⟨bytes, rfl, hfile h⟩⟩
  | none =>
    obtain ⟨hgrown, -⟩ := ends_write p [] t
    cases hend : ends (write p []) t with
    | mk r t' =>
      rw [hend] at hgrown
      cases r with
      | error e =>
        rw [ends.bind_of_error hend]
        exact ⟨hgrown, fun h => nomatch h⟩
      | ok u =>
        rw [ends.bind_of_ok hend]
        exact ⟨hgrown, fun h => nomatch h⟩

end Change

end StoryRegistry
