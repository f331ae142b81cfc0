import StoryRegistry.Proofs.FileTree.Faults
import StoryRegistry.Proofs.Path.Home

/-!
# One project at two homes

Two file trees hold the same project if below the home of each there are the same folders and files. What
a way from the home leads to is then the same in both, as long as it stays inside and is not too long
for either. What is done at two places agrees if both succeed, with results that belong together, or both
fail, with failures that do.
-/

set_option autoImplicit false

namespace StoryRegistry

open StoryRegistry.Path

/-! ## Agreeing outcomes -/

section

variable {ε δ α β α' β' : Type}

/-- Both outcomes are results that belong together, or both are failures that do. -/
inductive Agree (E : ε → δ → Prop) (A : α → β → Prop) : Except ε α → Except δ β → Prop where
  | ok {a : α} {b : β} (h : A a b) : Agree E A (.ok a) (.ok b)
  | error {e : ε} {d : δ} (h : E e d) : Agree E A (.error e) (.error d)

namespace Agree

variable {E : ε → δ → Prop} {A : α → β → Prop} {x : Except ε α} {y : Except δ β}

theorem bind {B : α' → β' → Prop} {f : α → Except ε α'} {g : β → Except δ β'} (h : Agree E A x y)
    (hnext : ∀ a b, x = .ok a → y = .ok b → A a b → Agree E B (f a) (g b)) :
    Agree E B (x >>= f) (y >>= g) := by
  cases h with
  | ok h => exact hnext _ _ rfl rfl h
  | error h => exact .error h

/-- It does not matter how failures are reported. -/
theorem mapError {ε' δ' : Type} (h : Agree E A x y) (f : ε → ε') (g : δ → δ') :
    Agree (fun _ _ => True) A (x.mapError f) (y.mapError g) := by
  cases h with
  | ok h => exact .ok h
  | error _ => exact .error trivial

theorem exists_ok (h : Agree E A x y) {a : α} (hx : x = .ok a) : ∃ b, y = .ok b ∧ A a b := by
  cases h with
  | ok h =>
    cases hx
    exact ⟨_, rfl, h⟩
  | error h => cases hx

theorem eq_ok {y : Except δ α} (h : Agree E Eq x y) {a : α} (hx : x = .ok a) : y = .ok a := by
  obtain ⟨b, hy, rfl⟩ := h.exists_ok hx
  exact hy

theorem exists_error (h : Agree E A x y) {e : ε} (hx : x = .error e) : ∃ d, y = .error d ∧ E e d := by
  cases h with
  | ok h => cases hx
  | error h =>
    cases hx
    exact ⟨_, rfl, h⟩

theorem mapM {f : α' → Except ε α} {g : β' → Except δ β} {items : List α'} {others : List β'}
    (h : List.Forall₂ (fun a b => Agree E A (f a) (g b)) items others) :
    Agree E (List.Forall₂ A) (items.mapM f) (others.mapM g) := by
  induction h with
  | nil => exact .ok .nil
  | cons hfirst _ ih =>
    rw [List.mapM_cons, List.mapM_cons]
    refine hfirst.bind fun a b _ _ hab => ih.bind fun as bs _ _ hmore => ?_
    exact .ok (.cons hab hmore)

end Agree

end

/-! ## Alike answers -/

/-- The errors are of one kind. -/
structure FileError.Alike (e e' : FileError) : Prop where
  isAbsence : e.isAbsence = e'.isAbsence
  isFault : e.isFault = e'.isFault
  isUnreadable : e.isUnreadable = e'.isUnreadable

theorem FileError.Alike.refl (e : FileError) : e.Alike e := ⟨rfl, rfl, rfl⟩

theorem FileError.Alike.fault (kind : Fault) (path path' : String) :
    (FileError.fault kind path).Alike (.fault kind path') := by
  cases kind <;> exact ⟨rfl, rfl, rfl⟩

/-- The same lies at the end of one way from two homes. When a file was changed does not matter. -/
inductive Spot.Alike (home home' : Home) : Spot → Spot → Prop where
  | folder (way : List String) :
    Spot.Alike home home' (.folder (home.place ++ way)) (.folder (home'.place ++ way))
  | file (way : List String) {content content' : Stored} (h : content.bytes = content'.bytes) :
    Spot.Alike home home' (.file (home.place ++ way) content) (.file (home'.place ++ way) content')
  | free (way : List String) :
    Spot.Alike home home' (.free (home.place ++ way)) (.free (home'.place ++ way))

/-- The way can be looked up from both homes: it stays inside, with backslashes in it read as slashes as
well, and is not too long. -/
structure Home.Usable (home home' : Home) (way : List String) : Prop where
  stays : Path.stays 0 way = true
  lands : Path.stays 0 (pieces (settle way)) = true
  reaches : home.Reaches way
  reaches' : home'.Reaches way

instance (home home' : Home) (way : List String) : Decidable (home.Usable home' way) :=
  decidable_of_iff (Path.stays 0 way = true ∧ Path.stays 0 (pieces (settle way)) = true ∧
      home.Reaches way ∧ home'.Reaches way)
    ⟨fun h => ⟨h.1, h.2.1, h.2.2.1, h.2.2.2⟩, fun h => ⟨h.stays, h.lands, h.reaches, h.reaches'⟩⟩

theorem Home.Usable.of_isNormal {home home' : Home} {way : List String} (h : IsNormal ⟨1, way⟩)
    (hreaches : home.Reaches way) (hreaches' : home'.Reaches way) : home.Usable home' way where
  stays := stays_of_not_mem (h.notAbove rfl) 0
  lands := by
    rw [h.settle_eq, h.pieces_eq]
    exact stays_of_not_mem (h.notAbove rfl) 0
  reaches := hreaches
  reaches' := hreaches'

namespace FileTree

/-- Below the homes there are the same folders, and the same files with the same bytes. -/
structure SameProject (home home' : Home) (t t' : FileTree) : Prop where
  there : t.find (home.path []) = .ok (.folder home.place)
  there' : t'.find (home'.path []) = .ok (.folder home'.place)
  files : ∀ way, (Table.get? (home.place ++ way) t.files).map Stored.bytes =
    (Table.get? (home'.place ++ way) t'.files).map Stored.bytes
  folders : ∀ way, home.place ++ way ∈ t.folders ↔ home'.place ++ way ∈ t'.folders

namespace SameProject

variable {home home' : Home} {t t' : FileTree} {way : List String}

/-! ## Following a way -/

theorem spot (h : SameProject home home' t t') (way : List String) :
    (t.spot (home.place ++ way)).Alike home home' (t'.spot (home'.place ++ way)) := by
  have hfiles := h.files way
  have hplace : (home.place ++ way).isEmpty = false := by simp [home.isWay.filled]
  have hplace' : (home'.place ++ way).isEmpty = false := by simp [home'.isWay.filled]
  have hfolders : t.folders.contains (home.place ++ way) = t'.folders.contains (home'.place ++ way) := by
    rw [Bool.eq_iff_iff, List.contains_iff_mem, List.contains_iff_mem]
    exact h.folders way
  unfold FileTree.spot
  rw [hplace, hplace', hfolders]
  cases hfile : Table.get? (home.place ++ way) t.files with
  | some content =>
    rw [hfile] at hfiles
    cases hfile' : Table.get? (home'.place ++ way) t'.files with
    | some content' =>
      rw [hfile'] at hfiles
      exact .file way (Option.some.inj hfiles)
    | none =>
      rw [hfile'] at hfiles
      cases hfiles
  | none =>
    rw [hfile] at hfiles
    cases hfile' : Table.get? (home'.place ++ way) t'.files with
    | some content' =>
      rw [hfile'] at hfiles
      cases hfiles
    | none =>
      dsimp only
      split
      · exact .folder way
      · exact .free way

/-- Segments that never climb above the home lead to the same. -/
theorem walk (h : SameProject home home' t t') {segments : List String}
    (hstays : stays way.length segments = true) :
    Agree Eq (Spot.Alike home home') (t.walk (home.place ++ way) segments)
      (t'.walk (home'.place ++ way) segments) := by
  induction segments generalizing way with
  | nil => exact .ok (h.spot way)
  | cons segment rest ih =>
    rw [FileTree.walk, FileTree.walk]
    have hspot := h.spot way
    revert hspot
    generalize t.spot (home.place ++ way) = spot
    generalize t'.spot (home'.place ++ way) = spot'
    intro hspot
    cases hspot with
    | free => exact .error rfl
    | file => exact .error rfl
    | folder =>
      dsimp only
      rw [Path.stays] at hstays
      by_cases hup : segment = ".."
      · rw [if_pos hup, Bool.and_eq_true] at hstays
        have hway : way ≠ [] := fun hnil => by
          rw [hnil] at hstays
          cases hstays.1
        rw [if_pos (beq_iff_eq.2 hup), if_pos (beq_iff_eq.2 hup), List.dropLast_append_of_ne_nil hway,
          List.dropLast_append_of_ne_nil hway]
        refine ih ?_
        rw [List.length_dropLast]
        exact hstays.2
      · rw [if_neg hup] at hstays
        have hplain : ¬(segment == "..") = true := by simpa using hup
        rw [if_neg hplain, if_neg hplain]
        by_cases hlong : longestName < segment.utf8ByteSize
        · rw [if_pos hlong, if_pos hlong]
          exact .error rfl
        · rw [if_neg hlong, if_neg hlong, List.append_assoc, List.append_assoc]
          refine ih ?_
          rwa [List.length_append]

end SameProject

/-! ## Looking up a way -/

section

variable {home : Home} {t : FileTree} {place : Place}

/-- Where the home is there, paths below it are followed from it on. -/
theorem walk_path (h : t.find (home.path []) = .ok (.folder place)) (way : List String) :
    t.walk [] (home.place ++ way) = t.walk home.place way := by
  have hplain : ".." ∉ home.place := home.isWay.normal.notAbove rfl
  have hwalk : ∃ spot, t.walk [] home.place = .ok spot := by
    unfold find at h
    dsimp only at h
    rw [Home.isAbsolute_path, Home.segments_path, List.append_nil] at h
    split at h <;> try cases h
    split at h <;> try cases h
    split at h <;> try cases h
    split at h
    · exact ⟨_, by assumption⟩
    · cases h
  obtain ⟨spot, hwalk⟩ := hwalk
  rw [walk_append, hwalk, Place.along_eq_append hplain]
  rfl

theorem isWritable_text (h : t.find (home.path []) = .ok (.folder place)) (way : List String) :
    Text.isWritable (home.text way) = Text.isWritable (Home.behind way) := by
  rw [Home.text_eq, Text.isWritable_append, ← Home.toText_path,
    (isWritable_and_noNull_of_find h).1, Bool.true_and]

theorem hasNull_text (h : t.find (home.path []) = .ok (.folder place)) (way : List String) :
    (home.text way).toList.contains '\x00' = (Home.behind way).toList.contains '\x00' := by
  have hnull := (isWritable_and_noNull_of_find h).2
  rw [Home.toText_path] at hnull
  rw [Home.text_eq, String.toList_append, List.contains_append, List.contains_eq_mem,
    decide_eq_false hnull, Bool.false_or]

end

/-! ## Names and folders -/

theorem mem_names_iff {t : FileTree} {folder : Place} {name : String} :
    name ∈ t.names folder ↔ folder ++ [name] ∈ Table.names t.files ∨ folder ++ [name] ∈ t.folders := by
  unfold FileTree.names
  rw [← List.mem_append, List.mem_filterMap]
  constructor
  · rintro ⟨place, hmem, hlast⟩
    split at hlast
    · rename_i hin
      rw [Bool.and_eq_true, beq_iff_eq] at hin
      rwa [← hin.2, List.dropLast_append_getLast? name hlast]
    · cases hlast
  · intro hmem
    exact ⟨_, hmem, by simp⟩

theorem mem_foldersBelow_iff {t : FileTree} {folder : Place} {way : List String} :
    way ∈ t.foldersBelow folder ↔ way = [] ∨ folder ++ way ∈ t.folders := by
  unfold FileTree.foldersBelow
  rw [List.mem_cons, List.mem_filter, List.mem_filterMap]
  constructor
  · rintro (rfl | ⟨⟨place, hmem, hbelow⟩, -⟩)
    · exact .inl rfl
    · unfold below? at hbelow
      split at hbelow
      · rename_i hprefix
        cases hbelow
        obtain ⟨way, rfl⟩ := List.isPrefixOf_iff_prefix.1 hprefix
        rw [List.drop_left]
        exact .inr hmem
      · cases hbelow
  · rintro (rfl | hmem)
    · exact .inl rfl
    · cases way with
      | nil => exact .inl rfl
      | cons segment rest =>
        have hprefix : folder.isPrefixOf (folder ++ segment :: rest) = true :=
          List.isPrefixOf_iff_prefix.2 (List.prefix_append _ _)
        exact .inr ⟨⟨_, hmem, by rw [below?, if_pos hprefix, List.drop_left]⟩, rfl⟩

namespace SameProject

variable {home home' : Home} {t t' : FileTree} {way : List String}

/-- A way that can be looked up from both homes leads to the same. -/
theorem find (h : SameProject home home' t t') (huse : home.Usable home' way) :
    Agree FileError.Alike (Spot.Alike home home') (t.find (home.path way))
      (t'.find (home'.path way)) := by
  have hshort : ¬longestPath < (home.text way).utf8ByteSize := Nat.not_lt.2 huse.reaches
  have hshort' : ¬longestPath < (home'.text way).utf8ByteSize := Nat.not_lt.2 huse.reaches'
  have hwalk := @walk _ _ _ _ [] h way huse.stays
  rw [List.append_nil, List.append_nil, ← walk_path h.there, ← walk_path h.there'] at hwalk
  unfold FileTree.find
  simp only [Home.toText_path, Home.isAbsolute_path, Home.segments_path, isWritable_text h.there,
    isWritable_text h.there', hasNull_text h.there, hasNull_text h.there', if_neg hshort,
    if_neg hshort', if_true]
  split
  · exact .error (.refl _)
  split
  · exact .error (.refl _)
  revert hwalk
  generalize t.walk [] (home.place ++ way) = outcome
  generalize t'.walk [] (home'.place ++ way) = outcome'
  intro hwalk
  cases hwalk with
  | ok hspot => exact .ok hspot
  | error hkind =>
    subst hkind
    exact .error (.fault _ _ _)

/-- A test that takes alike places alike is passed at both homes or at none. -/
theorem test (h : SameProject home home' t t') (huse : home.Usable home' way) {accepts : Spot → Bool}
    (haccepts : ∀ spot spot', Spot.Alike home home' spot spot' → accepts spot = accepts spot') :
    Agree FileError.Alike Eq (t.test (home.path way) accepts) (t'.test (home'.path way) accepts) := by
  unfold FileTree.test
  have hfind := h.find huse
  revert hfind
  generalize t.find (home.path way) = outcome
  generalize t'.find (home'.path way) = outcome'
  intro hfind
  cases hfind with
  | ok hspot => exact .ok (haccepts _ _ hspot)
  | error hkind =>
    dsimp only
    rw [hkind.isAbsence]
    split
    · exact .ok rfl
    · exact .error hkind

theorem isFile (h : SameProject home home' t t') (huse : home.Usable home' way) :
    Agree FileError.Alike Eq (t.isFile (home.path way)) (t'.isFile (home'.path way)) :=
  h.test huse fun _ _ hspot => by cases hspot <;> rfl

theorem isFolder (h : SameProject home home' t t') (huse : home.Usable home' way) :
    Agree FileError.Alike Eq (t.isFolder (home.path way)) (t'.isFolder (home'.path way)) :=
  h.test huse fun _ _ hspot => by cases hspot <;> rfl

theorem isThere (h : SameProject home home' t t') (huse : home.Usable home' way) :
    Agree FileError.Alike Eq (t.isThere (home.path way)) (t'.isThere (home'.path way)) :=
  h.test huse fun _ _ hspot => by cases hspot <;> rfl

/-- The home itself is no file. -/
theorem ne_nil_of_isFile (h : SameProject home home' t t') (hfile : t.isFile (home.path way) = .ok true) :
    way ≠ [] := by
  rintro rfl
  unfold FileTree.isFile FileTree.test at hfile
  rw [h.there] at hfile
  cases hfile

/-- A file holds the same text at both homes. -/
theorem readText (h : SameProject home home' t t') (huse : home.Usable home' way) :
    Agree FileError.Alike Eq (t.readText (home.path way)) (t'.readText (home'.path way)) := by
  unfold FileTree.readText FileTree.file
  have hfind := h.find huse
  revert hfind
  generalize t.find (home.path way) = outcome
  generalize t'.find (home'.path way) = outcome'
  intro hfind
  cases hfind with
  | error hkind => exact .error hkind
  | ok hspot =>
    cases hspot with
    | folder => exact .error (.fault _ _ _)
    | free => exact .error (.fault _ _ _)
    | file other hbytes =>
      simp only [bind, Except.bind, hbytes]
      split
      · exact .ok rfl
      · exact .error (.refl _)

/-- A file has the same size at both homes. -/
theorem size (h : SameProject home home' t t') (huse : home.Usable home' way) :
    Agree FileError.Alike Eq (t.size (home.path way)) (t'.size (home'.path way)) := by
  unfold FileTree.size
  have hfind := h.find huse
  revert hfind
  generalize t.find (home.path way) = outcome
  generalize t'.find (home'.path way) = outcome'
  intro hfind
  cases hfind with
  | error hkind =>
    dsimp only
    rw [hkind.isFault]
    split
    · exact .ok rfl
    · exact .error hkind
  | ok hspot =>
    cases hspot with
    | folder => exact .ok rfl
    | free => exact .ok rfl
    | file other hbytes => exact .ok (congrArg List.length hbytes)

/-! ## Looking into folders -/

theorem mem_names (h : SameProject home home' t t') (way : List String) {name : String} :
    name ∈ t.names (home.place ++ way) ↔ name ∈ t'.names (home'.place ++ way) := by
  have hfiles := h.files (way ++ [name])
  have hfolders := h.folders (way ++ [name])
  rw [mem_names_iff, mem_names_iff, List.append_assoc, List.append_assoc, hfolders]
  refine or_congr_left ?_
  rw [← not_iff_not, ← Table.get?_eq_none_iff, ← Table.get?_eq_none_iff, ← Option.map_eq_none_iff,
    hfiles, Option.map_eq_none_iff]

theorem mem_foldersBelow (h : SameProject home home' t t') (way : List String) {more : List String} :
    more ∈ t.foldersBelow (home.place ++ way) ↔ more ∈ t'.foldersBelow (home'.place ++ way) := by
  rw [mem_foldersBelow_iff, mem_foldersBelow_iff, List.append_assoc, List.append_assoc, h.folders]

/-- In a folder there are the same names at both homes. -/
theorem list (h : SameProject home home' t t') (huse : home.Usable home' way) :
    Agree FileError.Alike (fun names names' => ∀ name, name ∈ names ↔ name ∈ names')
      (t.list (home.path way)) (t'.list (home'.path way)) := by
  unfold FileTree.list
  have hfind := h.find huse
  revert hfind
  generalize t.find (home.path way) = outcome
  generalize t'.find (home'.path way) = outcome'
  intro hfind
  cases hfind with
  | error hkind => exact .error hkind
  | ok hspot =>
    cases hspot with
    | folder other => exact .ok fun name => h.mem_names other
    | file => exact .error (.fault _ _ _)
    | free => exact .error (.fault _ _ _)

end SameProject

end FileTree

end StoryRegistry
