import StoryRegistry.Proofs.FileTree.Names

/-!
# Paths that lie apart from what is written

What is written to a few folders, with the folders that are made on the way to them, is seen only
by a path that leads into one of them or through a folder that had to be made. Every other path
leads to what it led to before, but that a folder may be where nothing was.
-/

set_option autoImplicit false

namespace StoryRegistry

/-- The places at which a step is taken along segments. -/
def Place.passed : Place → List String → List Place
  | _, [] => []
  | place, segment :: rest =>
    place :: Place.passed (if segment == ".." then place.dropLast else place ++ [segment]) rest

/-- Steps along segments are taken from where those before them lead. -/
theorem Place.passed_append (place : Place) (segments more : List String) :
    Place.passed place (segments ++ more) =
      Place.passed place segments ++ Place.passed (Place.along place segments) more := by
  induction segments generalizing place with
  | nil => rfl
  | cons first rest ih =>
    rw [List.cons_append, passed, passed, along, ih, List.cons_append]
    split <;> rfl

namespace FileTree

/-- The places that a path leads through. -/
def passed (t : FileTree) (p : Path) : List Place :=
  Place.passed (if p.isAbsolute then [] else t.here) p.segments

/-- More segments lead on from the place to which a path leads. -/
theorem placeOf_append (t : FileTree) (p : Path) (way : List String) :
    t.placeOf { p with segments := p.segments ++ way } = Place.along (t.placeOf p) way :=
  Place.along_append _ _ _

/-- A path that goes on from another one leads through the place of that one. -/
theorem mem_passed_append (t : FileTree) (p : Path) (segment : String) (rest : List String) :
    t.placeOf p ∈ t.passed { p with segments := p.segments ++ segment :: rest } := by
  have hpassed := Place.passed_append (if p.isAbsolute then [] else t.here) p.segments
    (segment :: rest)
  rw [passed, show Path.isAbsolute { p with segments := p.segments ++ segment :: rest } =
    p.isAbsolute from rfl, hpassed]
  exact List.mem_append_right _ List.mem_cons_self

/-- The place is inside one of the folders. -/
def Inside (t : FileTree) (outputs : List Path) (place : Place) : Prop :=
  ∃ o ∈ outputs, t.placeOf o <+: place ∧ place ≠ t.placeOf o

instance (t : FileTree) (outputs : List Path) (place : Place) :
    Decidable (t.Inside outputs place) :=
  inferInstanceAs (Decidable (∃ o ∈ outputs, t.placeOf o <+: place ∧ place ≠ t.placeOf o))

/-- The place is inside one of the folders, or is one of them, or one on the way to it. -/
def Planned (t : FileTree) (outputs : List Path) (place : Place) : Prop :=
  t.Inside outputs place ∨ ∃ o ∈ outputs, ∃ q ∈ o :: o.ancestors, place = t.placeOf q

instance (t : FileTree) (outputs : List Path) (place : Place) :
    Decidable (t.Planned outputs place) :=
  inferInstanceAs (Decidable (_ ∨ ∃ o ∈ outputs, ∃ q ∈ o :: o.ancestors, place = t.placeOf q))

/-- A place is written with `..` only if the current folder is. -/
def Plain (t : FileTree) (place : Place) : Prop := ".." ∈ place → ".." ∈ t.here

/-- No place is written with `..`. -/
structure IsProper (t : FileTree) : Prop where
  here : ".." ∉ t.here
  files : ∀ place ∈ Table.names t.files, ".." ∉ place
  folders : ∀ place ∈ t.folders, ".." ∉ place

/-- Nothing is where the path leads. -/
def isVacant (t : FileTree) (p : Path) : Bool := t.spot (t.placeOf p) == .free (t.placeOf p)

theorem isVacant_iff {t : FileTree} {p : Path} :
    t.isVacant p = true ↔ t.spot (t.placeOf p) = .free (t.placeOf p) := by
  simp [isVacant]

/-- Something is where the path leads, if a file or a folder is found there. -/
theorem isVacant_eq_false {t : FileTree} {p : Path} {spot : Spot} (h : t.find p = .ok spot)
    (hspot : ∀ place, spot ≠ .free place) : t.isVacant p = false := by
  rw [Bool.eq_false_iff]
  intro hvacant
  rw [isVacant_iff, ← spot_of_find h] at hvacant
  exact hspot _ hvacant

/-- Something is where the path leads, if it passes a test that nothing passes. -/
theorem isVacant_of_test {t : FileTree} {p : Path} {accepts : Spot → Bool}
    (hfree : ∀ place, accepts (.free place) = false) (h : t.test p accepts = .ok true) :
    t.isVacant p = false := by
  unfold test at h
  cases hfind : t.find p with
  | error e =>
    rw [hfind] at h
    dsimp only at h
    split at h <;> cases h
  | ok spot =>
    rw [hfind] at h
    refine isVacant_eq_false hfind fun place hplace => ?_
    rw [hplace] at h
    exact absurd (Except.ok.inj h) (by rw [hfree place]; decide)

theorem isVacant_of_isFolder {t : FileTree} {p : Path} (h : t.isFolder p = .ok true) :
    t.isVacant p = false :=
  isVacant_of_test (fun _ => rfl) h

/-- There is no folder at the place yet, but one may be made there for the outputs. -/
def Reserved (t : FileTree) (outputs : List Path) (place : Place) : Prop :=
  t.spot place ≠ .folder place ∧ t.Planned outputs place

instance (t : FileTree) (outputs : List Path) (place : Place) :
    Decidable (t.Reserved outputs place) :=
  inferInstanceAs (Decidable (_ ∧ _))

/-- The path leads neither into one of the folders nor through a folder that has to be made. -/
structure Clear (t : FileTree) (outputs : List Path) (p : Path) : Prop where
  passed : ∀ place ∈ t.passed p, ¬t.Reserved outputs place
  outside : ¬t.Inside outputs (t.placeOf p)

instance (t : FileTree) (outputs : List Path) (p : Path) : Decidable (t.Clear outputs p) :=
  decidable_of_iff
    ((∀ place ∈ t.passed p, ¬t.Reserved outputs place) ∧ ¬t.Inside outputs (t.placeOf p))
    ⟨fun h => ⟨h.1, h.2⟩, fun h => ⟨h.passed, h.outside⟩⟩

/-- Every path is clear of no outputs. -/
theorem clear_nil (t : FileTree) (p : Path) : t.Clear [] p where
  passed place _ hreserved := by simp [Reserved, Planned, Inside] at hreserved
  outside hinside := by simp [Inside] at hinside

/-- The paths that are tried until there is a file at one of them. -/
def tried (t : FileTree) : List Path → List Path
  | [] => []
  | p :: rest =>
    p :: match t.isFile p with
      | .ok false => t.tried rest
      | _ => []

/-- A single path is tried. -/
theorem tried_singleton (t : FileTree) (p : Path) : t.tried [p] = [p] := by
  rw [tried, tried]
  split <;> rfl

/-- Where the files are the same at the paths that are tried, no others are tried. -/
theorem tried_congr {t t' : FileTree} {paths : List Path}
    (h : ∀ p ∈ t.tried paths, t'.isFile p = t.isFile p) : t'.tried paths = t.tried paths := by
  induction paths with
  | nil => rfl
  | cons p rest ih =>
    have hfile := h p List.mem_cons_self
    unfold tried at h ⊢
    rw [hfile]
    cases hthere : t.isFile p with
    | error e => rfl
    | ok there =>
      cases there with
      | true => rfl
      | false =>
        rw [hthere] at h
        exact congrArg _ (ih fun q hq => h q (List.mem_cons_of_mem _ hq))

/-- The one tree has grown out of the other by what was written to the outputs: new files are inside
of them, and new folders are at places that were planned and free. -/
structure FilledIn (outputs : List Path) (t t' : FileTree) : Prop
    extends Grown (t.Inside outputs) t t' where
  names : ∃ more, Table.names t'.files = Table.names t.files ++ more ∧
    ∀ place ∈ more, t.Inside outputs place ∧ t.Plain place
  made : ∃ more, t'.folders = t.folders ++ more ∧
    ∀ place ∈ more, t.Planned outputs place ∧ t.spot place = .free place ∧ t.Plain place

namespace FilledIn

variable {outputs : List Path} {t t' : FileTree}

theorem inside_iff (h : FilledIn outputs t t') (place : Place) :
    t'.Inside outputs place ↔ t.Inside outputs place := by
  unfold Inside
  simp only [h.placeOf_eq]

theorem passed_eq (h : FilledIn outputs t t') (p : Path) : t'.passed p = t.passed p := by
  unfold FileTree.passed
  rw [h.here]

theorem planned_iff (h : FilledIn outputs t t') (place : Place) :
    t'.Planned outputs place ↔ t.Planned outputs place := by
  unfold Planned
  simp only [h.inside_iff, h.placeOf_eq]

theorem plain_iff (h : FilledIn outputs t t') (place : Place) : t'.Plain place ↔ t.Plain place := by
  unfold Plain
  rw [h.here]

/-- What is free was free. -/
theorem free (h : FilledIn outputs t t') {place : Place} (hfree : t'.spot place = .free place) :
    t.spot place = .free place := by
  obtain ⟨hfile, hroot, hfolder⟩ := spot_eq_free_iff.1 hfree
  obtain ⟨more, hnames, -⟩ := h.names
  obtain ⟨more', hfolders, -⟩ := h.made
  rw [hnames] at hfile
  rw [hfolders] at hfolder
  exact spot_eq_free_iff.2 ⟨fun hmem => hfile (List.mem_append_left _ hmem), hroot,
    fun hmem => hfolder (List.mem_append_left _ hmem)⟩

/-- What leads to something still does. -/
theorem isVacant_eq_false (h : FilledIn outputs t t') {p : Path} (hp : t.isVacant p = false) :
    t'.isVacant p = false := by
  rw [Bool.eq_false_iff] at hp ⊢
  intro hvacant
  rw [isVacant_iff, h.placeOf_eq] at hvacant
  exact hp (isVacant_iff.2 (h.free hvacant))

/-- New places are written without `..`. -/
theorem isProper (h : FilledIn outputs t t') (hproper : t.IsProper) : t'.IsProper := by
  obtain ⟨files, hnames, hfiles⟩ := h.names
  obtain ⟨folders, hfolders, hmade⟩ := h.made
  refine ⟨h.here ▸ hproper.here, fun place hplace => ?_, fun place hplace => ?_⟩
  · rw [hnames] at hplace
    exact (List.mem_append.1 hplace).elim (hproper.files place) fun hnew hup =>
      hproper.here ((hfiles place hnew).2 hup)
  · rw [hfolders] at hplace
    exact (List.mem_append.1 hplace).elim (hproper.folders place) fun hnew hup =>
      hproper.here ((hmade place hnew).2.2 hup)

instance (outputs : List Path) : Std.Refl (FilledIn outputs) where
  refl t := ⟨refl_of _ t, ⟨[], by simp⟩, ⟨[], by simp⟩⟩

instance (outputs : List Path) : IsTrans FileTree (FilledIn outputs) where
  trans t t' t'' h h' := by
    refine ⟨trans_of _ h.toGrown (h'.toGrown.mono fun place => (h.inside_iff place).1), ?_, ?_⟩
    · obtain ⟨more, hnames, hmore⟩ := h.names
      obtain ⟨more', hnames', hmore'⟩ := h'.names
      refine ⟨more ++ more', by rw [hnames', hnames, List.append_assoc], fun place hplace => ?_⟩
      rcases List.mem_append.1 hplace with hplace | hplace
      · exact hmore place hplace
      · obtain ⟨hinside, hplain⟩ := hmore' place hplace
        exact ⟨(h.inside_iff place).1 hinside, (h.plain_iff place).1 hplain⟩
    · obtain ⟨more, hfolders, hmore⟩ := h.made
      obtain ⟨more', hfolders', hmore'⟩ := h'.made
      refine ⟨more ++ more', by rw [hfolders', hfolders, List.append_assoc], fun place hplace => ?_⟩
      rcases List.mem_append.1 hplace with hplace | hplace
      · exact hmore place hplace
      · obtain ⟨hplanned, hfree, hplain⟩ := hmore' place hplace
        exact ⟨(h.planned_iff place).1 hplanned, h.free hfree, (h.plain_iff place).1 hplain⟩

/-! ## What clear paths lead to -/

/-- Outside of the outputs, what is at a place is what was there, unless a folder was made where
nothing was. -/
theorem spot_of_outside (h : FilledIn outputs t t') {place : Place}
    (hplace : ¬t.Inside outputs place) :
    t'.spot place = t.spot place ∨
      t.spot place = .free place ∧ t'.spot place = .folder place ∧ t.Reserved outputs place := by
  have hfiles := h.files place hplace
  cases hspot : t.spot place with
  | folder other =>
    obtain ⟨rfl, -, -⟩ := spot_eq_folder hspot
    exact .inl (h.folders _ hspot)
  | file other content =>
    obtain ⟨rfl, hget⟩ := spot_eq_file hspot
    rw [hget] at hfiles
    exact .inl (by simp only [spot, hfiles])
  | free other =>
    obtain ⟨rfl, hget, hroot, hnew⟩ := spot_eq_free hspot
    obtain ⟨more, hfolders, hmore⟩ := h.made
    rw [hget] at hfiles
    by_cases hmem : other ∈ more
    · refine .inr ⟨rfl, spot_of_folder hfiles (.inr ?_), ?_, (hmore other hmem).1⟩
      · rw [hfolders]
        exact List.mem_append_right _ hmem
      · rw [hspot]
        simp
    · have hnot : other ∉ t'.folders := by
        rw [hfolders]
        exact fun hthere => (List.mem_append.1 hthere).elim hnew hmem
      exact .inl (by simp [spot, hfiles, hroot, hnot])

/-- A clear path that leads to something new leads to a place that was reserved. -/
theorem reserved_of_new (h : FilledIn outputs t t') {p : Path} (hp : t.Clear outputs p)
    (hvacant : t.isVacant p = true) (hthere : t'.isVacant p = false) :
    t.Reserved outputs (t.placeOf p) := by
  rcases h.spot_of_outside hp.outside with hsame | ⟨-, -, hreserved⟩
  · rw [isVacant, h.placeOf_eq, hsame] at hthere
    rw [isVacant, hthere] at hvacant
    cases hvacant
  · exact hreserved

/-- At a place that is not reserved there is what was there. -/
theorem spot_of_not_reserved (h : FilledIn outputs t t') {place : Place}
    (hplace : ¬t.Reserved outputs place) : t'.spot place = t.spot place := by
  by_cases hfolder : t.spot place = .folder place
  · rw [hfolder, h.folders _ hfolder]
  · have houtside : ¬t.Inside outputs place := fun hinside => hplace ⟨hfolder, .inl hinside⟩
    rcases h.spot_of_outside houtside with hsame | ⟨-, -, hreserved⟩
    · exact hsame
    · exact absurd hreserved hplace

/-- Segments that pass no reserved place lead where they led, as far as what is at the last place is
the same. -/
theorem walk_of_clear (h : FilledIn outputs t t') {place : Place} {segments : List String}
    (hpassed : ∀ other ∈ Place.passed place segments, ¬t.Reserved outputs other) :
    (∃ kind, t.walk place segments = .error kind ∧ t'.walk place segments = .error kind) ∨
      (t.walk place segments = .ok (t.spot (place.along segments)) ∧
        t'.walk place segments = .ok (t'.spot (place.along segments))) := by
  induction segments generalizing place with
  | nil => exact .inr ⟨rfl, rfl⟩
  | cons segment rest ih =>
    have hsame := h.spot_of_not_reserved (hpassed place List.mem_cons_self)
    have hrest := ih fun other hother => hpassed other (List.mem_cons_of_mem _ hother)
    unfold FileTree.walk
    rw [hsame]
    cases t.spot place with
    | free other => exact .inl ⟨_, rfl, rfl⟩
    | file other content => exact .inl ⟨_, rfl, rfl⟩
    | folder other =>
      dsimp only
      by_cases hup : segment == ".."
      · simp only [hup, if_true] at hrest
        simp only [hup, if_true, Place.along]
        exact hrest
      · by_cases hlong : longestName < segment.utf8ByteSize
        · simp only [hup, hlong, if_pos]
          exact .inl ⟨_, rfl, rfl⟩
        · simp only [hup, Bool.false_eq_true, if_false] at hrest
          simp only [hup, hlong, Bool.false_eq_true, if_false, Place.along]
          exact hrest

/-- A clear path leads to what it led to, unless a folder was made where nothing was. -/
theorem find_of_clear (h : FilledIn outputs t t') {p : Path} (hp : t.Clear outputs p) :
    t'.find p = t.find p ∨
      t.find p = .ok (.free (t.placeOf p)) ∧ t'.find p = .ok (.folder (t.placeOf p)) ∧
        t.Reserved outputs (t.placeOf p) := by
  unfold FileTree.find
  dsimp only
  split
  · exact .inl rfl
  · split
    · exact .inl rfl
    · split
      · exact .inl rfl
      · rw [h.here]
        rcases h.walk_of_clear hp.passed with ⟨kind, hwalk, hwalk'⟩ | ⟨hwalk, hwalk'⟩
        · rw [hwalk, hwalk']
          exact .inl rfl
        · rw [hwalk, hwalk']
          rcases h.spot_of_outside hp.outside with hsame | ⟨hfree, hfolder, hreserved⟩
          · exact .inl (congrArg Except.ok hsame)
          · exact .inr ⟨congrArg Except.ok hfree, congrArg Except.ok hfolder, hreserved⟩

/-- A clear path that leads to something leads to it still. -/
theorem find_eq (h : FilledIn outputs t t') {p : Path} (hp : t.Clear outputs p)
    (hthere : t.isVacant p = false) : t'.find p = t.find p := by
  refine (h.find_of_clear hp).resolve_right ?_
  rintro ⟨hfree, -, -⟩
  simp [isVacant, ← spot_of_find hfree] at hthere

/-- What passes a test at a clear path passed it, unless nothing was there. -/
theorem test_of_clear (h : FilledIn outputs t t') {p : Path} (hp : t.Clear outputs p)
    {accepts : Spot → Bool} (hfree : ∀ place, accepts (.free place) = false) {found : Bool}
    (htest : t'.test p accepts = .ok found) :
    t.test p accepts = .ok (found && !t.isVacant p) := by
  rcases h.find_of_clear hp with hsame | ⟨hvacant, -, -⟩
  · have htest' : t.test p accepts = .ok found := by
      rw [← htest]
      unfold FileTree.test
      rw [hsame]
    cases found with
    | false => exact htest'
    | true => rw [htest', isVacant_of_test hfree htest', Bool.not_false, Bool.and_true]
  · have hnone : t.isVacant p = true := isVacant_iff.2 (spot_of_find hvacant).symm
    unfold FileTree.test
    rw [hvacant, hnone, Bool.not_true, Bool.and_false]
    exact congrArg Except.ok (hfree _)

/-- Whether a clear path leads to a file does not change. -/
theorem isFile_of_clear (h : FilledIn outputs t t') {p : Path} (hp : t.Clear outputs p) :
    t'.isFile p = t.isFile p := by
  unfold FileTree.isFile FileTree.test
  rcases h.find_of_clear hp with hsame | ⟨hfree, hfolder, -⟩
  · rw [hsame]
  · rw [hfree, hfolder]

/-- A path that is clear stays clear. -/
theorem clear (h : FilledIn outputs t t') {p : Path} (hp : t.Clear outputs p) :
    t'.Clear outputs p := by
  refine ⟨fun place hplace hreserved => ?_, fun hinside => ?_⟩
  · rw [h.passed_eq] at hplace
    exact hp.passed place hplace ⟨fun hfolder => hreserved.1 (h.folders _ hfolder),
      (h.planned_iff place).1 hreserved.2⟩
  · rw [h.placeOf_eq] at hinside
    exact hp.outside ((h.inside_iff _).1 hinside)

/-- A file to which a clear path leads does not change. -/
theorem file_of_clear (h : FilledIn outputs t t') {p : Path} (hp : t.Clear outputs p) :
    t'.file p = t.file p ∨ ∃ kind kind', t.file p = .error (.fault kind p.toText) ∧
      t'.file p = .error (.fault kind' p.toText) := by
  unfold FileTree.file
  rcases h.find_of_clear hp with hsame | ⟨hfree, hfolder, -⟩
  · rw [hsame]
    exact .inl rfl
  · rw [hfree, hfolder]
    exact .inr ⟨_, _, rfl, rfl⟩

/-- What is read at a clear path does not change, but that it cannot be read for another reason. -/
theorem readText_of_clear (h : FilledIn outputs t t') {p : Path} (hp : t.Clear outputs p) :
    t'.readText p = t.readText p ∨ ∃ kind kind', t.readText p = .error (.fault kind p.toText) ∧
      t'.readText p = .error (.fault kind' p.toText) := by
  unfold FileTree.readText
  rcases h.file_of_clear hp with hsame | ⟨kind, kind', hmissing, hmissing'⟩
  · rw [hsame]
    exact .inl rfl
  · rw [hmissing, hmissing']
    exact .inr ⟨kind, kind', rfl, rfl⟩

/-- The size of what a clear path leads to is found if it was. -/
theorem size_of_clear (h : FilledIn outputs t t') {p : Path} (hp : t.Clear outputs p) :
    t'.size p = t.size p ∨ ∃ size size', t.size p = .ok size ∧ t'.size p = .ok size' := by
  unfold FileTree.size
  rcases h.find_of_clear hp with hsame | ⟨hfree, hfolder, -⟩
  · rw [hsame]
    exact .inl rfl
  · rw [hfree, hfolder]
    exact .inr ⟨_, _, rfl, rfl⟩

end FilledIn

end FileTree

/-! ## Writing to the outputs -/

namespace FileTree

variable {outputs : List Path}

/-- The path and those above it lead to places that are planned for outputs, whatever else is in the
tree. -/
def Plans (outputs : List Path) (p : Path) : Prop :=
  ∀ t : FileTree, ∀ q ∈ p :: p.ancestors, t.Planned outputs (t.placeOf q)

/-- An output is planned. -/
theorem plans_of_mem {o : Path} (ho : o ∈ outputs) : Plans outputs o :=
  fun _ q hq => .inr ⟨o, ho, q, hq, rfl⟩

/-- A plain name in an output leads inside of it. -/
theorem inside_child {o : Path} (ho : o ∈ outputs) {name : String} (h : Path.IsPlain name)
    (t : FileTree) : t.Inside outputs (t.placeOf (o.child name)) := by
  refine ⟨o, ho, ?_, ?_⟩ <;> rw [placeOf_child h]
  · exact List.prefix_append _ _
  · simp

/-- A plain name in a folder inside an output leads inside of the output. -/
theorem Inside.child {t : FileTree} {p : Path} (h : t.Inside outputs (t.placeOf p)) {name : String}
    (hname : Path.IsPlain name) : t.Inside outputs (t.placeOf (p.child name)) := by
  obtain ⟨o, ho, hprefix, -⟩ := h
  refine ⟨o, ho, ?_, ?_⟩ <;> rw [placeOf_child hname]
  · exact hprefix.trans (List.prefix_append _ _)
  · intro heq
    rw [← heq] at hprefix
    have hlength := hprefix.length_le
    rw [List.length_append, List.length_singleton] at hlength
    omega

/-- A plain name in a planned folder is planned if it leads inside an output. -/
theorem Plans.child {p : Path} (h : Plans outputs p) {name : String} (hname : Path.IsPlain name)
    (hinside : ∀ t : FileTree, t.Inside outputs (t.placeOf (p.child name))) :
    Plans outputs (p.child name) := by
  intro t q hq
  rw [Path.ancestors_child hname] at hq
  rcases List.mem_cons.1 hq with rfl | hq
  · exact .inl (hinside t)
  · exact h t q hq

end FileTree

namespace Change

open FileTree (FilledIn Plans)

variable {outputs : List Path}

/-- Where a path leads is written with `..` only if the current folder is. -/
theorem plain_placeOf (t : FileTree) (p : Path) : t.Plain (t.placeOf p) := by
  intro hmem
  by_contra hhere
  refine Place.not_mem_along ?_ p.segments hmem
  split
  · exact List.not_mem_nil
  · exact hhere

/-- Making a folder for the outputs, and those above it, fills them. -/
theorem filledIn_folders {p : Path} (hp : Plans outputs p) :
    Leaves (FilledIn outputs) (folders p) := by
  refine leaves_folders fun q hq t hfree => ?_
  refine ⟨grown_addFolder.mono fun _ h => h.elim, ⟨[], by simp [FileTree.addFolder]⟩,
    ⟨[t.placeOf q], rfl, fun other hother => ?_⟩⟩
  rw [List.mem_singleton.1 hother]
  exact ⟨hp t q hq, (FileTree.spot_of_find hfree).symm, plain_placeOf t q⟩

/-- Writing bytes into a file inside the outputs fills them. -/
theorem filledIn_write {p : Path} (hp : ∀ t : FileTree, t.Inside outputs (t.placeOf p))
    (bytes : List UInt8) : Leaves (FilledIn outputs) (write p bytes) := by
  refine leaves_write fun t hspot => ?_
  refine ⟨(grown_putFile bytes hspot).mono fun other hother => hother ▸ hp t, ?_,
    ⟨[], by simp [FileTree.putFile]⟩⟩
  rw [FileTree.putFile, Table.names_set]
  split
  · exact ⟨[], by simp⟩
  · refine ⟨[t.placeOf p], rfl, fun other hother => ?_⟩
    rw [List.mem_singleton.1 hother]
    exact ⟨hp t, plain_placeOf t p⟩

/-- Writing a text into a file inside the outputs fills them. -/
theorem filledIn_writeText {p : Path} (hp : ∀ t : FileTree, t.Inside outputs (t.placeOf p))
    (text : String) : Leaves (FilledIn outputs) (writeText p text) := by
  unfold writeText
  cases Text.Utf8.encode? text with
  | some bytes => exact filledIn_write hp bytes
  | none => exact (filledIn_write hp []).bind fun _ => .throw _

end Change

end StoryRegistry
