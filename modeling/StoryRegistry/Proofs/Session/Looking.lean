import StoryRegistry.Proofs.Session.Steady
import StoryRegistry.Proofs.Table
import StoryRegistry.Session.Pipeline

/-!
# What a pipeline looks at

Finding story files, reading them, following their imports and analysing their components are steps
that only look. What is remembered of packages is no exception: a version that is remembered is the
one that is looked up no more, and remembering it changes nothing for other packages.
-/

set_option autoImplicit false

namespace StoryRegistry

/-! ## Story files -/

section

variable {R : Session → Session → Prop} [IsView R]

/-- Reading a story file is steady. -/
theorem Stories.steady_read (path : String) : Steady R (Stories.read path) := by
  refine Steady.tree.bind fun t => (Steady.text _).attempt.bind fun outcome => ?_
  cases outcome with
  | ok source => exact .ofExcept _
  | error e =>
    dsimp only
    cases e.unread? with
    | some cause => exact .throw _
    | none => exact .throw _

/-- Reading one more story file is steady. -/
theorem Stories.steady_readInto (batch : Batch) (path : String) :
    Steady R (Stories.readInto batch path) := by
  refine (steady_read path).attempt.bind fun outcome => ?_
  cases outcome with
  | ok f => exact .pure _
  | error e =>
    dsimp only
    split
    · exact (Steady.tell _ _).bind fun _ => .pure _
    · exact .throw _

/-- Reading all story files is steady. -/
theorem Stories.steady_readAll (paths : List String) : Steady R (Stories.readAll paths) := by
  refine (Steady.foldlM steady_readInto _).bind fun batch => ?_
  dsimp only
  split
  · exact (Steady.throw _).bind fun _ => .pure _
  · exact .pure _

/-- Looking for the story files of a project is steady. -/
theorem Discovery.steady_storyFiles (settings : Settings) :
    Steady R (Discovery.storyFiles settings) := by
  refine (Steady.look _).bind fun there => ?_
  cases there with
  | false => exact (Steady.tell _ _).bind fun _ => .pure _
  | true =>
    refine Steady.tree.bind fun t => (Steady.ofExcept _).bind fun found => ?_
    exact (Steady.tell _ _).bind fun _ => .pure _

/-- Looking for files that were changed is steady. -/
theorem Discovery.steady_changedSince (since : Instant) (paths : List String) :
    Steady R (Discovery.changedSince since paths) := by
  unfold Discovery.changedSince
  cases since.micros? with
  | none => exact .throw _
  | some time => exact .look _

/-! ## Components -/

namespace Analysis

/-- Counting the lines of a story file is steady if reading files is. -/
theorem steady_storyLines {reader : Reader}
    (hreader : ∀ p, Steady R (reader p)) (f : StoryFile) : Steady R (storyLines reader f) := by
  refine (hreader _).attempt.bind fun outcome => ?_
  cases outcome with
  | ok text => exact .pure _
  | error e =>
    dsimp only
    split
    · exact .pure _
    · exact .throw _

/-- Measuring the source file of a component is steady if reading files is. -/
theorem steady_sourceSize? {reader : Reader}
    (hreader : ∀ p, Steady R (reader p)) (source : Option String) :
    Steady R (sourceSize? reader source) := by
  cases source with
  | none => exact .pure _
  | some path =>
    refine (hreader _).attempt.bind fun outcome => ?_
    cases outcome with
    | ok text => exact .pure _
    | error e =>
      dsimp only
      cases e.unread? with
      | some cause => exact (Steady.tell _ _).bind fun _ => .pure _
      | none => exact .throw _

/-- Measuring a component is steady if reading files is. -/
theorem steady_measured {reader : Reader}
    (hreader : ∀ p, Steady R (reader p)) (f : StoryFile) (source : Option String) :
    Steady R (measured reader f source) := by
  refine (steady_storyLines hreader f).bind fun lines =>
    (steady_sourceSize? hreader source).bind fun size => ?_
  cases size <;> exact .pure _

end Analysis

end

/-! ## Versions of packages -/

namespace Import

section

variable {R : Session → Session → Prop} [IsView R]

/-- Reading the version in a manifest is steady. -/
theorem steady_readVersion (p : Path) : Steady R (readVersion p) := by
  have hunreadable (words : String) : Steady R (do
      Run.tell .debug ("Unreadable package manifest " ++ p.toText ++ ": " ++ words)
      return (none : Option String)) := (Steady.tell _ _).bind fun _ => .pure _
  refine (Steady.text p).attempt.bind fun outcome => ?_
  cases outcome with
  | ok text =>
    dsimp only
    cases Value.ofJson text with
    | ok manifest => exact .pure _
    | error problem => exact hunreadable _
  | error e =>
    dsimp only
    cases e.unread? with
    | some cause => exact hunreadable _
    | none => exact .throw _

/-- Looking for the nearest manifest of a package is steady. -/
theorem steady_installed (settings : Settings) (package : String) :
    Steady R (installed settings package) := by
  refine (Steady.look _).bind fun manifest => ?_
  cases manifest with
  | none => exact .pure _
  | some p => exact steady_readVersion p

end

/-- What a session knows of a package: what it remembers, or else what looking it up comes to. -/
def known (settings : Settings) (s : Session) (package : String) : Except Failure (Option String) :=
  match Table.get? package s.versions with
  | some version => .ok version
  | none => (ends (installed settings package) s).1

/-- Looking something up does not depend on what is remembered. -/
theorem installed_eq (settings : Settings) (package : String) {s s' : Session}
    (h : s'.tree = s.tree) :
    (ends (installed settings package) s').1 = (ends (installed settings package) s).1 :=
  (@steady_installed SameTree _ settings package).agrees h

/-- The sessions have the same file tree and know the same of every package. -/
def SameLookups (settings : Settings) (s s' : Session) : Prop :=
  s'.tree = s.tree ∧ ∀ package, known settings s' package = known settings s package

/-- Sessions that remember the same know the same. -/
theorem SameLookups.of_sameMemo {settings : Settings} {s s' : Session} (h : SameMemo s s') :
    SameLookups settings s s' := by
  refine ⟨h.1, fun package => ?_⟩
  unfold known
  rw [h.2]
  cases Table.get? package s.versions with
  | some version => rfl
  | none => exact installed_eq settings package h.1

instance (settings : Settings) : IsView (SameLookups settings) where
  refl _ := ⟨rfl, fun _ => rfl⟩
  trans _ _ _ h h' := ⟨h'.1.trans h.1, fun package => (h'.2 package).trans (h.2 package)⟩
  symm _ _ h := ⟨h.1.symm, fun package => (h.2 package).symm⟩
  tree_eq h := h.1
  log _ _ := .of_sameMemo ⟨rfl, rfl⟩
  report _ _ _ := .of_sameMemo ⟨rfl, rfl⟩

/-- Remembering what looking a package up comes to changes nothing that is known. -/
theorem SameLookups.remember {settings : Settings} {s : Session} {package : String}
    {version : Option String} (hnew : Table.get? package s.versions = none)
    (hfound : (ends (installed settings package) s).1 = .ok version) :
    SameLookups settings s { s with versions := Table.set package version s.versions } := by
  refine ⟨rfl, fun other => ?_⟩
  unfold known
  by_cases hother : other = package
  · subst hother
    rw [Table.get?_set_self, hnew]
    exact hfound.symm
  · rw [Table.get?_set_of_ne hother]
    cases Table.get? other s.versions with
    | some version => rfl
    | none => exact installed_eq settings other rfl

/-- The version of a package is what the session knows of it. -/
theorem ends_version (settings : Settings) (specifier : String) (s : Session) :
    (ends (version settings specifier) s).1 = known settings s (Specifier.package specifier) ∧
      SameLookups settings s (ends (version settings specifier) s).2 := by
  unfold version known
  rw [ends.bind_of_ok (ends.get_eq s)]
  cases hmemo : Table.get? (Specifier.package specifier) s.versions with
  | some known => exact ⟨rfl, refl_of _ s⟩
  | none =>
    -- the version is looked up in the tree, and from then on it is remembered
    have hlooked := (@steady_installed SameMemo _ settings (Specifier.package specifier)).leaves s
    dsimp only
    cases hend : ends (installed settings (Specifier.package specifier)) s with
    | mk r t =>
      rw [hend] at hlooked
      cases r with
      | error e =>
        rw [ends.bind_of_error hend]
        exact ⟨rfl, .of_sameMemo hlooked⟩
      | ok found =>
        rw [ends.bind_of_ok hend]
        have hfound :
            (ends (installed settings (Specifier.package specifier)) t).1 = .ok found := by
          rw [installed_eq settings _ hlooked.1, hend]
        have hnew : Table.get? (Specifier.package specifier) t.versions = none := by
          rw [hlooked.2, hmemo]
        exact ⟨rfl, trans_of _ (.of_sameMemo hlooked) (.remember hnew hfound)⟩

/-- A likeness under which the version of a package can be looked up. -/
class IsLookup (settings : Settings) (R : Session → Session → Prop) : Prop extends IsView R where
  steady_version : ∀ specifier, Steady R (version settings specifier)

instance (settings : Settings) : IsLookup settings (SameLookups settings) where
  steady_version specifier :=
    { leaves := fun s => (ends_version settings specifier s).2
      agrees := fun {s s'} h => by
        rw [(ends_version settings specifier s').1, (ends_version settings specifier s).1, h.2] }

/-- The sessions know the same of every package, and their reports are about the same registry. -/
def SameRun (settings : Settings) (s s' : Session) : Prop :=
  SameLookups settings s s' ∧ SameReported s s'

instance (settings : Settings) : IsView (SameRun settings) where
  refl s := ⟨refl_of _ s, refl_of _ s⟩
  trans _ _ _ h h' := ⟨trans_of _ h.1 h'.1, trans_of _ h.2 h'.2⟩
  symm _ _ h := ⟨symm_of _ h.1, symm_of _ h.2⟩
  tree_eq h := h.2.1
  log s lines := ⟨IsView.log s lines, IsView.log s lines⟩
  report s found h := ⟨IsView.report s found h, IsView.report s found h⟩

/-- Looking up a version notes nothing. -/
theorem leaves_version (settings : Settings) (specifier : String) :
    Leaves SameReported (version settings specifier) := by
  intro s
  unfold version
  rw [ends.bind_of_ok (ends.get_eq s)]
  cases Table.get? (Specifier.package specifier) s.versions with
  | some known => exact refl_of _ s
  | none =>
    refine (steady_installed settings _).leaves.bind (fun found => ?_) s
    exact fun t => ⟨rfl, rfl⟩

instance (settings : Settings) : IsLookup settings (SameRun settings) where
  steady_version specifier :=
    { leaves := fun s =>
        ⟨(ends_version settings specifier s).2, leaves_version settings specifier s⟩
      agrees := fun h => (IsLookup.steady_version specifier).agrees h.1 }

variable {settings : Settings} {R : Session → Session → Prop} [IsLookup settings R]

/-- Finding the dependency that a specifier makes is steady. -/
theorem steady_dependency? (importer specifier : String) :
    Steady R (dependency? settings importer specifier) := by
  unfold dependency?
  split
  · exact .pure _
  · cases Specifier.kind specifier with
    | internal => exact (Steady.look _).bind fun _ => .pure _
    | npm => exact (IsLookup.steady_version specifier).bind fun _ => .pure _
    | registryExternal => exact .pure _

/-- Finding the dependencies that specifiers make is steady. -/
theorem steady_dependencies (importer : String) (specifiers : List String) :
    Steady R (dependencies settings importer specifiers) :=
  (Steady.mapM (steady_dependency? importer)).bind fun _ => .pure _

/-! ## Dependencies -/

variable {importer : String} {s : Session} {d : Dependency}

/-- The dependency that a specifier makes is what the specifier resolves to, or has the version that is
known of its package. -/
theorem of_dependency? {specifier : String}
    (h : (ends (dependency? settings importer specifier) s).1 = .ok (some d)) :
    (d.kind = .internal →
        ∃ path, resolve s.tree specifier importer = .ok path ∧ d.path = some path) ∧
      (d.kind = .npm → known settings s (Specifier.package d.specifier) = .ok d.version) := by
  have hend : ends (dependency? settings importer specifier) s =
      (.ok (some d), (ends (dependency? settings importer specifier) s).2) := Prod.ext h rfl
  unfold dependency? at hend
  by_cases hframework : Specifier.isFramework specifier = true
  · rw [if_pos hframework] at hend
    cases congrArg Prod.fst hend
  · rw [if_neg hframework] at hend
    cases hform : Specifier.kind specifier with
    | internal =>
      rw [hform] at hend
      obtain ⟨path, s', hlook, hlast⟩ := ends.of_bind hend
      cases congrArg Prod.fst hlast
      rw [ends.look_eq, Prod.mk.injEq] at hlook
      exact ⟨fun _ => ⟨path, eq_ok_of_mapError hlook.1, rfl⟩, nofun⟩
    | npm =>
      rw [hform] at hend
      obtain ⟨version, s', hversion, hlast⟩ := ends.of_bind hend
      cases congrArg Prod.fst hlast
      refine ⟨nofun, fun _ => ?_⟩
      rw [← (ends_version settings specifier s).1, hversion]
    | registryExternal =>
      rw [hform] at hend
      cases congrArg Prod.fst hend
      exact ⟨nofun, nofun⟩

/-- Each dependency in a file is the one that a specifier in it makes. -/
theorem exists_specifier {specifiers : List String} {found : List Dependency}
    (h : (ends (dependencies settings importer specifiers) s).1 = .ok found) (hd : d ∈ found) :
    ∃ specifier, (ends (dependency? settings importer specifier) s).1 = .ok (some d) := by
  have hmake := @steady_dependency? settings (SameLookups settings) _ importer
  have hend : ends (dependencies settings importer specifiers) s =
      (.ok found, (ends (dependencies settings importer specifiers) s).2) := Prod.ext h rfl
  unfold dependencies at hend
  obtain ⟨results, t, hresults, hlast⟩ := ends.of_bind hend
  obtain rfl : results.filterMap id = found := Except.ok.inj (congrArg Prod.fst hlast)
  have hmem : some d ∈ results := by simpa using hd
  have hmade : (Except.ok (some d) : Except Failure (Option Dependency)) ∈ results.map Except.ok :=
    List.mem_map_of_mem hmem
  rw [← Steady.mapM_ok hmake hresults] at hmade
  obtain ⟨specifier, -, hspecifier⟩ := List.mem_map.1 hmade
  exact ⟨specifier, hspecifier⟩

end Import

end StoryRegistry
