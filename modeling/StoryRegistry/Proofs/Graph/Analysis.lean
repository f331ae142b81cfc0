import StoryRegistry.Proofs.FileTree.Faults
import StoryRegistry.Proofs.Graph.Building

/-!
# When a file can be listed

Looking at a file does not end the search if its text cannot be read, be it that the place is at fault
or that the bytes are no text; it does if a test for one of the files that its specifiers may refer to
fails, or if the path itself is none. Tests fail for names that are too long.
-/

set_option autoImplicit false

namespace StoryRegistry

namespace Import

variable {settings : Settings} {s : Session}

/-! ## Tests -/

/-- The paths that are tested to find what a specifier refers to. -/
def tested (settings : Settings) (importer specifier : String) : List Path :=
  if Specifier.isFramework specifier then []
  else
    match Specifier.kind specifier with
    | .internal => (candidates (target specifier importer)).map Path.ofString
    | .npm => manifests settings.root (Specifier.package specifier)
    | .registryExternal => []

theorem exists_firstManifest? {t : FileTree} {paths : List Path}
    (h : ∀ p ∈ paths, ∃ there, t.isFile p = .ok there) :
    ∃ found, firstManifest? t paths = .ok found := by
  induction paths with
  | nil => exact ⟨none, rfl⟩
  | cons first rest ih =>
    obtain ⟨there, hthere⟩ := h first List.mem_cons_self
    rw [firstManifest?, hthere]
    cases there with
    | true => exact ⟨some first, rfl⟩
    | false => exact ih fun p hp => h p (List.mem_cons_of_mem _ hp)

/-- The manifest that is found is there. -/
theorem isFile_of_firstManifest? {t : FileTree} {paths : List Path} {p : Path}
    (h : firstManifest? t paths = .ok (some p)) : t.isFile p = .ok true := by
  induction paths with
  | nil => cases h
  | cons first rest ih =>
    rw [firstManifest?] at h
    cases hthere : t.isFile first with
    | error e =>
      rw [hthere] at h
      cases h
    | ok there =>
      rw [hthere] at h
      cases there with
      | true =>
        cases h
        exact hthere
      | false => exact ih h

theorem isFault_of_firstManifest? {t : FileTree} (paths : List Path) {e : FileError}
    (h : firstManifest? t paths = .error e) : e.isFault = true := by
  induction paths with
  | nil => cases h
  | cons first rest ih =>
    rw [firstManifest?] at h
    cases hthere : t.isFile first with
    | error cause =>
      rw [hthere] at h
      cases h
      exact FileTree.isFault_of_test hthere
    | ok there =>
      rw [hthere] at h
      cases there with
      | true => cases h
      | false => exact ih h

theorem exists_firstFile? {t : FileTree} {paths : List String}
    (h : ∀ path ∈ paths, ∃ there, t.isFile (Path.ofString path) = .ok there) :
    ∃ found, firstFile? t paths = .ok found := by
  have hpaths : ∀ p ∈ paths.map Path.ofString, ∃ there, t.isFile p = .ok there := by
    intro p hp
    obtain ⟨path, hpath, rfl⟩ := List.mem_map.1 hp
    exact h path hpath
  obtain ⟨found, hfound⟩ := exists_firstManifest? hpaths
  rw [firstManifest?_map] at hfound
  cases hfirst : firstFile? t paths with
  | error e =>
    rw [hfirst] at hfound
    cases hfound
  | ok found => exact ⟨found, rfl⟩

theorem isFault_of_firstFile? {t : FileTree} {paths : List String} {e : FileError}
    (h : firstFile? t paths = .error e) : e.isFault = true := by
  have hmanifest := firstManifest?_map t paths
  rw [h] at hmanifest
  exact isFault_of_firstManifest? _ hmanifest

/-- A file that is there is read, unless its bytes are no text. -/
theorem isUnreadable_of_isFile {t : FileTree} {p : Path} (h : t.isFile p = .ok true)
    {cause : FileError} (hread : t.readText p = .error cause) : cause.isUnreadable = true := by
  unfold FileTree.isFile FileTree.test at h
  cases hfind : t.find p with
  | error e =>
    rw [hfind] at h
    dsimp only at h
    split at h <;> cases h
  | ok spot =>
    rw [hfind] at h
    cases spot with
    | folder place => cases h
    | free place => cases h
    | file place content =>
      have hfile : t.file p = .ok content := by rw [FileTree.file, hfind]; rfl
      unfold FileTree.readText at hread
      rw [hfile] at hread
      dsimp only [bind, Except.bind] at hread
      split at hread <;> cases hread
      rfl

theorem exists_readVersion {p : Path} (h : s.tree.isFile p = .ok true) :
    ∃ version, (ends (readVersion p) s).1 = .ok version := by
  unfold readVersion
  rw [ends.bind_of_ok (ends.attempt_eq _ s), Run.text, ends.look_eq]
  cases hread : s.tree.readText p with
  | ok text =>
    dsimp only [Except.mapError]
    cases hjson : Value.ofJson text with
    | ok manifest => exact ⟨_, rfl⟩
    | error problem => exact ⟨none, rfl⟩
  | error cause =>
    have hunread : (Failure.file cause).unread? = some cause :=
      if_pos (isUnreadable_of_isFile h hread)
    dsimp only [Except.mapError]
    rw [hunread]
    exact ⟨none, rfl⟩

/-! ## Failures of a look-up -/

/-- The failure is that a place in the file tree is at fault. -/
def OfPlace (e : Failure) : Prop := ∃ cause : FileError, e = .file cause ∧ cause.isFault = true

theorem failsWith_resolve (importer specifier : String) :
    FailsWith OfPlace (Run.look fun t => resolve t specifier importer) := by
  refine FailsWith.look fun t cause h => ⟨cause, rfl, ?_⟩
  unfold resolve at h
  dsimp only at h
  cases hfirst : firstFile? t (candidates (target specifier importer)) with
  | error other =>
    rw [hfirst] at h
    cases h
    exact isFault_of_firstFile? hfirst
  | ok found =>
    rw [hfirst] at h
    cases h

/-- A manifest is only read where it was found, so that no more can go wrong than with finding it. -/
theorem failsWith_installed (package : String) :
    FailsWith OfPlace (installed settings package) := by
  intro s e h
  rcases ends.error_of_bind h with hlook | ⟨found, s', hlook, hread⟩
  · refine FailsWith.look (fun t cause hcause => ?_) s e hlook
    exact ⟨cause, rfl, isFault_of_firstManifest? _ hcause⟩
  · rw [ends.look_eq] at hlook
    obtain ⟨hfirst, rfl⟩ := Prod.mk.inj hlook
    cases found with
    | none => cases hread
    | some p =>
      have hthere : firstManifest? s.tree (manifests settings.root package) = .ok (some p) := by
        cases hresult : firstManifest? s.tree (manifests settings.root package) with
        | error cause =>
          rw [hresult] at hfirst
          cases hfirst
        | ok other =>
          rw [hresult] at hfirst
          cases hfirst
          rfl
      obtain ⟨version, hversion⟩ := exists_readVersion (isFile_of_firstManifest? hthere)
      dsimp only at hread
      rw [hversion] at hread
      cases hread

/-- Finding the dependency that a specifier makes fails only where a place is at fault. -/
theorem failsWith_dependency? (importer specifier : String) :
    FailsWith OfPlace (dependency? settings importer specifier) := by
  have hversion : FailsWith OfPlace (version settings specifier) := by
    refine FailsWith.get.bind fun session => ?_
    cases Table.get? (Specifier.package specifier) session.versions with
    | some known => exact .pure _
    | none =>
      exact (failsWith_installed _).bind fun found => (FailsWith.modify _).bind fun _ => .pure _
  unfold dependency?
  split
  · exact .pure _
  · cases Specifier.kind specifier with
    | internal => exact (failsWith_resolve importer specifier).bind fun _ => .pure _
    | npm => exact hversion.bind fun _ => .pure _
    | registryExternal => exact .pure _

/-! ## Look-ups without failure -/

theorem exists_version {specifier : String}
    (h : ∀ p ∈ manifests settings.root (Specifier.package specifier),
      ∃ there, s.tree.isFile p = .ok there) :
    ∃ found, (ends (version settings specifier) s).1 = .ok found := by
  rw [(ends_version settings specifier s).1]
  unfold known
  cases Table.get? (Specifier.package specifier) s.versions with
  | some remembered => exact ⟨remembered, rfl⟩
  | none =>
    obtain ⟨manifest, hmanifest⟩ := exists_firstManifest? h
    have hlook : ends (Run.look fun t =>
        firstManifest? t (manifests settings.root (Specifier.package specifier))) s =
          (.ok manifest, s) := by
      rw [ends.look_eq, hmanifest]
      rfl
    dsimp only
    rw [installed, ends.bind_of_ok hlook]
    cases manifest with
    | none => exact ⟨none, rfl⟩
    | some p => exact exists_readVersion (isFile_of_firstManifest? hmanifest)

/-- Where every test succeeds, so does looking up what a specifier refers to. -/
theorem exists_dependency? {importer specifier : String}
    (h : ∀ p ∈ tested settings importer specifier, ∃ there, s.tree.isFile p = .ok there) :
    ∃ found, (ends (dependency? settings importer specifier) s).1 = .ok found := by
  unfold tested at h
  unfold dependency?
  by_cases hframework : Specifier.isFramework specifier = true
  · rw [if_pos hframework]
    exact ⟨none, rfl⟩
  · rw [if_neg hframework] at h ⊢
    cases hkind : Specifier.kind specifier with
    | registryExternal => exact ⟨_, rfl⟩
    | internal =>
      rw [hkind] at h
      obtain ⟨found, hfound⟩ := exists_firstFile? fun path hpath => h _ (List.mem_map_of_mem hpath)
      have hlook : (ends (Run.look fun t => resolve t specifier importer) s).1 =
          .ok (found.getD (target specifier importer)) := by
        rw [ends.look_eq]
        unfold resolve
        dsimp only
        rw [hfound]
        rfl
      exact ⟨_, ends.bind_pure_of_ok _ hlook⟩
    | npm =>
      rw [hkind] at h
      obtain ⟨found, hfound⟩ := exists_version h
      exact ⟨_, ends.bind_pure_of_ok _ hfound⟩

end Import

namespace DependencyGraph

open Import (SameLookups)

variable {settings : Settings} {s : Session} {path : String}

/-- The file does not end the search: it is found unreadable, or every specifier in it can be looked
up. -/
def Listable (settings : Settings) (s : Session) (path : String) : Prop :=
  match s.tree.readText (Path.ofString path) with
  | .error cause => cause.isUnreadable = true
  | .ok source => ∀ specifier ∈ (Script.Module.ofFile path source).imports,
      ∃ found, (ends (Import.dependency? settings path specifier) s).1 = .ok found

/-- A file whose text is read can be listed if every specifier in it can be looked up. -/
theorem listable_of_text {source : String}
    (h : s.tree.readText (Path.ofString path) = .ok source) :
    Listable settings s path ↔ ∀ specifier ∈ (Script.Module.ofFile path source).imports,
      ∃ found, (ends (Import.dependency? settings path specifier) s).1 = .ok found := by
  unfold Listable
  rw [h]

/-- A file whose text is read has the dependencies of its specifiers. -/
theorem analysis_of_text {source : String}
    (h : s.tree.readText (Path.ofString path) = .ok source) :
    analysis settings s path =
      (ends (Import.dependencies settings path (Script.Module.ofFile path source).imports) s).1 := by
  unfold analysis dependenciesOf
  rw [ends.bind_of_ok (ends.attempt_eq _ s), Run.text, ends.look_eq, h]
  rfl

/-- A file whose text cannot be read has none, and the failure says so if reading is at fault. -/
theorem analysis_of_error {cause : FileError}
    (h : s.tree.readText (Path.ofString path) = .error cause) :
    analysis settings s path =
      .error (if cause.isUnreadable then .unreadableImports path cause else .file cause) := by
  unfold analysis dependenciesOf
  rw [ends.bind_of_ok (ends.attempt_eq _ s), Run.text, ends.look_eq, h]
  dsimp only [Except.mapError]
  by_cases hunread : cause.isUnreadable = true
  · rw [Failure.unread?, if_pos hunread, if_pos hunread]
    rfl
  · rw [Failure.unread?, if_neg hunread, if_neg hunread]
    rfl

/-- A file that can be read and listed has dependencies. -/
theorem exists_analysis {source : String} (h : Listable settings s path)
    (hread : s.tree.readText (Path.ofString path) = .ok source) :
    ∃ found, analysis settings s path = .ok found := by
  rw [analysis_of_text hread]
  obtain ⟨results, hresults⟩ := Steady.exists_mapM
    (@Import.steady_dependency? settings (SameLookups settings) _ path)
    ((listable_of_text hread).1 h)
  exact ⟨_, ends.bind_pure_of_ok _ hresults⟩

/-- The search is ended exactly by the files that cannot be listed. -/
theorem listable_iff : Listable settings s path ↔ ∀ e, ¬Escapes settings s path e := by
  unfold Escapes
  cases hread : s.tree.readText (Path.ofString path) with
  | error cause =>
    rw [analysis_of_error hread]
    unfold Listable
    rw [hread]
    dsimp only
    by_cases hunread : cause.isUnreadable = true
    · rw [if_pos hunread]
      simp only [hunread, true_iff]
      rintro e ⟨he, hkind⟩
      cases he
      cases hkind
    · rw [if_neg hunread]
      simp only [hunread, Bool.false_eq_true, false_iff, not_forall, not_not]
      exact ⟨_, rfl, rfl⟩
  | ok source =>
    constructor
    · rintro hlisted e ⟨he, -⟩
      obtain ⟨found, hfound⟩ := exists_analysis hlisted hread
      rw [hfound] at he
      cases he
    · rw [analysis_of_text hread, listable_of_text hread]
      generalize (Script.Module.ofFile path source).imports = specifiers
      intro hnone specifier hspecifier
      have hsteady := @Import.steady_dependency? settings (SameLookups settings) _ path
      cases hend : ends (specifiers.mapM (Import.dependency? settings path)) s with
      | mk outcome s' =>
        cases outcome with
        | ok results =>
          have hall := Steady.mapM_ok hsteady hend
          have hmem : (ends (Import.dependency? settings path specifier) s).1 ∈
              results.map Except.ok := hall ▸ List.mem_map_of_mem hspecifier
          obtain ⟨found, -, hfound⟩ := List.mem_map.1 hmem
          exact ⟨found, hfound.symm⟩
        | error e =>
          -- a look-up fails only with an error of a file, which is not noted
          obtain ⟨cause, rfl, -⟩ := FailsWith.mapM (Import.failsWith_dependency? path) s e
            (congrArg Prod.fst hend)
          refine absurd ⟨?_, rfl⟩ (hnone (.file cause))
          unfold Import.dependencies
          rw [ends.bind_of_error hend]

end DependencyGraph

end StoryRegistry
