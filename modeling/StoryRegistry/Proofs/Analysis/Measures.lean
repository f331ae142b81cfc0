import StoryRegistry.Proofs.Session.Pipeline
import StoryRegistry.Proofs.Session.Progress
import StoryRegistry.Proofs.Story.Outline

/-!
# What is counted and what is listed

An analysis says how much a component consists of, and lists what it consists of. The numbers of stories
and dependencies are those of the listed ones, and each specifier that the story file keeps as a
dependency makes one, in its order. A source file is listed as soon as it is located, but it is
counted only if it can be read (`measures_of_ofStories`).
-/

set_option autoImplicit false

namespace StoryRegistry

variable {settings : Settings} {s : Session}

/-! ## Dependencies -/

namespace Import

variable {importer : String}

/-- A specifier makes one dependency, or none if it belongs to the story framework. -/
theorem specifier_dependency? {specifier : String} {found : Option Dependency}
    (h : (ends (dependency? settings importer specifier) s).1 = .ok found) :
    found.map (·.specifier) = if Specifier.isFramework specifier then none else some specifier := by
  have hend : ends (dependency? settings importer specifier) s =
      (.ok found, (ends (dependency? settings importer specifier) s).2) := Prod.ext h rfl
  unfold dependency? at hend
  by_cases hframework : Specifier.isFramework specifier = true
  · rw [if_pos hframework] at hend ⊢
    cases congrArg Prod.fst hend
    rfl
  · rw [if_neg hframework] at hend ⊢
    cases hform : Specifier.kind specifier with
    | internal =>
      rw [hform] at hend
      obtain ⟨path, s', -, hlast⟩ := ends.of_bind hend
      cases congrArg Prod.fst hlast
      rfl
    | npm =>
      rw [hform] at hend
      obtain ⟨version, s', -, hlast⟩ := ends.of_bind hend
      cases congrArg Prod.fst hlast
      rfl
    | registryExternal =>
      rw [hform] at hend
      cases congrArg Prod.fst hend
      rfl

/-- The dependencies that specifiers make are what each of them makes, those left out that make none. -/
theorem exists_results {specifiers : List String} {found : List Dependency}
    (h : (ends (dependencies settings importer specifiers) s).1 = .ok found) :
    ∃ results, found = results.filterMap id ∧ List.Forall₂ (fun specifier result =>
      (ends (dependency? settings importer specifier) s).1 = .ok result) specifiers results := by
  have hmake := @steady_dependency? settings (SameLookups settings) _ importer
  have hend : ends (dependencies settings importer specifiers) s =
      (.ok found, (ends (dependencies settings importer specifiers) s).2) := Prod.ext h rfl
  unfold dependencies at hend
  obtain ⟨results, t, hresults, hlast⟩ := ends.of_bind hend
  have hsame := Steady.mapM_ok hmake hresults
  rw [← List.forall₂_eq_eq_eq] at hsame
  exact ⟨results, (Except.ok.inj (congrArg Prod.fst hlast)).symm,
    List.forall₂_map_right_iff.1 (List.forall₂_map_left_iff.1 hsame)⟩

/-- The dependencies that specifiers make stand for those outside the story framework, in their order. -/
theorem specifiers_dependencies {specifiers : List String} {found : List Dependency}
    (h : (ends (dependencies settings importer specifiers) s).1 = .ok found) :
    found.map (·.specifier) = specifiers.filter fun specifier => !Specifier.isFramework specifier := by
  obtain ⟨results, rfl, heach⟩ := exists_results h
  clear h
  induction heach with
  | nil => rfl
  | @cons specifier result _ _ hresult _ ih =>
    have hspecifier := specifier_dependency? hresult
    cases hframework : Specifier.isFramework specifier with
    | true =>
      obtain rfl : result = none := by simpa [hframework] using hspecifier
      simpa [hframework] using ih
    | false =>
      obtain ⟨d, rfl, hd⟩ : ∃ d, result = some d ∧ d.specifier = specifier := by
        simpa [hframework] using hspecifier
      simpa [hframework, hd] using ih

end Import

/-! ## Counts -/

namespace Analysis

/-- The file at a path can be read as a text. -/
def IsReadable (t : FileTree) (path : String) : Prop := ∃ text, t.readText (Path.ofString path) = .ok text

/-- A source file has a size exactly if it can be read. -/
theorem isSome_sourceSize? {source : Option String} {found : Option (Nat × Nat)}
    (h : (ends (sourceSize? Run.text source) s).1 = .ok found) :
    found.isSome = true ↔ ∃ path ∈ source, IsReadable s.tree path := by
  cases source with
  | none =>
    cases h
    simp
  | some path =>
    unfold sourceSize? at h
    rw [ends.bind_of_ok (ends.attempt_eq _ s), Run.text, ends.look_eq] at h
    cases hread : s.tree.readText (Path.ofString path) with
    | ok text =>
      rw [hread] at h
      cases h
      simp [IsReadable, hread]
    | error cause =>
      rw [hread] at h
      dsimp only [Except.mapError] at h
      have hunreadable : ¬∃ p ∈ some path, IsReadable s.tree p := by simp [IsReadable, hread]
      split at h
      · cases h
        simpa using hunreadable
      · cases h

/-- How much a component consists of: two files if its source file can be read, else one. -/
theorem counts_of_measured {f : StoryFile} {source : Option String} {counts : Counts}
    (h : (ends (measured Run.text f source) s).1 = .ok counts) :
    (counts.files = 2 ↔ ∃ path ∈ source, IsReadable s.tree path) ∧
      (counts.files = 1 ↔ ¬∃ path ∈ source, IsReadable s.tree path) ∧
      counts.stories = f.stories.length ∧ counts.dependencies = f.dependencies.length := by
  have hlines := @steady_storyLines SameTree _ Run.text Steady.text f
  obtain ⟨lines, s₁, -, hlike, h⟩ := hlines.of_bind (Prod.ext h rfl)
  obtain ⟨size, s₂, hsize, h⟩ := ends.of_bind h
  have hreadable := isSome_sourceSize? (congrArg Prod.fst hsize)
  rw [IsView.tree_eq hlike] at hreadable
  cases size with
  | none =>
    cases h
    have hunreadable : ¬∃ path ∈ source, IsReadable s.tree path := fun hread =>
      Bool.false_ne_true (hreadable.2 hread)
    exact ⟨iff_of_false (by simp) hunreadable, iff_of_true rfl hunreadable, rfl, rfl⟩
  | some size =>
    cases h
    have hread := hreadable.1 rfl
    exact ⟨iff_of_true rfl hread, iff_of_false (by simp) (not_not_intro hread), rfl, rfl⟩

/-! ## Contents -/

theorem contents_of_filesOf {t : FileTree} {f : StoryFile} {source : Option String}
    {files : List ComponentFile} (h : filesOf t f source = .ok files) :
    files.map (fun file => (file.path, file.role, file.exports)) =
      (f.path, "story", Table.names f.stories) ::
        (source.map fun path => (path, "component", [f.componentName])).toList := by
  unfold filesOf at h
  cases hstory : t.size (Path.ofString f.path) with
  | error e =>
    rw [hstory] at h
    cases h
  | ok size =>
    rw [hstory] at h
    cases source with
    | none =>
      cases h
      rfl
    | some path =>
      dsimp only [bind, Except.bind] at h
      cases hsource : t.size (Path.ofString path) with
      | error e =>
        rw [hsource] at h
        cases h
      | ok size =>
        rw [hsource] at h
        cases h
        rfl

/-- An analysis measures what it lists, with the source file `source` of the component if that was
located. -/
structure Measures (t : FileTree) (f : StoryFile) (source : Option String) (a : Analysis) : Prop where
  /-- The files are the story file, with the stories as its exports, and the source file. -/
  contents : a.files.map (fun file => (file.path, file.role, file.exports)) =
    (f.path, "story", Table.names f.stories) ::
      (source.map fun path => (path, "component", [f.componentName])).toList
  /-- The files are counted, unless the source file cannot be read. -/
  files : a.counts.files = a.files.length ↔ ∀ path ∈ source, IsReadable t path
  /-- A source file that cannot be read is left out of account. -/
  unreadable : (∃ path ∈ source, ¬IsReadable t path) → a.counts.files = 1
  stories : a.counts.stories = a.stories.length
  exported : a.stories.length = (Table.names f.stories).length
  dependencies : a.counts.dependencies = a.dependencies.length
  /-- Each specifier that counts as a dependency makes one, in their order. -/
  specifiers : a.dependencies.map (·.specifier) = f.dependencies

/-- An analysis that succeeds measures what it lists. -/
theorem measures_of_ofStory {f : StoryFile} {a : Analysis}
    (hkept : ∀ specifier ∈ f.dependencies, Specifier.isFramework specifier = false)
    (h : (ends (ofStory settings Run.text f) s).1 = .ok a) :
    ∃ source, sourceFile? s.tree settings f = .ok source ∧ Measures s.tree f source a := by
  have hmeasure := @steady_measured SameTree _ Run.text Steady.text f
  have hlook {α : Type} (look : FileTree → Except FileError α) :
      Steady SameTree (Run.look look) := Steady.look look
  obtain ⟨source, s₁, hsource, hlike₁, h⟩ := (hlook _).of_bind (Prod.ext h rfl)
  obtain ⟨counts, s₂, hcounts, hlike₂, h⟩ := (hmeasure source).of_bind h
  obtain ⟨score, s₃, -, h⟩ := ends.of_bind h
  obtain ⟨found, s₄, hfound, h⟩ := ends.of_bind h
  obtain ⟨files, s₅, hfiles, h⟩ := ends.of_bind h
  cases h
  rw [ends.look_eq, Prod.mk.injEq] at hsource hfiles
  obtain ⟨htwo, hone, hstories, hdependencies⟩ := counts_of_measured (congrArg Prod.fst hcounts)
  have hspecifiers := Import.specifiers_dependencies (congrArg Prod.fst hfound)
  rw [IsView.tree_eq hlike₁] at htwo hone
  rw [List.filter_eq_self.2 fun specifier hs => by simp [hkept specifier hs]] at hspecifiers
  have hcontents := contents_of_filesOf (eq_ok_of_mapError hfiles.1)
  have hlength := congrArg List.length hcontents
  rw [List.length_map, List.length_cons] at hlength
  refine ⟨source, eq_ok_of_mapError hsource.1, hcontents, ?_, ?_, ?_, ?_, ?_, hspecifiers⟩
  · cases source with
    | none => simpa [hlength] using hone
    | some path =>
      have hboth : files.length = 2 := hlength
      simpa [hboth] using htwo
  · rintro ⟨path, hpath, hunreadable⟩
    refine hone.2 ?_
    rintro ⟨other, hother, hread⟩
    exact hunreadable (Option.mem_unique hother hpath ▸ hread)
  · simp [hstories, StoryFile.storyInfos]
  · simp [StoryFile.storyInfos, Table.names]
  · rw [hdependencies, ← hspecifiers, List.length_map]

/-- A story file that was read keeps no specifier of the story framework as a dependency. -/
theorem not_isFramework_of_ofSource {path source : String} {f : StoryFile}
    (hread : StoryFile.ofSource path source = .ok f) {specifier : String}
    (h : specifier ∈ f.dependencies) : Specifier.isFramework specifier = false := by
  rw [(StoryFile.derived_of_ofSource hread).1] at h
  have hkept : Specifier.isFramework specifier = false ∧
      Specifier.isHostRuntime specifier = false := by
    simpa using (List.mem_filter.1 h).2
  exact hkept.1

/-- Story files that were read get an analysis each: that of a failure, or one that measures what it
lists, a source file that cannot be read apart. -/
theorem measures_of_ofStories (settings : Settings) (s : Session) {stories : List StoryFile}
    (hread : ∀ f ∈ stories, ∃ path source, StoryFile.ofSource path source = .ok f) :
    ∃ analyses, (ends (ofStories settings Run.text stories) s).1 = .ok analyses ∧
      List.Forall₂ (fun f a =>
        (∃ e, (ends (ofStory settings Run.text f) s).1 = .error e) ∧ a = .failed f ∨
          ∃ source, sourceFile? s.tree settings f = .ok source ∧ Measures s.tree f source a)
        stories analyses := by
  have hsteady (f : StoryFile) :
      Steady (Import.SameLookups settings) (ofStoryOrFailed settings Run.text f) :=
    steady_ofStoryOrFailed Steady.text f
  obtain ⟨analyses, hanalyses⟩ := Steady.exists_mapM (s := s) hsteady
    fun f (_ : f ∈ stories) => ⟨_, ends_ofStoryOrFailed settings f s⟩
  refine ⟨analyses, hanalyses, ?_⟩
  rw [ofStories_ok (Prod.ext hanalyses rfl), List.forall₂_map_right_iff, List.forall₂_same]
  intro f hf
  obtain ⟨path, source, hsource⟩ := hread f hf
  unfold inSession
  cases hend : (ends (ofStory settings Run.text f) s).1 with
  | error e => exact .inl ⟨⟨e, rfl⟩, rfl⟩
  | ok a => exact .inr (measures_of_ofStory (fun _ => not_isFramework_of_ofSource hsource) hend)

/-! ## A source file that is no text -/

namespace OddSource

/-- The text of a story file with two imports and one story. -/
def story : String :=
  "import \x7bA\x7d from './A';import 'b';export default \x7bcomponent:A\x7d;export const B=\x7b\x7d"

/-- A project with that story file, and with a source file of one byte that begins no character. -/
def session : Session where
  tree := .small [("a.stories.ts", .ofSource story 1), ("A.ts", ⟨[0xff], 1⟩)]

theorem not_isReadable : ¬IsReadable session.tree "/p/A.ts" := by
  rintro ⟨text, hread⟩
  have hnone : (session.tree.readText (Path.ofString "/p/A.ts")).toOption.isNone = true := by
    decide +kernel
  rw [hread] at hnone
  cases hnone

end OddSource

open OddSource in
/-- A source file that is no text is listed, but it is not counted. -/
theorem measures_of_odd_source : ∃ f a, StoryFile.ofSource "/p/a.stories.ts" story = .ok f ∧
    (ends (ofStories (.small false) Run.text [f]) session).1 = .ok [a] ∧
      a.files.map (·.path) = ["/p/a.stories.ts", "/p/A.ts"] ∧ a.counts.files = 1 ∧
      a.counts.stories = 1 ∧ a.dependencies.map (·.specifier) = ["./A", "b"] := by
  have hchecked : (StoryFile.ofSource "/p/a.stories.ts" story).toOption.any (fun f =>
      f.path == "/p/a.stories.ts" && Table.names f.stories == ["B"] && f.dependencies == ["./A", "b"] &&
        (sourceFile? session.tree (.small false) f).toOption == some (some "/p/A.ts") &&
        (ends (ofStory (.small false) Run.text f) session).1.toOption.isSome) = true := by
    decide +kernel
  obtain ⟨f, hf, hpasses⟩ := exists_ok_of_any hchecked
  simp only [Bool.and_eq_true, beq_iff_eq] at hpasses
  obtain ⟨⟨⟨⟨hpath, hnames⟩, hdependencies⟩, hsource⟩, hmade⟩ := hpasses
  have hread : ∀ g ∈ [f], ∃ path source, StoryFile.ofSource path source = .ok g := by
    simpa using ⟨_, _, hf⟩
  obtain ⟨analyses, hanalyses, heach⟩ := measures_of_ofStories (.small false) session hread
  obtain ⟨a, rest, hone, hrest, rfl⟩ := List.forall₂_cons_left_iff.1 heach
  cases hrest
  rcases hone with ⟨⟨e, he⟩, -⟩ | ⟨source, hlocated, hmeasures⟩
  · rw [he] at hmade
    cases hmade
  · rw [hlocated] at hsource
    obtain rfl : source = some "/p/A.ts" := Option.some.inj hsource
    have hfiles := congrArg (List.map Prod.fst) hmeasures.contents
    rw [List.map_map] at hfiles
    refine ⟨f, a, hf, hanalyses, ?_, hmeasures.unreadable ⟨_, rfl, not_isReadable⟩, ?_, ?_⟩
    · rw [← hpath]
      exact hfiles
    · rw [hmeasures.stories, hmeasures.exported, hnames]
      rfl
    · rw [hmeasures.specifiers, hdependencies]

end Analysis

end StoryRegistry
