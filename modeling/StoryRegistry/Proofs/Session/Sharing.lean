import StoryRegistry.Proofs.Session.Pipeline
import StoryRegistry.Proofs.Session.Progress

/-!
# Sharing what is remembered of packages

The analysers of a project remember the version of each package that they have looked up. Whatever
they were asked before, and whether or not it failed, each story file gets the analysis that it gets
by itself from analysers that remember nothing.

* A version is that in the nearest manifest (`Import.installed_eq_some_iff`), in every session that
  remembers nothing or what was looked up there (`Inquiry.sameLookups_after`).
* So the analyses of story files are those that each gets alone, in their order
  (`Analysis.ofStories_after`).
-/

set_option autoImplicit false

namespace StoryRegistry

open Import (SameLookups)

variable {settings : Settings} {s : Session}

/-! ## The nearest manifest -/

namespace Import

/-- The manifest of a package in the folder to which the first `n` segments of a path lead. -/
def manifestAt (root : Path) (package : String) (n : Nat) : Path :=
  (((Path.mk root.slashes (root.segments.take n)).child "node_modules").child package).child
    "package.json"

/-- The manifest of a package is in the folder to which the first `n` segments of a path lead, and in
none of those below on the way to the path. -/
structure IsNearest (t : FileTree) (root : Path) (package : String) (n : Nat) : Prop where
  le_length : n ≤ root.segments.length
  isFile : t.isFile (manifestAt root package n) = .ok true
  none_below : ∀ m, n < m → m ≤ root.segments.length →
    t.isFile (manifestAt root package m) = .ok false

/-- A manifest names a version: it can be read as a map in which the version is a text. -/
def NamesVersion (t : FileTree) (manifest : Path) (version : String) : Prop :=
  ∃ text entries, t.readText manifest = .ok text ∧ Value.ofJson text = .ok (.map entries) ∧
    Table.get? "version" entries = some (.string version)

theorem manifests_eq (root : Path) (package : String) :
    manifests root package =
      (List.range (root.segments.length + 1)).reverse.map (manifestAt root package) := by
  have hroot : manifestAt root package root.segments.length =
      ((root.child "node_modules").child package).child "package.json" := by
    rw [manifestAt, List.take_length]
  rw [List.range_succ, List.reverse_append, List.reverse_singleton, List.singleton_append,
    List.map_cons, hroot, manifests, List.map_cons, Path.ancestors, List.map_map]
  rfl

/-- The first manifest of several that are tried from the root on upwards is the nearest one. The
induction is on how many are tried: those below have been found missing. -/
theorem isNearest_of_firstManifest? {t : FileTree} {root : Path} {package : String} {count : Nat}
    {found : Option Path} (hcount : count ≤ root.segments.length + 1)
    (hbelow : ∀ m, count ≤ m → m ≤ root.segments.length →
      t.isFile (manifestAt root package m) = .ok false)
    (h : firstManifest? t ((List.range count).reverse.map (manifestAt root package)) = .ok found) :
    (∃ n, found = some (manifestAt root package n) ∧ IsNearest t root package n) ∨
      (found = none ∧ ∀ m, m ≤ root.segments.length →
        t.isFile (manifestAt root package m) = .ok false) := by
  induction count with
  | zero =>
    cases h
    exact .inr ⟨rfl, fun m hm => hbelow m (Nat.zero_le m) hm⟩
  | succ n ih =>
    rw [List.range_succ, List.reverse_append, List.reverse_singleton, List.singleton_append,
      List.map_cons, firstManifest?] at h
    cases hthere : t.isFile (manifestAt root package n) with
    | error e =>
      rw [hthere] at h
      cases h
    | ok there =>
      rw [hthere] at h
      cases there with
      | true =>
        cases h
        refine .inl ⟨n, rfl, by omega, hthere, ?_⟩
        intro m hlt hle
        exact hbelow m hlt hle
      | false =>
        apply ih (by omega) _ h
        intro m hge hle
        rcases Nat.eq_or_lt_of_le hge with rfl | hlt
        · exact hthere
        · exact hbelow m hlt hle

/-- There is one nearest manifest at most. -/
theorem IsNearest.unique {t : FileTree} {root : Path} {package : String} {n m : Nat}
    (h : IsNearest t root package n) (h' : IsNearest t root package m) : n = m := by
  rcases Nat.lt_trichotomy n m with hlt | heq | hgt
  · have hmissing := h.none_below m hlt h'.le_length
    rw [h'.isFile] at hmissing
    cases hmissing
  · exact heq
  · have hmissing := h'.none_below n hgt h.le_length
    rw [h.isFile] at hmissing
    cases hmissing

theorem versionIn?_eq_some_iff {manifest : Value} {v : String} :
    versionIn? manifest = some v ↔
      ∃ entries, manifest = .map entries ∧ Table.get? "version" entries = some (.string v) := by
  cases manifest with
  | map entries =>
    simp only [versionIn?, Value.entry, Value.map.injEq, exists_eq_left']
    cases Table.get? "version" entries with
    | none => simp [Value.asString?]
    | some found => cases found <;> simp [Value.asString?]
  | _ => simp [versionIn?]

/-- The version in a manifest is the one that it names. -/
theorem readVersion_eq_some_iff {p : Path} {version : Option String}
    (h : (ends (readVersion p) s).1 = .ok version) (v : String) :
    version = some v ↔ NamesVersion s.tree p v := by
  unfold readVersion at h
  rw [ends.bind_of_ok (ends.attempt_eq _ s), Run.text, ends.look_eq] at h
  unfold NamesVersion
  cases hread : s.tree.readText p with
  | error cause =>
    rw [hread] at h
    dsimp only [Except.mapError] at h
    split at h
    · cases h
      simp
    · cases h
  | ok text =>
    rw [hread] at h
    dsimp only [Except.mapError] at h
    cases hjson : Value.ofJson text with
    | error problem =>
      rw [hjson] at h
      cases h
      simp [hjson]
    | ok manifest =>
      rw [hjson] at h
      cases h
      simp [hjson, versionIn?_eq_some_iff]

/-- The version of a package that is looked up is the one that the nearest manifest names. -/
theorem installed_eq_some_iff {package : String} {version : Option String}
    (h : (ends (installed settings package) s).1 = .ok version) (v : String) :
    version = some v ↔ ∃ n, IsNearest s.tree settings.root package n ∧
      NamesVersion s.tree (manifestAt settings.root package n) v := by
  have hlook := ends.look_eq (fun t => firstManifest? t (manifests settings.root package)) s
  unfold installed at h
  cases hfirst : firstManifest? s.tree (manifests settings.root package) with
  | error e =>
    rw [hfirst] at hlook
    rw [ends.bind_of_error hlook] at h
    cases h
  | ok found =>
    rw [hfirst] at hlook
    rw [ends.bind_of_ok hlook] at h
    rw [manifests_eq] at hfirst
    rcases isNearest_of_firstManifest? le_rfl (by omega) hfirst with ⟨n, rfl, hn⟩ | ⟨rfl, hnone⟩
    · rw [readVersion_eq_some_iff h]
      constructor
      · exact fun hnames => ⟨n, hn, hnames⟩
      · rintro ⟨m, hm, hnames⟩
        rwa [hn.unique hm]
    · cases h
      constructor
      · exact nofun
      · rintro ⟨m, hm, -⟩
        have hmissing := hnone m hm.le_length
        rw [hm.isFile] at hmissing
        cases hmissing

end Import

/-! ## Inquiries -/

/-- The session in which nothing is remembered of packages. -/
def Session.fresh (s : Session) : Session := { s with versions := [] }

/-- What analysers can be asked. -/
inductive Inquiry where
  /-- What a specifier in a file refers to. -/
  | dependency (importer specifier : String)
  /-- What the specifiers in a file refer to. -/
  | dependencies (importer : String) (specifiers : List String)
  /-- What the imports of the file at a path refer to. -/
  | fileDependencies (path : String)
  /-- The dependency graph of files, and of those they lead to if `following`. -/
  | graph (following : Bool) (paths : List String)
  /-- The analysis of a story file. -/
  | analysis (f : StoryFile)
  /-- The analyses of story files. -/
  | analyses (stories : List StoryFile)

namespace Inquiry

/-- Asks the analysers of a session; the answer does not matter here. -/
def run (settings : Settings) : Inquiry → Run Unit
  | dependency importer specifier => do let _ ← Import.dependency? settings importer specifier
  | dependencies importer specifiers => do let _ ← Import.dependencies settings importer specifiers
  | fileDependencies path => do let _ ← DependencyGraph.dependenciesOf settings path
  | graph following paths => do let _ ← DependencyGraph.build settings following paths
  | analysis f => do let _ ← Analysis.ofStory settings Run.text f
  | analyses stories => do let _ ← Analysis.ofStories settings Run.text stories

/-- The session that inquiries one after another leave, whatever each comes to. -/
def after (settings : Settings) (inquiries : List Inquiry) (s : Session) : Session :=
  inquiries.foldl (fun s inquiry => (ends (inquiry.run settings) s).2) s

/-- An inquiry changes nothing that is known. -/
theorem steady_run (inquiry : Inquiry) : Steady (SameLookups settings) (inquiry.run settings) := by
  cases inquiry with
  | dependency importer specifier =>
    exact (Import.steady_dependency? importer specifier).bind fun _ => .pure _
  | dependencies importer specifiers =>
    exact (Import.steady_dependencies importer specifiers).bind fun _ => .pure _
  | fileDependencies path => exact (DependencyGraph.steady_dependenciesOf path).bind fun _ => .pure _
  | graph following paths =>
    exact (DependencyGraph.steady_build following paths).bind fun _ => .pure _
  | analysis f => exact (Analysis.steady_ofStory Steady.text f).bind fun _ => .pure _
  | analyses stories =>
    exact (Steady.mapM (Analysis.steady_ofStoryOrFailed Steady.text)).bind fun _ => .pure _

/-- Inquiries one after another change nothing that is known. The induction is on the inquiries; each
is made in the session that those before it leave. -/
theorem sameLookups_after (inquiries : List Inquiry) (s : Session) :
    SameLookups settings s (after settings inquiries s) := by
  induction inquiries generalizing s with
  | nil => exact refl_of _ s
  | cons inquiry rest ih => exact trans_of _ ((steady_run inquiry).leaves s) (ih _)

end Inquiry

/-! ## Analyses -/

namespace Import

/-- A session that remembers nothing knows what looking a package up comes to. -/
theorem known_fresh (package : String) :
    known settings s.fresh package = (ends (installed settings package) s).1 :=
  installed_eq settings package rfl

end Import

namespace Analysis

/-- The dependencies of an analysis are those that the specifiers in the story file make. -/
theorem dependencies_of_ofStory {f : StoryFile} {a : Analysis}
    (h : (ends (ofStory settings Run.text f) s).1 = .ok a) :
    (ends (Import.dependencies settings f.path f.dependencies) s).1 = .ok a.dependencies := by
  have hmeasure := @steady_measured (SameLookups settings) _ Run.text Steady.text f
  have hlook {α : Type} (look : FileTree → Except FileError α) :
      Steady (SameLookups settings) (Run.look look) := Steady.look look
  obtain ⟨source, s₁, -, hlike₁, h⟩ := (hlook _).of_bind (Prod.ext h rfl)
  obtain ⟨counts, s₂, -, hlike₂, h⟩ := (hmeasure source).of_bind h
  have hscore : Steady (SameLookups settings) (Run.ofExcept counts.score) := Steady.ofExcept _
  obtain ⟨score, s₃, -, hlike₃, h⟩ := hscore.of_bind h
  obtain ⟨found, s₄, hfound, h⟩ := ends.of_bind h
  obtain ⟨files, s₅, -, h⟩ := ends.of_bind h
  cases h
  rw [← (Import.steady_dependencies f.path f.dependencies).agrees
    (trans_of _ hlike₁ (trans_of _ hlike₂ hlike₃)), hfound]

/-- Whatever analysers were asked before, each story file gets the analysis that analysers which
remember nothing give it by itself: its own one, or that of a failure if analysing it fails. The
version of a package in it is the one that the nearest manifest names. -/
theorem ofStories_after (settings : Settings) (s : Session) (inquiries : List Inquiry)
    (stories : List StoryFile) : ∃ analyses,
      (ends (ofStories settings Run.text stories) (Inquiry.after settings inquiries s.fresh)).1 =
          .ok analyses ∧
        List.Forall₂ (fun f a =>
          (ends (ofStories settings Run.text [f]) s.fresh).1 = .ok [a] ∧
          ((ends (ofStory settings Run.text f) s.fresh).1 = .ok a ∨
            (∃ e, (ends (ofStory settings Run.text f) s.fresh).1 = .error e) ∧ a = .failed f) ∧
          ∀ d ∈ a.dependencies, d.kind = .npm → ∀ v, d.version = some v ↔
            ∃ n, Import.IsNearest s.tree settings.root (Specifier.package d.specifier) n ∧
              Import.NamesVersion s.tree
                (Import.manifestAt settings.root (Specifier.package d.specifier) n) v)
          stories analyses := by
  have hsteady (f : StoryFile) :
      Steady (SameLookups settings) (ofStoryOrFailed settings Run.text f) :=
    steady_ofStoryOrFailed Steady.text f
  have hlike := @Inquiry.sameLookups_after settings inquiries s.fresh
  have hmade (stories : List StoryFile) (t : Session) (ht : SameLookups settings s.fresh t) :
      (ends (ofStories settings Run.text stories) t).1 =
        .ok (stories.map (inSession settings s.fresh)) := by
    obtain ⟨analyses, hanalyses⟩ := Steady.exists_mapM (s := t) hsteady
      fun f (_ : f ∈ stories) => ⟨_, ends_ofStoryOrFailed settings f t⟩
    have heach := ofStories_ok (Prod.ext hanalyses rfl)
    rw [inSession_eq ht] at heach
    rw [ofStories, hanalyses, heach]
  refine ⟨_, hmade stories _ hlike, ?_⟩
  rw [List.forall₂_map_right_iff, List.forall₂_same]
  intro f hf
  refine ⟨hmade [f] s.fresh (refl_of _ _), ?_⟩
  unfold inSession
  cases hend : (ends (ofStory settings Run.text f) s.fresh).1 with
  | error e => exact ⟨.inr ⟨⟨e, rfl⟩, rfl⟩, fun d hd => absurd hd List.not_mem_nil⟩
  | ok a =>
    refine ⟨.inl rfl, fun d hd hkind v => ?_⟩
    obtain ⟨specifier, hmade⟩ := Import.exists_specifier (dependencies_of_ofStory hend) hd
    have hknown := (Import.of_dependency? hmade).2 hkind
    rw [Import.known_fresh] at hknown
    exact Import.installed_eq_some_iff hknown v

/-! ## A project with two folders of packages -/

namespace TwoFolders

/-- The text of a manifest that names a version. -/
def manifest (version : String) : Stored := .ofSource ("\x7b\"version\": " ++ version ++ "\x7d") 1

/-- A project with the manifest of a package in its own folder of packages, which names no text as the
version, and with that and another one in the folder above. -/
def session : Session where
  tree :=
    { FileTree.small [] with
      folders := [["p"], ["p", "node_modules"], ["p", "node_modules", "a"], ["node_modules"],
        ["node_modules", "a"], ["node_modules", "@b"], ["node_modules", "@b", "c"]]
      files :=
        [(["p", "node_modules", "a", "package.json"], manifest "4"),
          (["node_modules", "a", "package.json"], manifest "\"1\""),
          (["node_modules", "@b", "c", "package.json"], manifest "\"2\"")] }

/-- A story file that imports both packages. -/
def story : StoryFile :=
  { path := "/p/a.ts", metadata := {}, stories := [], imports := ["@b/c/d", "a"]
    componentName := "A", componentPath := "", dependencies := ["@b/c/d", "a"] }

/-- Questions of which the first one fails, as its specifier is too long for a path. -/
def asked : List Inquiry :=
  [.dependency "/p/a.ts" (String.ofList ('.' :: '/' :: List.replicate 256 'a')),
    .dependencies "/p/b.ts" ["a"], .graph true ["/p/b.ts"]]

/-- What the story file depends on. -/
def found : List Dependency :=
  [{ specifier := "@b/c/d", kind := .npm, version := some "2" }, { specifier := "a", kind := .npm }]

end TwoFolders

open TwoFolders in
/-- After other questions the story file gets the analysis that it gets by itself: one package has the
version in the folder above, and the other one has none, as the nearer manifest names none. -/
theorem ofStories_after_failure : ∃ a,
    (ends (ofStories (.small false) Run.text [story])
        (Inquiry.after (.small false) asked session.fresh)).1 = .ok [a] ∧
      (ends (ofStories (.small false) Run.text [story]) session.fresh).1 = .ok [a] ∧
      a.dependencies = found ∧
      ∃ n, Import.IsNearest session.tree ⟨1, ["p"]⟩ "@b/c" n ∧
        Import.NamesVersion session.tree (Import.manifestAt ⟨1, ["p"]⟩ "@b/c" n) "2" := by
  obtain ⟨analyses, hshared, halone⟩ := ofStories_after (.small false) session asked [story]
  obtain ⟨a, rest, ⟨hfresh, hown, hversions⟩, hrest, rfl⟩ := List.forall₂_cons_left_iff.1 halone
  cases hrest
  have hchecked : ((ends (ofStory (.small false) Run.text story) session.fresh).1.toOption.any
      fun a => a.dependencies == found) = true := by decide +kernel
  obtain ⟨b, hb, hfound⟩ := exists_ok_of_any hchecked
  rw [hb] at hown
  obtain rfl : b = a := by
    rcases hown with h | ⟨⟨e, h⟩, -⟩
    · exact Except.ok.inj h
    · cases h
  have hdependencies := beq_iff_eq.1 hfound
  refine ⟨b, hshared, hfresh, hdependencies, ?_⟩
  have hmem : { specifier := "@b/c/d", kind := .npm, version := some "2" } ∈ b.dependencies := by
    rw [hdependencies]
    exact List.mem_cons_self
  exact (hversions _ hmem rfl "2").1 rfl

end Analysis

end StoryRegistry
