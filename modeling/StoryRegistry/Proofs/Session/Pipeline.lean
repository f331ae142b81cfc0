import StoryRegistry.Proofs.Session.Looking

/-!
# What a pipeline comes to

A pipeline that succeeds read each story file, and left out those that cannot be read; it gave each
of the others its analysis, and assembled the registry from them. What it read in a file, and found
for it, is what reading and analysing that file alone come to in the session in which the pipeline
starts.
-/

set_option autoImplicit false

namespace StoryRegistry

open Import (SameLookups IsLookup)

variable {settings : Settings} {R : Session → Session → Prop} [IsLookup settings R]

/-! ## Dependency graphs -/

namespace DependencyGraph

/-- Finding the dependencies of a file is steady. -/
theorem steady_dependenciesOf (path : String) :
    Steady R (dependenciesOf settings path) := by
  refine (Steady.text _).attempt.bind fun outcome => ?_
  cases outcome with
  | ok source => exact Import.steady_dependencies path _
  | error e =>
    dsimp only
    cases e.unread? with
    | some cause => exact .throw _
    | none => exact .throw _

/-- Finding the dependencies of a file, or why there are none, is steady. -/
theorem steady_dependenciesOrFailure (path : String) :
    Steady R (dependenciesOrFailure settings path) := by
  refine (steady_dependenciesOf path).attempt.bind fun outcome => ?_
  cases outcome with
  | ok found => exact .pure _
  | error e =>
    cases e with
    | unreadableImports file cause => exact (Steady.tell _ _).bind fun _ => .pure _
    | _ => exact .throw _

/-- Looking at files and at those that they lead to is steady. The induction is on the room that is
left in the graph. -/
theorem steady_visit (following : Bool) (room : Nat) (pending : List String) (b : Building) :
    Steady R (visit settings following room pending b) := by
  induction room generalizing pending b with
  | zero => exact .pure _
  | succ room ih =>
    unfold visit
    split
    · exact .pure _
    · rename_i path rest _
      refine (steady_dependenciesOrFailure path).bind fun result => ?_
      obtain ⟨found, failures⟩ := result
      dsimp only
      cases following with
      | false => exact (Steady.pure _).bind fun next => ih _ _
      | true => exact (Steady.look _).bind fun next => ih _ _

/-- Building a graph is steady. -/
theorem steady_build (following : Bool) (paths : List String) :
    Steady R (build settings following paths) :=
  steady_visit following _ _ _

end DependencyGraph

/-! ## Analyses -/

namespace Analysis

/-- Analysing a component is steady if reading files is. -/
theorem steady_ofStory {reader : Reader} (hreader : ∀ p, Steady R (reader p)) (f : StoryFile) :
    Steady R (ofStory settings reader f) :=
  (Steady.look _).bind fun source => (steady_measured hreader f source).bind fun _ =>
    (Steady.ofExcept _).bind fun _ => (Import.steady_dependencies f.path _).bind fun _ =>
      (Steady.look _).bind fun _ => .pure _

/-- The step that reads each component's analysis, or stands in for it, is steady. -/
theorem steady_ofStoryOrFailed {reader : Reader} (hreader : ∀ p, Steady R (reader p))
    (f : StoryFile) : Steady R (ofStoryOrFailed settings reader f) := by
  refine (steady_ofStory hreader f).attempt.bind fun outcome => ?_
  cases outcome with
  | ok analysis => exact .pure _
  | error e => exact (Steady.tell _ _).bind fun _ => .pure _

/-- The analysis that a story file gets in a session. -/
def inSession (settings : Settings) (s : Session) (f : StoryFile) : Analysis :=
  match (ends (ofStory settings Run.text f) s).1 with
  | .ok analysis => analysis
  | .error _ => .failed f

/-- The analyses that story files get in a session. -/
def allInSession (settings : Settings) (s : Session) (stories : List StoryFile) :
    List (Option Analysis) :=
  stories.map fun f => some (inSession settings s f)

/-- Sessions that know the same give a story file the same analysis. -/
theorem inSession_eq {s s' : Session} (h : SameLookups settings s s') :
    inSession settings s' = inSession settings s := by
  funext f
  unfold inSession
  rw [(steady_ofStory Steady.text f).agrees h]

/-- Every story file gets its analysis. -/
theorem ends_ofStoryOrFailed (settings : Settings) (f : StoryFile) (s : Session) :
    (ends (ofStoryOrFailed settings Run.text f) s).1 = .ok (inSession settings s f) := by
  unfold ofStoryOrFailed inSession
  rw [ends.bind_of_ok (ends.attempt_eq _ s)]
  cases (ends (ofStory settings Run.text f) s).1 <;> rfl

/-- Story files get the analyses that they get one by one in the first session. -/
theorem ofStories_ok {stories : List StoryFile} {analyses : List Analysis}
    {s s' : Session} (h : ends (ofStories settings Run.text stories) s = (.ok analyses, s')) :
    analyses = stories.map (inSession settings s) := by
  have hall := Steady.mapM_ok
    (@steady_ofStoryOrFailed settings (SameLookups settings) _ _ Steady.text) h
  simp only [ends_ofStoryOrFailed] at hall
  have hok : (stories.map (inSession settings s)).map
      (Except.ok : Analysis → Except Failure Analysis) = analyses.map Except.ok := by
    rw [List.map_map]
    exact hall
  exact ((List.map_injective_iff.2 fun _ _ => Except.ok.inj) hok).symm

end Analysis

/-! ## Story files -/

namespace Stories

/-- The path under which a story file is read. -/
def place (t : FileTree) (path : String) : Path := (Path.mk 1 t.here).resolve (Path.ofString path)

/-- What is read at a path as a story file is the text of the file there. -/
theorem read_eq_ok_iff {s : Session} {path : String} {f : StoryFile} :
    (ends (read path) s).1 = .ok f ↔ ∃ source, s.tree.readText (place s.tree path) = .ok source ∧
      StoryFile.ofSource (place s.tree path).toText source = .ok f := by
  have htree : ends Run.tree s = (.ok s.tree, s) := rfl
  unfold read
  rw [ends.bind_of_ok htree, ends.bind_of_ok (ends.attempt_eq _ s), Run.text, ends.look_eq]
  unfold place
  cases s.tree.readText ((Path.mk 1 s.tree.here).resolve (Path.ofString path)) with
  | error cause =>
    constructor
    · intro h
      dsimp only [Except.mapError] at h
      split at h <;> cases h
    · rintro ⟨source, hsource, -⟩
      cases hsource
  | ok source =>
    refine ⟨fun h => ⟨source, rfl, Run.eq_ok_of_ofExcept (Prod.ext h rfl)⟩, ?_⟩
    rintro ⟨_, ⟨⟩, hsource⟩
    dsimp only [Except.mapError]
    rw [hsource]
    rfl

/-- The story file at a path, if it can be read in a session. -/
def inSession? (s : Session) (path : String) : Option StoryFile := (ends (read path) s).1.toOption

/-- A story file that is in a session was read. -/
theorem read_of_inSession? {s : Session} {path : String} {f : StoryFile}
    (h : inSession? s path = some f) : (ends (read path) s).1 = .ok f := by
  unfold inSession? at h
  cases houtcome : (ends (read path) s).1 with
  | ok g =>
    rw [houtcome] at h
    cases h
    rfl
  | error e =>
    rw [houtcome] at h
    cases h

/-- The story files at paths that can be read in a session. -/
def allInSession (s : Session) (paths : List String) : List StoryFile :=
  paths.filterMap (inSession? s)

/-- Sessions with one file tree have the same story files. -/
theorem inSession?_eq {s s' : Session} (h : s'.tree = s.tree) : inSession? s' = inSession? s :=
  funext fun path => congrArg Except.toOption ((@steady_read SameTree _ path).agrees h)

/-- One more story file is added if it can be read. -/
theorem stories_readInto {batch next : Batch} {path : String} {s s' : Session}
    (h : ends (readInto batch path) s = (.ok next, s')) :
    next.stories = batch.stories ++ (inSession? s path).toList := by
  unfold readInto at h
  rw [ends.bind_of_ok (ends.attempt_eq _ s)] at h
  unfold inSession?
  cases hread : (ends (read path) s).1 with
  | ok f =>
    rw [hread] at h
    cases h
    rfl
  | error e =>
    rw [hread] at h
    dsimp only at h
    split at h
    · obtain ⟨-, t, -, hlast⟩ := ends.of_bind h
      cases hlast
      exact (List.append_nil _).symm
    · cases h

/-- The story files that can be read are added in order. The induction is on the paths; reading one
leaves the file tree as it is. -/
theorem stories_foldlM_readInto {paths : List String} {batch final : Batch} {s s' : Session}
    (h : ends (paths.foldlM readInto batch) s = (.ok final, s')) :
    final.stories = batch.stories ++ paths.filterMap (inSession? s) := by
  induction paths generalizing batch s with
  | nil =>
    cases h
    exact (List.append_nil _).symm
  | cons path rest ih =>
    rw [List.foldlM_cons] at h
    obtain ⟨next, t, hfirst, hlike, hrest⟩ :=
      (@steady_readInto SameTree _ batch path).of_bind h
    rw [ih hrest, stories_readInto hfirst, inSession?_eq hlike, List.append_assoc,
      List.filterMap_cons]
    cases inSession? s path <;> rfl

/-- If story files can be read at all, those that can be are. -/
theorem stories_readAll {paths : List String} {batch : Batch} {s s' : Session}
    (h : ends (readAll paths) s = (.ok batch, s')) :
    batch.stories = paths.filterMap (inSession? s) := by
  obtain ⟨final, t, hfold, hrest⟩ := ends.of_bind h
  have hstories := stories_foldlM_readInto hfold
  dsimp only at hrest
  split at hrest
  · cases hrest
  · cases hrest
    exact hstories

end Stories

/-! ## The pipeline -/

namespace Pipeline

/-- Reading the story files of a pipeline is steady. -/
theorem steady_readStories {R : Session → Session → Prop} [IsView R] (paths : List String) :
    Steady R (readStories paths) := by
  refine (Stories.steady_readAll paths).bind fun batch => ?_
  refine Steady.bind (Steady.note fun r => ?_) fun _ => (Steady.tell _ _).bind fun _ => .pure _
  rfl

/-- Searching for cycles is steady. -/
theorem steady_findCycles (stories : List StoryFile) : Steady R (findCycles settings stories) := by
  refine (DependencyGraph.steady_build true _).bind fun building => ?_
  refine Steady.bind (Steady.note fun r => ?_) fun _ =>
    Steady.bind (Steady.forM fun cycle => Steady.tell _ _) fun _ => Steady.note fun r => ?_
  · rfl
  · rfl

/-- Analysing the components is steady. -/
theorem steady_analyse (stories : List StoryFile) : Steady R (analyse settings stories) := by
  refine (Steady.mapM (Analysis.steady_ofStoryOrFailed Steady.text)).bind fun analyses => ?_
  refine Steady.bind (Steady.note fun r => ?_) fun _ => .pure _
  rfl

/-- Assembling the registry is steady. -/
theorem steady_assemble {R : Session → Session → Prop} [IsView R] (settings : Settings)
    (stories : List StoryFile) (analyses : List Analysis) :
    Steady R (assemble settings stories analyses) :=
  (Steady.tellAll _).bind fun _ => (Steady.ofExcept _).bind fun _ => (Steady.tell _ _).bind fun _ =>
    .pure _

/-- Making a registry is steady: it leaves the file tree as it is, and depends on nothing but the
tree and what is known of packages. -/
theorem steady_run (paths : List String) : Steady R (run settings paths) :=
  (steady_readStories paths).bind fun stories => (steady_findCycles stories).bind fun _ =>
    (steady_analyse stories).bind fun analyses =>
      (steady_assemble settings stories analyses).bind fun _ => .pure _

/-- A pipeline that succeeds took the story files that can be read, gave each its analysis, and made
the registry of them. -/
theorem run_ok {paths : List String} {product : Product} {s s' : Session}
    (h : ends (run settings paths) s = (.ok product, s')) :
    product.stories = Stories.allInSession s paths ∧
      product.analyses.map some = Analysis.allInSession settings s product.stories ∧
      (Assembly.registry settings product.stories (product.analyses.map some)).2 =
        .ok product.registry := by
  obtain ⟨stories, s₁, hread, hlike₁, h⟩ :=
    (@steady_readStories (SameLookups settings) _ paths).of_bind h
  obtain ⟨-, s₂, hcycles, hlike₂, h⟩ :=
    (@steady_findCycles settings (SameLookups settings) _ stories).of_bind h
  obtain ⟨analyses, s₃, hanalyse, h⟩ := ends.of_bind h
  obtain ⟨registry, s₄, hassemble, h⟩ := ends.of_bind h
  cases h
  refine ⟨?_, ?_, ?_⟩
  · obtain ⟨batch, t, hbatch, h⟩ := ends.of_bind hread
    obtain ⟨-, t', -, h⟩ := ends.of_bind h
    obtain ⟨-, t'', -, h⟩ := ends.of_bind h
    cases h
    exact Stories.stories_readAll hbatch
  · obtain ⟨found, t, hfound, h⟩ := ends.of_bind hanalyse
    obtain ⟨-, t', -, h⟩ := ends.of_bind h
    cases h
    have hanalyses := Analysis.ofStories_ok hfound
    rw [Analysis.inSession_eq (trans_of _ hlike₁ hlike₂)] at hanalyses
    show analyses.map some = Analysis.allInSession settings s stories
    rw [hanalyses, Analysis.allInSession, List.map_map]
    rfl
  · obtain ⟨-, t, -, h⟩ := ends.of_bind hassemble
    obtain ⟨made, t', hmade, h⟩ := ends.of_bind h
    obtain ⟨-, t'', -, h⟩ := ends.of_bind h
    cases h
    exact Run.eq_ok_of_ofExcept hmade

/-- What becomes of story files, each with the analysis that it gets in a session. -/
def outcomesIn (settings : Settings) (s : Session) (stories : List StoryFile) :
    List (StoryFile × Assembly.Outcome) :=
  Assembly.outcomes settings [] stories (Analysis.allInSession settings s stories)

/-- The registry of story files, each with the analysis that it gets in a session. -/
def registryIn (settings : Settings) (s : Session) (stories : List StoryFile) :
    Except Failure Registry :=
  (Assembly.registry settings stories (Analysis.allInSession settings s stories)).2

/-- The registry that a pipeline makes in a session is that of the story files and analyses in any
session that knows the same. -/
theorem registry_of_run {paths : List String} {product : Product} {s s₁ s' : Session}
    (hlike : SameLookups settings s s₁) (h : ends (run settings paths) s₁ = (.ok product, s')) :
    product.stories = Stories.allInSession s paths ∧
      registryIn settings s product.stories = .ok product.registry := by
  obtain ⟨hstories, hanalyses, hregistry⟩ := run_ok h
  rw [hanalyses] at hregistry
  unfold registryIn
  unfold Stories.allInSession Analysis.allInSession at *
  rw [Stories.inSession?_eq hlike.1] at hstories
  rw [Analysis.inSession_eq hlike] at hregistry
  exact ⟨hstories, hregistry⟩

end Pipeline

end StoryRegistry
