import StoryRegistry.Proofs.Session.Apart
import StoryRegistry.Proofs.Session.Incremental
import StoryRegistry.Session.Inspection

/-!
# Runs one after another

Runs that keep a registry in step, exports and inspections of one project write nothing but into the
folders of their registries, and make these folders and those above them. So a pipeline for which no
path is looked at that leads into one of these folders, or through one that had to be made, comes to
the same registry, whatever was done before.

* What is written goes onward from the session before it (`Call.leaves_run`), and so do calls in a row
  (`Call.onward_after`).
* A call that returns a registry made it of the story files in the session in which it starts
  (`Call.registry_of_run`), and the pipeline sees of that session what it saw of the first one
  (`Pipeline.registryIn_of_onward`).
-/

set_option autoImplicit false

namespace StoryRegistry

open FileTree (FilledIn Plans)
open Import (SameLookups)

variable {settings : Settings} {outputs : List Path}

/-! ## What goes onward -/

namespace Run

/-- A step that only looks things up goes onward. -/
theorem onward_of_steady {α : Type} {x : Run α} (h : Steady (SameLookups settings) x) :
    Leaves (Onward settings outputs) x :=
  h.leaves.mono fun _ _ => Onward.of_sameLookups

/-- A change of the file tree that fills the outputs goes onward. -/
theorem onward_change {α : Type} {c : Change α} (h : Leaves (FilledIn outputs) c) :
    Leaves (Onward settings outputs) (change c) := by
  intro s
  rw [ends_change]
  exact .of_filledIn (h s.tree) rfl

/-- A step goes onward if its failure is given as a result. -/
theorem onward_attempt {α : Type} {x : Run α} (h : Leaves (Onward settings outputs) x) :
    Leaves (Onward settings outputs) (attempt x) :=
  (Leaves.bind h fun a => Leaves.pure (Except.ok a)).tryCatch fun e => Leaves.pure (Except.error e)

/-- Noting something goes onward. -/
theorem onward_note (f : Report → Report) : Leaves (Onward settings outputs) (note f) :=
  fun _ => .of_sameLookups (.of_sameMemo ⟨rfl, rfl⟩)

end Run

namespace Output

variable {folder : Path}

/-- Writing a value into a file inside the outputs goes onward, if the folder above it is planned. -/
theorem onward_writeJson (hfolder : Plans outputs folder) {name : String} (hname : Path.IsPlain name)
    (hinside : ∀ t : FileTree, t.Inside outputs (t.placeOf (folder.child name))) (v : Value) :
    Leaves (Onward settings outputs) (writeJson (folder.child name) v) := by
  unfold writeJson
  rw [Path.parent_child hname]
  exact (Run.onward_change (Change.filledIn_folders hfolder)).bind fun _ =>
    (Leaves.when _ (Leaves.throw _)).bind fun _ =>
      Run.onward_change (Change.filledIn_writeText hinside _)

/-- Writing a registry to an output goes onward. -/
theorem onward_writeRegistry (ho : folder ∈ outputs) (r : Registry) :
    Leaves (Onward settings outputs) (writeRegistry folder r) :=
  (onward_writeJson (FileTree.plans_of_mem ho) isPlain_registryFileName
    (FileTree.inside_child ho isPlain_registryFileName) _).bind fun _ =>
      Run.onward_of_steady (.tell _ _)

/-- Writing items to an output goes onward. -/
theorem onward_writeItems (ho : folder ∈ outputs) {items : List Item}
    (hnames : ∀ i ∈ items, Schema.isItemName i.name = true) :
    Leaves (Onward settings outputs) (writeItems folder items) := by
  refine Leaves.bind (Leaves.forM fun i hi => ?_) fun _ => Run.onward_of_steady (.tell _ _)
  have hname : Path.IsPlain (i.name ++ ".json") :=
    Schema.isPlain_of_isItemName (hnames i hi) (by decide)
  exact onward_writeJson (FileTree.plans_of_mem ho) hname (FileTree.inside_child ho hname) _

/-- Writing a page into the folder of the pages in an output goes onward. -/
theorem onward_writePage (ho : folder ∈ outputs) (f : StoryFile) {i : Item}
    (hname : Schema.isItemName i.name = true) :
    Leaves (Onward settings outputs) (writePage (folder.child pagesFolder) f i) := by
  have hinside (t : FileTree) : t.Inside outputs (t.placeOf (folder.child pagesFolder)) :=
    FileTree.inside_child ho isPlain_pagesFolder t
  have hplans : Plans outputs (folder.child pagesFolder) :=
    (FileTree.plans_of_mem ho).child isPlain_pagesFolder hinside
  have htext : Path.IsPlain (i.name ++ ".md") := Schema.isPlain_of_isItemName hname (by decide)
  have hdata : Path.IsPlain (i.name ++ ".examples.json") :=
    Schema.isPlain_of_isItemName hname (by decide)
  exact (Run.onward_of_steady (.ofExcept _)).bind fun _ =>
    (Run.onward_change (Change.filledIn_folders hplans)).bind fun _ =>
      (Run.onward_change (Change.filledIn_writeText (fun t => (hinside t).child htext) _)).bind fun _ =>
        onward_writeJson hplans hdata (fun t => (hinside t).child hdata) _

/-- Writing pages to an output goes onward. -/
theorem onward_writePages (ho : folder ∈ outputs) (stories : List StoryFile) {items : List Item}
    (hnames : ∀ i ∈ items, Schema.isItemName i.name = true) :
    Leaves (Onward settings outputs) (writePages folder stories items) := by
  refine Leaves.bind (Leaves.forM fun entry hentry => ?_) fun _ => Run.onward_of_steady (.tell _ _)
  obtain ⟨f, -, hsome⟩ := List.mem_filterMap.1 hentry
  obtain ⟨i, hi, rfl⟩ := Option.map_eq_some_iff.1 hsome
  exact onward_writePage ho f (hnames i (mem_of_itemOf? hi))

end Output

/-- The items of a registry that a pipeline made have the names of items. -/
theorem Pipeline.isItemName_of_run {paths : List String} {product : Pipeline.Product}
    {s s' : Session} (h : ends (Pipeline.run settings paths) s = (.ok product, s')) :
    ∀ i ∈ product.registry.items, Schema.isItemName i.name = true := fun i hi =>
  ((Assembly.names_of_registry (Pipeline.registry_of_run (refl_of _ s) h).2).2 i hi).1

namespace Sync

variable {options : Options}

/-- Publishing the registry that a pipeline made goes onward. -/
theorem onward_publish (ho : settings.registryPath ∈ outputs) {product : Pipeline.Product}
    (hnames : ∀ i ∈ product.registry.items, Schema.isItemName i.name = true) :
    Leaves (Onward settings outputs) (publish settings options product) :=
  (Output.onward_writeRegistry ho _).bind fun _ =>
    (Leaves.when _ (Output.onward_writeItems ho hnames)).bind fun _ =>
      (Leaves.when _ (Output.onward_writePages ho _ hnames)).bind fun _ =>
        Leaves.when _ (Run.onward_of_steady (Output.steady_checkWritten _))

/-- Making and publishing a registry goes onward. -/
theorem onward_produce (ho : settings.registryPath ∈ outputs) (paths : List String) :
    Leaves (Onward settings outputs) (produce settings options paths) := by
  refine (Run.onward_of_steady (Pipeline.steady_run paths)).bind_of_ok fun s product s' hmade => ?_
  exact ((onward_publish ho (Pipeline.isItemName_of_run hmade)).bind fun _ => Leaves.pure _) s'

/-- Reporting what a run came to goes onward. -/
theorem onward_conclude (outcome : Except Failure Registry) :
    Leaves (Onward settings outputs) (conclude outcome) := by
  cases outcome with
  | ok r =>
    refine (Run.onward_note _).bind fun _ => Leaves.bind (fun s => refl_of _ s) fun s => ?_
    exact Run.onward_of_steady (.tell _ _)
  | error e =>
    exact (Leaves.when _ (Leaves.throw e)).bind fun _ =>
      (Run.onward_of_steady (.tell _ _)).bind fun _ => Run.onward_note _

/-- A run goes onward. -/
theorem onward_run (ho : settings.registryPath ∈ outputs) :
    Leaves (Onward settings outputs) (run settings options) := by
  refine (Run.onward_note _).bind fun _ =>
    (Run.onward_of_steady (steady_storyFiles settings options)).bind fun paths => ?_
  refine Leaves.bind ?_ fun _ => Leaves.bind (fun s => refl_of _ s) fun s => Leaves.pure _
  unfold update
  split
  · exact (Run.onward_of_steady (.tell _ _)).bind fun _ => Run.onward_note _
  · refine (Run.onward_of_steady (.tell _ _)).bind fun _ => Leaves.bind ?_ onward_conclude
    exact Run.onward_attempt (onward_produce ho paths)

end Sync

namespace Export

variable {options : Options}

/-- Making the registry that is exported goes onward. -/
theorem steady_produce (paths : List String) :
    Steady (SameLookups settings) (produce settings paths) := by
  refine (Pipeline.steady_run paths).attempt.bind fun outcome => ?_
  cases outcome with
  | ok product => exact .pure _
  | error e =>
    dsimp only
    split
    · exact .throw _
    · exact .throw _

/-- Writing a registry to an output goes onward. -/
theorem onward_write {folder : Path} (ho : folder ∈ outputs) {r : Registry}
    (hnames : ∀ i ∈ r.items, Schema.isItemName i.name = true) (format : Format) :
    Leaves (Onward settings outputs) (write folder r format) := by
  cases format with
  | registry =>
    exact (Output.onward_writeRegistry ho r).bind fun _ => Run.onward_of_steady (.tell _ _)
  | individual =>
    exact (Output.onward_writeItems ho hnames).bind fun _ => Run.onward_of_steady (.tell _ _)

/-- An export goes onward. -/
theorem onward_run (ho : options.output.getD settings.registryPath ∈ outputs) :
    Leaves (Onward settings outputs) (run settings options) := by
  refine (Run.onward_note _).bind fun _ =>
    (Run.onward_of_steady (Discovery.steady_storyFiles settings)).bind fun paths => ?_
  refine (Run.onward_of_steady (steady_produce paths)).bind_of_ok fun s product s' hmade => ?_
  have hnames := Pipeline.isItemName_of_run (produce_eq_ok hmade)
  exact ((onward_write ho hnames _).bind fun _ =>
    (Leaves.when _ (Output.onward_writePages ho _ hnames)).bind fun _ =>
      (Run.onward_note _).bind fun _ => Leaves.bind (fun s => refl_of _ s) fun s => Leaves.pure _) s'

end Export

namespace Inspection

/-- An inspection goes onward. -/
theorem onward_issues (ho : settings.registryPath ∈ outputs) :
    Leaves (Onward settings outputs) (issues settings) := by
  have habsence (severity : Severity) (words : String) (p : Path) :
      Steady (SameLookups settings) (absence severity words p) := by
    refine (Steady.look _).bind fun there => ?_
    cases there <;> exact .pure _
  have hplaces : Steady (SameLookups settings) (placeIssues settings) :=
    (habsence _ _ _).bind fun _ => (habsence _ _ _).bind fun _ => (habsence _ _ _).bind fun _ =>
      .pure _
  have hformat (path : String) : Steady (SameLookups settings) (formatIssues path) := by
    refine Steady.bind ?_ fun looks => ?_
    · refine (Steady.text _).attempt.bind fun outcome => ?_
      cases outcome with
      | ok source => exact .pure _
      | error e =>
        dsimp only
        split
        · exact .pure _
        · exact .throw _
    · cases looks <;> exact .pure _
  have houtput : Leaves (Onward settings outputs) (outputIssue settings) := by
    refine (Run.onward_attempt
      (Run.onward_change (Change.filledIn_folders (FileTree.plans_of_mem ho)))).bind fun outcome => ?_
    split
    · exact Leaves.pure _
    · split
      · exact Leaves.pure _
      · exact Leaves.throw _
  exact (Run.onward_of_steady hplaces).bind fun _ =>
    (Run.onward_of_steady (Discovery.steady_storyFiles settings)).bind fun _ =>
      (Run.onward_of_steady (Steady.mapM hformat)).bind fun _ => houtput.bind fun _ => Leaves.pure _

end Inspection

/-! ## Calls -/

/-- A call of an orchestrator. -/
inductive Call where
  /-- Keeps the registry in step with all story files. -/
  | sync (validated withPages : Option Bool)
  /-- Exports the registry. -/
  | exporting (options : Export.Options)
  /-- Inspects the project. -/
  | inspect

namespace Call

/-- The folder to which a call writes. -/
def folder (settings : Settings) : Call → Path
  | exporting options => options.output.getD settings.registryPath
  | _ => settings.registryPath

/-- The registry that a call returns, if it returns one. -/
def run (settings : Settings) : Call → Run (Option Registry)
  | sync validated withPages => Report.registry <$> Sync.run settings { validated, withPages }
  | exporting options => Report.registry <$> Export.run settings options
  | inspect => (fun _ => none) <$> Inspection.issues settings

/-- The session in which calls one after another leave an orchestrator, whatever each comes to. -/
def after (settings : Settings) (calls : List Call) (s : Session) : Session :=
  calls.foldl (fun s call => (ends (call.run settings) s).2) s

variable {call : Call} {calls : List Call} {s s' : Session}

/-- A call goes onward. -/
theorem onward_run (ho : call.folder settings ∈ outputs) :
    Leaves (Onward settings outputs) (call.run settings) := by
  cases call with
  | sync validated withPages => exact (Sync.onward_run ho).bind fun _ => Leaves.pure _
  | exporting options => exact (Export.onward_run ho).bind fun _ => Leaves.pure _
  | inspect => exact (Inspection.onward_issues ho).bind fun _ => Leaves.pure _

/-- Calls one after another go onward. The induction is on the calls; each starts in the session in
which the ones before it left the orchestrator. -/
theorem onward_after (ho : ∀ call ∈ calls, call.folder settings ∈ outputs) (s : Session) :
    Onward settings outputs s (after settings calls s) := by
  induction calls generalizing s with
  | nil => exact refl_of _ s
  | cons call rest ih =>
    exact trans_of _ (onward_run (ho call List.mem_cons_self) s)
      (ih (fun other hother => ho other (List.mem_cons_of_mem _ hother)) _)

/-- A call that returns a registry made it of the story files. -/
theorem registry_of_run {r : Registry} (h : ends (call.run settings) s = (.ok (some r), s')) :
    ∃ paths, (ends (Discovery.storyFiles settings) s).1 = .ok paths ∧
      Pipeline.registryIn settings s (Stories.allInSession s paths) = .ok r := by
  cases call with
  | sync validated withPages =>
    obtain ⟨report, hrun, hreport⟩ := ends.of_map h
    obtain ⟨paths, product, s₁, s₂, -, hpaths, hlike, hmade, rfl, -⟩ := Sync.run_ok hrun hreport
    obtain ⟨hstories, hregistry⟩ := Pipeline.registry_of_run hlike hmade
    rw [hstories] at hregistry
    rw [Sync.storyFiles_of_none rfl] at hpaths
    exact ⟨paths, hpaths, hregistry⟩
  | exporting options =>
    obtain ⟨report, hrun, hreport⟩ := ends.of_map h
    obtain ⟨paths, s₁, product, s₂, hpaths, hlike, hmade, hmaking, -⟩ := Export.run_ok hrun
    obtain ⟨hstories, hregistry⟩ := Pipeline.registry_of_run hlike hmade
    obtain rfl : product.registry = r := Option.some.inj (hmaking.symm.trans hreport)
    rw [hstories] at hregistry
    exact ⟨paths, hpaths, hregistry⟩
  | inspect =>
    obtain ⟨issues, -, hnone⟩ := ends.of_map h
    cases hnone

/-- The registry that a call returns after others is that of the session in which the first of them
starts, if what the pipeline looks at is clear of what they write. -/
theorem registry_of_after {r : Registry} (hproper : s.tree.IsProper)
    (ho : ∀ call ∈ calls, call.folder settings ∈ outputs)
    (hclear : ∀ p ∈ Pipeline.looked settings (after settings calls s), s.tree.Clear outputs p)
    (h : ends (call.run settings) (after settings calls s) = (.ok (some r), s')) :
    ∃ paths, (ends (Discovery.storyFiles settings) s).1 = .ok paths ∧
      Pipeline.registryIn settings s (Stories.allInSession s paths) = .ok r := by
  obtain ⟨paths, hpaths, hregistry⟩ := registry_of_run h
  obtain ⟨hfound, hsame⟩ :=
    Pipeline.registryIn_of_onward (onward_after ho s) hproper hclear hpaths
  exact ⟨paths, hfound, hsame.symm.trans hregistry⟩

/-- Two calls return the same registry if they return one, whatever calls were made before each of them
from one session on, if the pipeline looks at no path that leads into a folder to which one of these
writes, or through a folder that had to be made for it. -/
theorem same_registry_of_after {before before' : List Call} {call call' : Call} {s t t' : Session}
    {r r' : Registry} (hproper : s.tree.IsProper)
    (hclear : ∀ p ∈ Pipeline.looked settings (after settings before s),
      s.tree.Clear ((before ++ before').map (folder settings)) p)
    (hclear' : ∀ p ∈ Pipeline.looked settings (after settings before' s),
      s.tree.Clear ((before ++ before').map (folder settings)) p)
    (h : ends (call.run settings) (after settings before s) = (.ok (some r), t))
    (h' : ends (call'.run settings) (after settings before' s) = (.ok (some r'), t')) :
    r = r' := by
  obtain ⟨paths, hpaths, hregistry⟩ := registry_of_after hproper
    (fun other hother => List.mem_map_of_mem (List.mem_append_left _ hother)) hclear h
  obtain ⟨paths', hpaths', hregistry'⟩ := registry_of_after hproper
    (fun other hother => List.mem_map_of_mem (List.mem_append_right _ hother)) hclear' h'
  obtain rfl : paths = paths' := Except.ok.inj (hpaths.symm.trans hpaths')
  exact Except.ok.inj (hregistry.symm.trans hregistry')

end Call

/-! ## A project whose story files are found by way of a folder that is made -/

namespace Export

/-- An export that makes a registry and can write it returns it, where only the registry is asked for.
-/
theorem exists_report {options : Options} {paths : List String} {product : Pipeline.Product}
    {s : Session} (hfound : (ends (Discovery.storyFiles settings) s).1 = .ok paths)
    (hmade : (ends (Pipeline.run settings paths) s).1 = .ok product)
    (hformat : options.format = .registry) (hoff : options.withPages = false)
    (htakes : s.tree.takes (Output.registryFile (options.output.getD settings.registryPath)) = true)
    (hwritable : Output.canWrite product.registry.document = true) :
    ∃ report s', ends (run settings options) s = (.ok report, s') ∧
      report.registry = some product.registry := by
  have hstart : ends (Run.note fun _ => {}) s = (.ok ⟨⟩, { s with report := {} }) := rfl
  have hlike : SameLookups settings s { s with report := {} } := .of_sameMemo ⟨rfl, rfl⟩
  obtain ⟨s₁, hpaths, hlike₁⟩ := (Discovery.steady_storyFiles settings).exists_ok hlike hfound
  obtain ⟨s₂, hproduct, hlike₂⟩ := (Pipeline.steady_run paths).exists_ok hlike₁ hmade
  have hproduced : ends (produce settings paths) s₁ = (.ok product, s₂) := by
    unfold produce
    rw [ends.bind_of_ok (ends.attempt_eq _ s₁), hproduct]
    rfl
  rw [← hlike₂.1] at htakes
  obtain ⟨s₃, hregistry, -⟩ := Output.exists_writeRegistry htakes hwritable
  obtain ⟨s₄, hwritten⟩ : ∃ t, ends (write (options.output.getD settings.registryPath)
      product.registry options.format) s₂ = (.ok (), t) := by
    rw [hformat]
    unfold write
    rw [ends.bind_of_ok hregistry]
    exact ⟨_, rfl⟩
  have hskipped (step : Run Unit) : ends (Run.when false step) s₄ = (.ok (), s₄) := rfl
  have hnoted (change : Report → Report) :
      ends (Run.note change) s₄ = (.ok ⟨⟩, { s₄ with report := change s₄.report }) := rfl
  unfold run
  rw [hoff]
  dsimp only
  rw [ends.bind_of_ok hstart, ends.bind_of_ok hpaths, ends.bind_of_ok hproduced,
    ends.bind_of_ok hwritten, ends.bind_of_ok (hskipped _), ends.bind_of_ok (hnoted _)]
  exact ⟨_, _, rfl, rfl⟩

end Export

namespace Detour

open Call (after)

/-- The settings of a project that finds its story files by a pattern and keeps its registry in a folder
inside another one. -/
def ofPattern (pattern : String) : Settings :=
  { Settings.small false with
    storiesPatterns := [pattern]
    registryPath := ⟨1, ["p", "out", "registry"]⟩ }

/-- The project with one story file, before a folder for its registry is made. -/
def start : Session where
  tree :=
    { here := ["p"]
      clock := 1
      folders := [["p"], ["r"]]
      files := [(["p", "b.ts"], Stored.ofSource "export default {component:B}" 1)] }

/-- An export to a folder that is there. -/
def elsewhere : Call := .exporting { output := some ⟨1, ["r"]⟩ }

/-- The export returns the registry of the story files that are found, if it can be written. -/
theorem exists_export {pattern : String} {s : Session} {paths names : List String}
    (hfound : ((ends (Discovery.storyFiles (ofPattern pattern)) s).1.toOption.any (· == paths)) = true)
    (hmade : ((ends (Pipeline.run (ofPattern pattern) paths) s).1.toOption.any
      (OneChanged.lists names)) = true)
    (htakes : s.tree.takes (Output.registryFile ⟨1, ["r"]⟩) = true) :
    ∃ r s', ends (elsewhere.run (ofPattern pattern)) s = (.ok (some r), s') ∧
      r.items.map Item.name = names := by
  obtain ⟨product, hproduct, hlists⟩ := exists_ok_of_any hmade
  obtain ⟨hwritable, hnames⟩ := Bool.and_eq_true_iff.1 hlists
  obtain ⟨report, s', hrun, hreport⟩ := @Export.exists_report (ofPattern pattern)
    { output := some ⟨1, ["r"]⟩ } _ _ _ (eq_ok_of_any hfound) hproduct rfl rfl htakes hwritable
  refine ⟨product.registry, s', ?_, beq_iff_eq.1 hnames⟩
  show ends (Report.registry <$> Export.run _ _) s = _
  rw [← bind_pure_comp, ends.bind_of_ok hrun, ends.pure_eq, hreport]

end Detour

open Detour Call in
/-- Two exports of a project return the same registry, though the folder for its own registry was made
before one of them alone. -/
theorem same_registry_after_inspection : ∃ r t t',
    ends (elsewhere.run (ofPattern "*.ts")) start = (.ok (some r), t) ∧
      ends (elsewhere.run (ofPattern "*.ts")) (after (ofPattern "*.ts") [inspect] start) =
        (.ok (some r), t') ∧
      r.items.map Item.name = ["b"] := by
  obtain ⟨r, t, hrun, hnames⟩ := @exists_export "*.ts" start ["/p/b.ts"] ["b"]
    (by decide +kernel) (by decide +kernel) (by decide +kernel)
  obtain ⟨r', t', hrun', -⟩ := @exists_export "*.ts" (after (ofPattern "*.ts") [inspect] start)
    ["/p/b.ts"] ["b"] (by decide +kernel) (by decide +kernel) (by decide +kernel)
  obtain rfl : r = r' := @same_registry_of_after (ofPattern "*.ts") [] [inspect] elsewhere elsewhere
    start t t' r r' ⟨by decide, by decide, by decide⟩ (by decide +kernel) (by decide +kernel) hrun
    hrun'
  exact ⟨r, t, t', hrun, hrun', hnames⟩

open Detour Call in
/-- It is not enough that no path that is looked at lies in a folder to which calls write: a path may
lead through a folder that is made for one of these, and to nothing before that. -/
theorem not_same_registry_of_outside :
    ¬∀ (settings : Settings) (before before' : List Call) (call call' : Call) (s t t' : Session)
      (r r' : Registry), s.tree.IsProper →
      (∀ p ∈ Pipeline.looked settings (after settings before s),
        ∀ o ∈ (call :: call' :: before ++ before').map (folder settings),
          ¬s.tree.placeOf o <+: s.tree.placeOf p) →
      (∀ p ∈ Pipeline.looked settings (after settings before' s),
        ∀ o ∈ (call :: call' :: before ++ before').map (folder settings),
          ¬s.tree.placeOf o <+: s.tree.placeOf p) →
      ends (call.run settings) (after settings before s) = (.ok (some r), t) →
      ends (call'.run settings) (after settings before' s) = (.ok (some r'), t') → r = r' := by
  intro hsame
  obtain ⟨r, t, hrun, hnames⟩ := @exists_export "out/../*.ts" start [] []
    (by decide +kernel) (by decide +kernel) (by decide +kernel)
  obtain ⟨r', t', hrun', hnames'⟩ := @exists_export "out/../*.ts"
    (after (ofPattern "out/../*.ts") [inspect] start) ["/p/b.ts"] ["b"]
    (by decide +kernel) (by decide +kernel) (by decide +kernel)
  have heq := hsame (ofPattern "out/../*.ts") [] [inspect] elsewhere elsewhere start t t' r r'
    ⟨by decide, by decide, by decide⟩ (by decide +kernel) (by decide +kernel) hrun hrun'
  rw [← heq, hnames] at hnames'
  exact absurd hnames' (by decide)

end StoryRegistry
