import StoryRegistry.Proofs.Session.Batch
import StoryRegistry.Proofs.Session.Incremental
import StoryRegistry.Proofs.Session.Keeping

/-!
# What becomes of each story file

Every story file that a run takes is accounted for (`Sync.accounted_of_run`): it has its item in the
report, names no component, is reported by an error, or else the assembly left it out, and then a warning
in the log names it. That warning may be all there is (`not_reported_of_reserved_name`).

* A file that cannot be read is among the failures of the batch (`Stories.failures_readAll`).
* Each of the others comes to an outcome, under names that were taken by the files before it
  (`Assembly.exists_outcome`).
* What is noted and told on the way is still there at the end (`Session.Extends`).
-/

set_option autoImplicit false

namespace StoryRegistry

open Import (SameLookups)
open Session (Tells Extends)

/-! ## Lines of the log -/

/-- The line was told between the sessions. -/
def Told (s s' : Session) (line : LogLine) : Prop := ∃ told, s'.log = s.log ++ told ∧ line ∈ told

/-- What was told in between was told between earlier and later sessions. -/
theorem Told.mono {s s₁ s₂ s' : Session} {line : LogLine} (h : Told s₁ s₂ line)
    (hbefore : s.log <+: s₁.log) (hafter : s₂.log <+: s'.log) : Told s s' line := by
  obtain ⟨before, hbefore⟩ := hbefore
  obtain ⟨after, hafter⟩ := hafter
  obtain ⟨told, heq, hline⟩ := h
  refine ⟨before ++ told ++ after, ?_, by simp [hline]⟩
  rw [← hafter, heq, ← hbefore, List.append_assoc, List.append_assoc, List.append_assoc]

namespace Pipeline

variable {settings : Settings} {paths : List String} {s s' : Session}

/-- The failures of story files that cannot be read are noted, each with the path of its file. -/
theorem errors_readStories {stories : List StoryFile}
    (h : ends (readStories paths) s = (.ok stories, s')) {path : String} (hpath : path ∈ paths)
    {e : Failure} (hread : (ends (Stories.read path) s).1 = .error e) :
    e ∈ s'.report.errors ∧ e.file? = some (Stories.shownPath s.tree path) := by
  obtain ⟨batch, t, hbatch, h⟩ := ends.of_bind h
  obtain ⟨⟨⟩, t', hnoted, h⟩ := ends.of_bind h
  obtain ⟨⟨⟩, t'', htold, h⟩ := ends.of_bind h
  cases hnoted
  cases htold
  cases h
  obtain ⟨hfailures, hown⟩ := Stories.failures_readAll hbatch
  refine ⟨List.mem_append_right _ (List.mem_map.2 ⟨(path, e), ?_, rfl⟩),
    Stories.file?_of_read hread (hown path hpath e hread)⟩
  rw [hfailures]
  refine List.mem_filterMap.2 ⟨path, hpath, ?_⟩
  unfold Stories.failure?
  rw [hread]

/-- What goes with the registry is told when it is assembled. -/
theorem told_of_assemble {stories : List StoryFile} {analyses : List Analysis} {registry : Registry}
    (h : ends (assemble settings stories analyses) s = (.ok registry, s')) {line : LogLine}
    (hline : line ∈ (Assembly.registry settings stories (analyses.map some)).1) : Told s s' line := by
  obtain ⟨⟨⟩, t, htold, h⟩ := ends.of_bind h
  have hbetween : Told s t line := by
    cases htold
    exact ⟨_, rfl, hline⟩
  have hlater := (Leaves.bind (Run.tells_ofExcept _) fun _ =>
    (Run.tells_tell _ _).bind fun _ => .pure _).of_ends h
  exact hbetween.mono (List.prefix_refl _) hlater.log

/-- A pipeline that succeeds noted why story files cannot be read, and told what became of the others. -/
theorem noted_of_run {product : Product} (h : ends (run settings paths) s = (.ok product, s')) :
    (∀ path ∈ paths, ∀ e, (ends (Stories.read path) s).1 = .error e →
      e ∈ s'.report.errors ∧ e.file? = some (Stories.shownPath s.tree path)) ∧
    ∀ line ∈ (Assembly.registry settings product.stories (product.analyses.map some)).1,
      Told s s' line := by
  obtain ⟨stories, s₁, hread, h⟩ := ends.of_bind h
  obtain ⟨⟨⟩, s₂, hcycles, h⟩ := ends.of_bind h
  obtain ⟨analyses, s₃, hanalyse, h⟩ := ends.of_bind h
  obtain ⟨registry, s₄, hassemble, h⟩ := ends.of_bind h
  cases h
  have hearlier : Extends s₁ s₃ := trans_of Extends
    ((extends_findCycles settings stories).of_ends hcycles)
    ((extends_analyse settings stories).of_ends hanalyse)
  have hlater := ((tells_assemble settings stories analyses).of_ends hassemble).extends
  constructor
  · intro path hpath e he
    obtain ⟨hnoted, hfile⟩ := errors_readStories hread hpath he
    exact ⟨(trans_of Extends hearlier hlater).errors.subset hnoted, hfile⟩
  · intro line hline
    have hbefore := trans_of Extends ((extends_readStories paths).of_ends hread) hearlier
    exact (told_of_assemble hassemble hline).mono hbefore.log (List.prefix_refl _)

/-- The item that a story file gives with the analysis that it gets in a session. -/
def itemIn (settings : Settings) (s : Session) (f : StoryFile) : Except Failure (Option Item) :=
  Assembly.item settings f (some (Analysis.inSession settings s f))

end Pipeline

/-! ## Accounts -/

/-- The report lists an item of that name, with the same document. -/
def Report.Lists (r : Report) (i : Item) : Prop :=
  ∃ j ∈ r.items, j.name = i.name ∧ j.document = i.document

open Pipeline (itemIn)
open Stories (read shownPath)

/-- What became of the story file at a path in a run over the files at some paths: between the sessions
the run told its lines, and came to the report. -/
inductive Accounted (settings : Settings) (paths : List String) (s s' : Session) (report : Report)
    (path : String) : Prop
  /-- The file cannot be read as a story file, and an error reports it. -/
  | reported {e : Failure} (hread : (ends (read path) s).1 = .error e)
      (hnoted : e ∈ report.errors) (hfile : e.file? = some (shownPath s.tree path))
  /-- The meta has no reference to a component. -/
  | unnamed {f : StoryFile} (hread : (ends (read path) s).1 = .ok f)
      (hnone : f.metadata.component.isNull = true)
  /-- The item of the file is in the report. -/
  | listed {f : StoryFile} {i : Item} (hread : (ends (read path) s).1 = .ok f)
      (hitem : itemIn settings s f = .ok (some i)) (hlisted : report.Lists i)
  /-- The item is refused, and a warning tells why. -/
  | refused {f : StoryFile} {cause : Failure} (hread : (ends (read path) s).1 = .ok f)
      (hitem : itemIn settings s f = .error cause) (hverdict : cause.isVerdict = true)
      (hfile : cause.file? = some (shownPath s.tree path))
      (htold : Told s s' ⟨.warning, "Failed to generate registry item for " ++
        shownPath s.tree path ++ ": " ++ cause.message ++ " (" ++ "; ".intercalate cause.issues ++ ")"⟩)
  /-- The item's name is that of another file's item, and a warning tells which. -/
  | taken {f owner : StoryFile} {i j : Item} {other : String}
      (hread : (ends (read path) s).1 = .ok f) (hitem : itemIn settings s f = .ok (some i))
      (hother : other ∈ paths) (howner : (ends (read other) s).1 = .ok owner)
      (hkept : itemIn settings s owner = .ok (some j)) (hname : j.name = i.name)
      (hlisted : report.Lists j)
      (htold : Told s s' ⟨.warning, "Skipping " ++ shownPath s.tree path ++ ": item name '" ++
        i.name ++ "' already generated from " ++ shownPath s.tree other⟩)

/-- A story file that was read is accounted for by the registry that is made of it and the others. -/
theorem accounted_of_registry {settings : Settings} {paths : List String} {s s' : Session}
    {report : Report} {r : Registry}
    (hregistry : Pipeline.registryIn settings s (Stories.allInSession s paths) = .ok r)
    (hreport : report.registry = some r)
    (hpaths : ∀ path ∈ paths, (Stories.place s.tree path).IsNormal)
    (htold : ∀ line ∈ (Assembly.registry settings (Stories.allInSession s paths)
      (Analysis.allInSession settings s (Stories.allInSession s paths))).1, Told s s' line)
    {path : String} (hpath : path ∈ paths) {f : StoryFile} (hread : (ends (read path) s).1 = .ok f) :
    Accounted settings paths s s' report path := by
  have hf : f ∈ Stories.allInSession s paths :=
    List.mem_filterMap.2 ⟨path, hpath, by rw [Stories.inSession?, hread]; rfl⟩
  have hshown := Stories.path_of_read (hpaths path hpath) hread
  have hlists {g : StoryFile} {i : Item}
      (hkept : (g, .kept i) ∈ Pipeline.outcomesIn settings s (Stories.allInSession s paths)) :
      report.Lists i := by
    unfold Report.Lists Report.items
    rw [hreport]
    exact Assembly.exists_item_of_kept hregistry hkept
  have hunbroken := (Assembly.registry_ok hregistry).2
  obtain ⟨taken, hmem, howners⟩ := Assembly.exists_outcome hunbroken hf
  cases hitem : itemIn settings s f with
  | error cause =>
    cases hverdict : cause.isVerdict with
    | true =>
      rw [Assembly.outcome_of_verdict hitem hverdict] at hmem
      have hline := htold _ (Assembly.mem_lines hmem rfl)
      have hfile := Assembly.file?_of_item hitem hverdict
      rw [hshown] at hline hfile
      exact .refused hread hitem hverdict hfile hline
    | false =>
      rw [Assembly.outcome_of_failure hitem hverdict] at hmem
      have hnone : some cause = none := List.findSome?_eq_none_iff.1 hunbroken _ hmem
      cases hnone
  | ok result =>
    cases result with
    | none =>
      have hunnamed := Assembly.componentName_of_item hitem
      exact .unnamed hread ((Stories.componentName_of_read hread).1 hunnamed)
    | some i =>
      cases howner : Table.get? i.name taken with
      | none =>
        rw [Assembly.eq_kept_iff.2 ⟨hitem, Table.get?_eq_none_iff.1 howner⟩] at hmem
        exact .listed hread hitem (hlists hmem)
      | some owner =>
        rw [Assembly.outcome_of_owner hitem howner] at hmem
        have hline := htold _ (Assembly.mem_lines hmem rfl)
        -- no name was taken at first, so that the file that took this one is kept
        obtain hempty | ⟨g, j, hkept, heq⟩ := howners _ (Table.mem_of_get? howner)
        · cases hempty
        obtain ⟨hname, rfl⟩ := Prod.mk.inj heq
        obtain ⟨hg, hitem'⟩ := Assembly.item_of_mem_outcomes hkept
        obtain ⟨other, hother, hsome⟩ := List.mem_filterMap.1 hg
        have hread' := Stories.read_of_inSession? hsome
        rw [hshown, Stories.path_of_read (hpaths other hother) hread'] at hline
        exact .taken hread hitem hother hread' hitem' hname.symm (hlists hkept) hline

namespace Sync

variable {settings : Settings} {options : Options} {s s' : Session}

/-- A run takes files that are found at paths in normal form. -/
theorem normalize_of_mem_storyFiles {paths : List String}
    (h : (ends (storyFiles settings options) s).1 = .ok paths) {path : String} (hpath : path ∈ paths) :
    ∃ p, path = Path.normalize ((Path.mk 1 s.tree.here).resolve p).toText := by
  cases hsince : options.since with
  | none =>
    rw [storyFiles_of_none hsince] at h
    exact Discovery.normalize_of_mem_storyFiles h hpath
  | some since =>
    obtain ⟨found, hfound, rfl⟩ := storyFiles_of_some hsince h
    exact Discovery.normalize_of_mem_storyFiles hfound (List.mem_of_mem_filter hpath)

/-- The session in which a run over the files at some paths starts to make the registry. -/
def started (settings : Settings) (options : Options) (s : Session) (paths : List String) : Session :=
  (ends (Run.tell .info ("Found " ++ toString paths.length ++ " story files"))
    (ends (storyFiles settings options) { s with report := {} }).2).2

theorem tells_started (settings : Settings) (options : Options) (s : Session) (paths : List String) :
    Tells { s with report := {} } (started settings options s paths) :=
  trans_of Tells (tells_storyFiles settings options _) (Run.tells_tell _ _ _)

theorem sameLookups_started (settings : Settings) (options : Options) (s : Session)
    (paths : List String) : SameLookups settings s (started settings options s paths) := by
  have hfresh : SameLookups settings s { s with report := {} } := .of_sameMemo ⟨rfl, rfl⟩
  exact trans_of _ hfresh (trans_of _ ((steady_storyFiles settings options).leaves _)
    ((Steady.tell _ _).leaves _))

/-- A run over story files makes and writes the registry, and reports what the pipeline noted with the
registry, or else what was noted before the registry could not be made or written, with the failure. -/
theorem ended_of_run {paths : List String} {report : Report}
    (h : ends (run settings options) s = (.ok report, s'))
    (hpaths : (ends (storyFiles settings options) s).1 = .ok paths) (hne : paths ≠ []) :
    (∃ product t, ends (Pipeline.run settings paths) (started settings options s paths) =
        (.ok product, t) ∧ t.log <+: s'.log ∧ report = completed t.report product.registry) ∨
      ∃ e t, ends (produce settings options paths) (started settings options s paths) =
        (.error e, t) ∧ e.isReported = true ∧ report =
          { t.report with errors := t.report.errors ++ [e], errorCount := t.report.errorCount + 1 } := by
  have hstart : ends (Run.note fun _ => {}) s = (.ok ⟨⟩, { s with report := {} }) := rfl
  have hlike : SameLookups settings s { s with report := {} } := .of_sameMemo ⟨rfl, rfl⟩
  have hfound : ends (storyFiles settings options) { s with report := {} } = (.ok paths, _) :=
    Prod.ext (((steady_storyFiles settings options).agrees hlike).trans hpaths) rfl
  rw [run, ends.bind_of_ok hstart, ends.bind_of_ok hfound] at h
  obtain ⟨⟨⟩, s₂, hupdate, hlast⟩ := ends.of_bind h
  rw [ends.bind_of_ok (ends.get_eq s₂), ends.pure_eq, Prod.mk.injEq, Except.ok.injEq] at hlast
  obtain ⟨rfl, rfl⟩ := hlast
  unfold update at hupdate
  rw [if_neg (by simpa using hne)] at hupdate
  obtain ⟨⟨⟩, s₁, htold, hrest⟩ := ends.of_bind hupdate
  obtain rfl : started settings options s paths = s₁ := congrArg Prod.snd htold
  rw [ends.bind_of_ok (ends.attempt_eq _ _)] at hrest
  cases hproduced : ends (produce settings options paths) (started settings options s paths) with
  | mk outcome t =>
    rw [hproduced] at hrest
    cases outcome with
    | error e =>
      obtain ⟨⟨⟩, t', hskipped, hrest⟩ := ends.of_bind hrest
      cases hreported : e.isReported with
      | false =>
        rw [hreported] at hskipped
        cases hskipped
      | true =>
        rw [hreported] at hskipped
        cases hskipped
        cases hrest
        exact .inr ⟨e, t, rfl, hreported, rfl⟩
    | ok made =>
      obtain ⟨product, t', hmade, hpublished, rfl⟩ := produce_ok hproduced
      have hlater := (tells_publish settings options product).of_ends hpublished
      cases hrest
      refine .inl ⟨product, t', hmade, hlater.log.trans (List.prefix_append _ _), ?_⟩
      show completed t.report product.registry = _
      rw [hlater.report]

/-- A run over story files that succeeds or makes a registry reports what its pipeline noted, with the
registry, and takes back nothing of what the pipeline told. -/
theorem pipeline_of_run {paths : List String} {report : Report}
    (h : ends (run settings options) s = (.ok report, s'))
    (hdone : report.success = true ∨ report.registry.isSome = true)
    (hpaths : (ends (storyFiles settings options) s).1 = .ok paths) (hne : paths ≠ []) :
    ∃ product t, ends (Pipeline.run settings paths) (started settings options s paths) =
        (.ok product, t) ∧ t.log <+: s'.log ∧ report = completed t.report product.registry := by
  obtain hmade | ⟨e, t, hproduced, -, rfl⟩ := ended_of_run h hpaths hne
  · exact hmade
  · -- neither success nor a registry is reported then
    have houtcome : t.report.outcome = (false, none) := by
      rw [((leaves_produce paths).of_ends hproduced).outcome, (tells_started _ _ _ _).report]
      rfl
    obtain ⟨hfailed, hnone⟩ := Prod.mk.inj houtcome
    dsimp only at hdone
    rw [hfailed, hnone] at hdone
    simp at hdone

/-- Whenever a run succeeds or makes a registry, each story file that it takes has its item in the report,
or has no reference to a component in its meta, or is reported by an error that carries its path, or was
left out when the registry was assembled: its item was refused, or has the name of another file's item,
and then a line of the log names the file with the cause or the other file. -/
theorem accounted_of_run {report : Report} (h : ends (run settings options) s = (.ok report, s'))
    (hdone : report.success = true ∨ report.registry.isSome = true) :
    ∃ paths, (ends (storyFiles settings options) s).1 = .ok paths ∧ ∀ path ∈ paths,
      (path = shownPath s.tree path ∨ path = "/" ++ shownPath s.tree path) ∧
        Accounted settings paths s s' report path := by
  obtain ⟨paths, hpaths, -⟩ := run_cases h
  refine ⟨paths, hpaths, fun path hpath => ?_⟩
  have hplaces : ∀ path ∈ paths, (Stories.place s.tree path).IsNormal ∧
      (path = shownPath s.tree path ∨ path = "/" ++ shownPath s.tree path) := by
    intro path hpath
    obtain ⟨p, hp⟩ := normalize_of_mem_storyFiles hpaths hpath
    exact Stories.place_normalize hp
  refine ⟨(hplaces path hpath).2, ?_⟩
  obtain ⟨product, t, hmade, hafter, rfl⟩ :=
    pipeline_of_run h hdone hpaths (List.ne_nil_of_mem hpath)
  have hknown := sameLookups_started settings options s paths
  obtain ⟨hstories, hregistry⟩ := Pipeline.registry_of_run hknown hmade
  obtain ⟨hnoted, htold⟩ := Pipeline.noted_of_run hmade
  cases hread : (ends (read path) s).1 with
  | error e =>
    have hsame := (@Stories.steady_read SameTree _ path).agrees hknown.1
    obtain ⟨herror, hfile⟩ := hnoted path hpath e (hsame.trans hread)
    rw [hknown.1] at hfile
    exact .reported hread herror hfile
  | ok f =>
    rw [hstories] at hregistry
    refine accounted_of_registry hregistry rfl (fun path hpath => (hplaces path hpath).1)
      (fun line hline => ?_) hpath hread
    obtain ⟨-, hanalyses, -⟩ := Pipeline.run_ok hmade
    unfold Analysis.allInSession at hanalyses hline
    rw [Analysis.inSession_eq hknown, hstories] at hanalyses
    rw [hanalyses, hstories] at htold
    exact (htold line hline).mono (tells_started settings options s paths).log hafter

end Sync

/-! ## A project with a component under the reserved name -/

namespace BesideReserved

/-- The settings of a project that wants nothing but its registry. -/
def settings : Settings := Settings.small false

/-- A project with the story files of two components, one of which goes by the reserved name. -/
def project : Session where
  tree := FileTree.small [("a.ts", Stored.ofSource "export default {component:A}" 1),
    ("b.ts", Stored.ofSource "export default {component:Registry}" 1)]

/-- The paths of the story files. -/
def paths : List String := ["/p/a.ts", "/p/b.ts"]

theorem ends_storyFiles : (ends (Sync.storyFiles settings {}) project).1 = .ok paths := by
  have hfound : ((ends (Sync.storyFiles settings {}) project).1.toOption.any (· == paths)) = true := by
    decide +kernel
  exact eq_ok_of_any hfound

/-- The pipeline makes a registry that has an item and can be written, and notes no error. -/
def succeeds (outcome : Except Failure Pipeline.Product × Session) : Bool :=
  outcome.1.toOption.any (fun product =>
    Output.canWrite product.registry.document && !product.registry.items.isEmpty) &&
      outcome.2.report.errors.isEmpty

/-- A run succeeds and reports no error. -/
theorem exists_run : ∃ report s', ends (Sync.run settings {}) project = (.ok report, s') ∧
    report.success = true ∧ report.errors = [] := by
  have hchecked : succeeds (ends (Pipeline.run settings paths)
      (Sync.started settings {} project paths)) = true := by decide +kernel
  obtain ⟨hmade, hnoted⟩ := Bool.and_eq_true_iff.1 hchecked
  obtain ⟨product, hproduct, hsound⟩ := exists_ok_of_any hmade
  obtain ⟨hwritable, hitems⟩ := Bool.and_eq_true_iff.1 hsound
  have hlike := Sync.sameLookups_started settings {} project paths
  have hthere := ((Pipeline.steady_run paths).agrees hlike).symm.trans hproduct
  have htakes : project.tree.takes (Output.registryFile settings.registryPath) = true := by
    decide +kernel
  obtain ⟨report, s', hend, -, hsuccess, -⟩ := Sync.exists_report (P := fun _ => True)
    ends_storyFiles (by decide) hthere fun t htree => by
      rw [← htree] at htakes
      obtain ⟨t', hend, -⟩ :=
        @Sync.exists_publish_registry settings {} product t rfl rfl rfl htakes hwritable
      exact ⟨t', hend, trivial⟩
  rw [hitems] at hsuccess
  obtain ⟨product', t, hpipeline, -, rfl⟩ :=
    Sync.pipeline_of_run hend (.inl hsuccess) ends_storyFiles (by decide)
  rw [hpipeline] at hnoted
  exact ⟨_, s', hend, hsuccess, List.isEmpty_iff.1 hnoted⟩

/-- The later of the files is about the component under the reserved name. -/
theorem exists_read : ∃ f, (ends (Stories.read "/p/b.ts") project).1 = .ok f ∧
    f.componentName = "Registry" := by
  have hchecked : ((ends (Stories.read "/p/b.ts") project).1.toOption.any fun f =>
      f.componentName == "Registry") = true := by decide +kernel
  obtain ⟨f, hread, hname⟩ := exists_ok_of_any hchecked
  exact ⟨f, hread, beq_iff_eq.1 hname⟩

end BesideReserved

open BesideReserved in
/-- A run that succeeds accounts for both of the files. -/
theorem accounted_beside_reserved_name : ∃ report s',
    ends (Sync.run settings {}) project = (.ok report, s') ∧ report.success = true ∧
      ∀ path ∈ paths, Accounted settings paths project s' report path := by
  obtain ⟨report, s', hend, hsuccess, -⟩ := exists_run
  obtain ⟨found, hfound, hall⟩ := Sync.accounted_of_run hend (.inl hsuccess)
  obtain rfl : found = paths := Except.ok.inj (hfound.symm.trans ends_storyFiles)
  exact ⟨report, s', hend, hsuccess, fun path hpath => (hall path hpath).2⟩

open BesideReserved in
/-- A run that succeeds need not report a file with a component that has no item. -/
theorem not_reported_of_reserved_name :
    ¬∀ (settings : Settings) (options : Sync.Options) (s s' : Session) (report : Report),
      ends (Sync.run settings options) s = (.ok report, s') →
      (report.success = true ∨ report.registry.isSome = true) →
      ∃ paths, (ends (Sync.storyFiles settings options) s).1 = .ok paths ∧ ∀ path ∈ paths,
        (∃ f i, (ends (Stories.read path) s).1 = .ok f ∧
          Pipeline.itemIn settings s f = .ok (some i) ∧ report.Lists i) ∨
        (∃ f, (ends (Stories.read path) s).1 = .ok f ∧ f.metadata.component.isNull = true) ∨
        ∃ e ∈ report.errors, e.file? = some path := by
  intro hall
  obtain ⟨report, s', hend, hsuccess, hnoted⟩ := exists_run
  obtain ⟨found, hfound, haccounted⟩ := hall settings {} project s' report hend (.inl hsuccess)
  obtain rfl : found = paths := Except.ok.inj (hfound.symm.trans ends_storyFiles)
  obtain ⟨f, hread, hname⟩ := exists_read
  rcases haccounted "/p/b.ts" (by decide) with ⟨g, i, hg, hitem, -⟩ | ⟨g, hg, hnone⟩ | ⟨e, he, -⟩
  · obtain rfl : f = g := Except.ok.inj (hread.symm.trans hg)
    have hfree := (Assembly.itemEntries_of_item hitem).1
    rw [hname] at hfree
    exact hfree (by decide)
  · obtain rfl : f = g := Except.ok.inj (hread.symm.trans hg)
    rw [← Stories.componentName_of_read hread, hname] at hnone
    exact absurd hnone (by decide)
  · rw [hnoted] at he
    cases he

end StoryRegistry
