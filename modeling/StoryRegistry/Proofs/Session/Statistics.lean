import StoryRegistry.Proofs.Session.Accounting
import StoryRegistry.Proofs.Session.Reporting
import StoryRegistry.Proofs.Session.Stopping

/-!
# The numbers of a report

The numbers that a run reports add up with what it lists (`Report.AddsUp`), and they do so for every run
that comes to a registry. A run reports that no story file could be read exactly if that is so, and then
nothing else (`Sync.statistics_of_run`).

* A batch holds each file once, as a story file or as a failure (`Stories.length_allInSession_add`).
* Each step of the pipeline adds to the numbers what it notes (`Pipeline.report_of_run`).
* No step but the first can fail for want of story files (`Pipeline.failed_of_run`).
-/

set_option autoImplicit false

namespace StoryRegistry

open Import (SameLookups)
open Session (Tells)

/-! ## Batches -/

namespace Stories

variable {s s' : Session} {paths : List String}

/-- No failure of a story file is one of its imports. -/
theorem not_isOfImports_of_isOwn {e : Failure} (h : isOwn e = true) : ¬ e.isOfImports = true := by
  cases e with
  | unreadableImports => cases h
  | _ => exact Bool.false_ne_true

/-- The failures of the files that cannot be read, in the order of their paths. -/
def failures (s : Session) (paths : List String) : List Failure :=
  (paths.filterMap (failure? s)).map Prod.snd

theorem failures_cons (s : Session) (path : String) (rest : List String) :
    failures s (path :: rest) = ((failure? s path).map Prod.snd).toList ++ failures s rest := by
  unfold failures
  rw [List.filterMap_cons]
  cases failure? s path <;> rfl

theorem allInSession_cons (s : Session) (path : String) (rest : List String) :
    allInSession s (path :: rest) = (inSession? s path).toList ++ allInSession s rest := by
  unfold allInSession
  rw [List.filterMap_cons]
  cases inSession? s path <;> rfl

/-- Each file is read or fails. -/
theorem length_allInSession_add (s : Session) (paths : List String) :
    (allInSession s paths).length + (failures s paths).length = paths.length := by
  induction paths with
  | nil => rfl
  | cons path rest ih =>
    have hone : (inSession? s path).toList.length + ((failure? s path).map Prod.snd).toList.length = 1 := by
      unfold inSession? failure?
      cases (ends (read path) s).1 <;> rfl
    rw [allInSession_cons, failures_cons, List.length_append, List.length_append, List.length_cons]
    omega

theorem failure?_of_error {path : String} {e : Failure} (h : (ends (read path) s).1 = .error e) :
    failure? s path = some (path, e) := by
  unfold failure?
  rw [h]

theorem failures_cons_of_error {path : String} {e : Failure} {rest : List String}
    (h : (ends (read path) s).1 = .error e) : failures s (path :: rest) = e :: failures s rest := by
  rw [failures_cons, failure?_of_error h, Option.map_some, Option.toList_some, List.singleton_append]

/-- A failure is that of a file. -/
theorem exists_of_mem_failures {e : Failure} (h : e ∈ failures s paths) :
    ∃ path ∈ paths, (ends (read path) s).1 = .error e := by
  obtain ⟨⟨path, cause⟩, hmem, rfl⟩ := List.mem_map.1 h
  obtain ⟨other, hother, hfailure⟩ := List.mem_filterMap.1 hmem
  cases hread : (ends (read other) s).1 with
  | ok f =>
    unfold failure? at hfailure
    rw [hread] at hfailure
    cases hfailure
  | error e =>
    rw [failure?_of_error hread] at hfailure
    cases hfailure
    exact ⟨_, hother, hread⟩

/-- Sessions with one file tree have the same files that cannot be read. -/
theorem failures_eq (h : s'.tree = s.tree) : failures s' = failures s := by
  have hread (path : String) : (ends (read path) s').1 = (ends (read path) s).1 :=
    (@steady_read SameTree _ path).agrees h
  have hfailure : failure? s' = failure? s := by
    funext path
    unfold failure?
    rw [hread]
  funext paths
  unfold failures
  rw [hfailure]

/-- The file at each of the paths fails, with a failure of its own that is the one at the same place. -/
def AllFail (s : Session) (paths : List String) (causes : List Failure) : Prop :=
  List.Forall₂ (fun path e => (ends (read path) s).1 = .error e ∧ isOwn e = true) paths causes

/-- If all files fail, there is one failure for each. -/
theorem AllFail.of_forall (h : ∀ path ∈ paths, ∃ e, (ends (read path) s).1 = .error e ∧ isOwn e = true) :
    AllFail s paths (failures s paths) := by
  induction paths with
  | nil => exact .nil
  | cons path rest ih =>
    obtain ⟨e, hread, hown⟩ := h path List.mem_cons_self
    rw [failures_cons_of_error hread]
    exact .cons ⟨hread, hown⟩ (ih fun other hother => h other (List.mem_cons_of_mem _ hother))

theorem AllFail.forall {causes : List Failure} (h : AllFail s paths causes) :
    ∀ path ∈ paths, ∃ e, (ends (read path) s).1 = .error e ∧ isOwn e = true := by
  induction h with
  | nil => exact nofun
  | cons hfirst _ ih =>
    intro path hpath
    rcases List.mem_cons.1 hpath with rfl | hpath
    · exact ⟨_, hfirst⟩
    · exact ih path hpath

theorem AllFail.of_sameTree {causes : List Failure} (h : AllFail s paths causes)
    (htree : s'.tree = s.tree) : AllFail s' paths causes :=
  List.Forall₂.imp (fun path e hfails => by
    rwa [(@steady_read SameTree _ path).agrees htree]) h

/-- There is one list of failures at most. -/
theorem AllFail.eq_failures {causes : List Failure} (h : AllFail s paths causes) :
    causes = failures s paths := by
  induction h with
  | nil => rfl
  | cons hfirst _ ih => rw [failures_cons_of_error hfirst.1, ih]

theorem AllFail.allInSession_eq_nil {causes : List Failure} (h : AllFail s paths causes) :
    allInSession s paths = [] := by
  refine List.filterMap_eq_nil_iff.2 fun path hpath => ?_
  obtain ⟨e, hread, -⟩ := h.forall path hpath
  rw [inSession?, hread]
  rfl

/-- Where all files fail, that is what reading them comes to. -/
theorem ends_readAll_of_allFail {causes : List Failure} (h : AllFail s paths causes) (hne : paths ≠ []) :
    (ends (readAll paths) s).1 = .error (.noStoryRead causes) := by
  have hsettles : ∀ path ∈ paths, Settles s path := by
    intro path hpath
    obtain ⟨e, hread, hown⟩ := h.forall path hpath
    unfold Settles
    rw [hread]
    exact .leftOut hown
  obtain ⟨batch, hbatch⟩ := Steady.exists_foldlM (@steady_readInto SameTree _)
    (fun path hpath batch => exists_readInto (hsettles path hpath) batch) {}
  have hend : ends (paths.foldlM readInto {}) s = (.ok batch, (ends (paths.foldlM readInto {}) s).2) :=
    Prod.ext hbatch rfl
  have hstories : batch.stories = [] :=
    (stories_foldlM_readInto hend).trans h.allInSession_eq_nil
  have hfailures : batch.failures.map Prod.snd = causes := by
    rw [(failures_foldlM_readInto hend).1, h.eq_failures]
    rfl
  have hsome : batch.failures ≠ [] := by
    rintro hnone
    rw [hnone] at hfailures
    have hlength := List.Forall₂.length_eq h
    rw [← hfailures] at hlength
    exact hne (List.length_eq_zero_iff.1 hlength)
  unfold readAll
  rw [ends.bind_of_ok hend]
  dsimp only
  rw [hstories, if_pos (by simpa using hsome), hfailures]
  rfl

/-- A story file does not fail for want of story files. -/
theorem read_ne_noStoryRead (s : Session) (path : String) (causes : List Failure) :
    (ends (read path) s).1 ≠ .error (.noStoryRead causes) := by
  intro h
  have htree : ends Run.tree s = (.ok s.tree, s) := rfl
  unfold read at h
  rw [ends.bind_of_ok htree, ends.bind_of_ok (ends.attempt_eq _ s), Run.text, ends.look_eq] at h
  cases hsource : s.tree.readText ((Path.mk 1 s.tree.here).resolve (Path.ofString path)) with
  | ok source =>
    rw [hsource] at h
    have hfile := Run.eq_error_of_ofExcept h
    unfold StoryFile.ofSource StoryFile.ofOutline at hfile
    grind
  | error cause =>
    rw [hsource] at h
    dsimp only [Except.mapError] at h
    split at h <;> cases h

/-- Reading story files fails for want of them only if each of them fails. -/
theorem allFail_of_readAll {causes : List Failure}
    (h : (ends (readAll paths) s).1 = .error (.noStoryRead causes)) : AllFail s paths causes := by
  have hstep (batch : Batch) (path : String) :
      FailsWith (fun e => ∀ causes, e ≠ .noStoryRead causes) (readInto batch path) := by
    intro t e he causes hcause
    unfold readInto at he
    rw [ends.bind_of_ok (ends.attempt_eq _ t)] at he
    cases hread : (ends (read path) t).1 with
    | ok f =>
      rw [hread] at he
      cases he
    | error cause =>
      rw [hread] at he
      dsimp only at he
      split at he
      · cases he
      · cases he
        rw [hcause] at hread
        exact read_ne_noStoryRead t path causes hread
  rcases ends.error_of_bind h with hfold | ⟨batch, t, hfold, hrest⟩
  · exact absurd rfl (FailsWith.foldlM hstep {} s _ hfold causes)
  · dsimp only at hrest
    split at hrest
    · rename_i hnone
      cases hrest
      have hstories : allInSession s paths = [] :=
        (stories_foldlM_readInto hfold).symm.trans (List.isEmpty_iff.1 (Bool.and_eq_true_iff.1 hnone).1)
      obtain ⟨hfailures, hown⟩ := failures_foldlM_readInto hfold
      have hcauses : batch.failures.map Prod.snd = failures s paths := by
        rw [hfailures]
        rfl
      rw [hcauses]
      refine .of_forall fun path hpath => ?_
      have hunread : inSession? s path = none := List.filterMap_eq_nil_iff.1 hstories path hpath
      cases hread : (ends (read path) s).1 with
      | ok f =>
        rw [inSession?, hread] at hunread
        cases hunread
      | error e => exact ⟨e, rfl, hown path hpath e hread⟩
    · cases hrest

end Stories

/-! ## What the steps of a pipeline note -/

/-- Files whose dependencies cannot be found are noted only if their imports cannot be read. -/
theorem DependencyGraph.isOfImports_of_build {settings : Settings} {following : Bool}
    {paths : List String} {building : Building} {s s' : Session}
    (h : ends (build settings following paths) s = (.ok building, s')) :
    ∀ failure ∈ building.failures, failure.2.isOfImports = true := by
  intro failure hmem
  rcases ends_build settings following s paths with ⟨all, -, -, hnone, hend⟩ | ⟨path, e, -, -, hend⟩
  · rw [h] at hend
    cases hend
    obtain ⟨path, hpath, hnoted⟩ := List.mem_flatMap.1 hmem
    cases hanalysis : analysis settings s path with
    | ok found =>
      rw [hanalysis] at hnoted
      cases hnoted
    | error e =>
      rw [hanalysis] at hnoted
      obtain rfl := List.mem_singleton.1 hnoted
      exact Bool.eq_true_of_not_eq_false fun hother => hnone path hpath e ⟨hanalysis, hother⟩
  · rw [h] at hend
    cases hend

namespace Pipeline

variable {settings : Settings} {paths : List String} {stories : List StoryFile}
  {analyses : List Analysis} {s t : Session}

theorem report_of_readStories (h : ends (readStories paths) s = (.ok stories, t)) :
    stories = Stories.allInSession s paths ∧
      (∀ e ∈ Stories.failures s paths, Stories.isOwn e = true) ∧
      t.report = { s.report with
        processed := stories.length
        errorCount := s.report.errorCount + (Stories.failures s paths).length
        errors := s.report.errors ++ Stories.failures s paths } := by
  obtain ⟨batch, t₁, hbatch, h⟩ := ends.of_bind h
  obtain ⟨⟨⟩, t₂, hnoted, h⟩ := ends.of_bind h
  obtain ⟨⟨⟩, t₃, htold, h⟩ := ends.of_bind h
  cases hnoted
  cases htold
  cases h
  obtain ⟨hfailures, hown⟩ := Stories.failures_readAll hbatch
  have hsame := ((Stories.tells_readAll paths).of_ends hbatch).report
  refine ⟨Stories.stories_readAll hbatch, fun e he => ?_, ?_⟩
  · obtain ⟨path, hpath, hread⟩ := Stories.exists_of_mem_failures he
    exact hown path hpath e hread
  · unfold Stories.failures
    rw [← hfailures, List.length_map, ← hsame]

theorem report_of_findCycles (h : ends (findCycles settings stories) s = (.ok ⟨⟩, t)) :
    ∃ failures cycles, (∀ e ∈ failures, e.isOfImports = true) ∧
      t.report = { s.report with
        warningCount := s.report.warningCount + failures.length + cycles.length
        errors := s.report.errors ++ failures
        cycles := cycles } := by
  obtain ⟨building, t₁, hbuilt, h₁⟩ := ends.of_bind h
  obtain ⟨⟨⟩, t₂, hnoted, h₂⟩ := ends.of_bind h₁
  obtain ⟨⟨⟩, t₃, htold, hlast⟩ := ends.of_bind h₂
  have hbefore := ((DependencyGraph.tells_visit settings true _ _ _).of_ends hbuilt).report
  have hbetween := ((Leaves.forM fun cycle _ => Run.tells_tell _ _).of_ends htold).report
  cases hnoted
  cases hlast
  refine ⟨building.failures.map Prod.snd, building.graph.cycles, fun e he => ?_, ?_⟩
  · obtain ⟨failure, hmem, rfl⟩ := List.mem_map.1 he
    exact DependencyGraph.isOfImports_of_build hbuilt failure hmem
  · dsimp only
    rw [hbetween, List.length_map, ← hbefore]

theorem report_of_analyse (h : ends (analyse settings stories) s = (.ok analyses, t)) :
    analyses = stories.map (Analysis.inSession settings s) ∧
      t.report = { s.report with
        warningCount := s.report.warningCount + issueCount .warning analyses
        errorCount := s.report.errorCount + issueCount .error analyses } := by
  obtain ⟨found, t₁, hfound, h⟩ := ends.of_bind h
  obtain ⟨⟨⟩, t₂, hnoted, h⟩ := ends.of_bind h
  cases hnoted
  cases h
  have hsame := ((Leaves.mapM (Analysis.tells_ofStoryOrFailed settings)).of_ends hfound).report
  exact ⟨Analysis.ofStories_ok hfound, by rw [← hsame]⟩

/-- A pipeline that succeeds notes the failures of the story files, in their order, and after them those
of files whose imports cannot be read; its numbers are what was noted, with the cycles and the issues of
the analyses. -/
theorem report_of_run {product : Product} (h : ends (run settings paths) s = (.ok product, t))
    (hfresh : s.report = {}) :
    product.stories = Stories.allInSession s paths ∧
      product.analyses = product.stories.map (Analysis.inSession settings s) ∧
      (∀ e ∈ Stories.failures s paths, Stories.isOwn e = true) ∧
      ∃ others cycles, (∀ e ∈ others, e.isOfImports = true) ∧ t.report =
        { processed := product.stories.length
          errorCount := (Stories.failures s paths).length + issueCount .error product.analyses
          warningCount := others.length + cycles.length + issueCount .warning product.analyses
          errors := Stories.failures s paths ++ others
          cycles := cycles } := by
  obtain ⟨stories, s₁, hread, h₁⟩ := ends.of_bind h
  obtain ⟨⟨⟩, s₂, hcycles, h₂⟩ := ends.of_bind h₁
  obtain ⟨analyses, s₃, hanalyse, h₃⟩ := ends.of_bind h₂
  obtain ⟨registry, s₄, hassemble, hlast⟩ := ends.of_bind h₃
  cases hlast
  have hlike : SameLookups settings s s₂ := trans_of _
    ((steady_readStories paths).leaves.of_ends hread) ((steady_findCycles stories).leaves.of_ends hcycles)
  obtain ⟨hstories, hown, hfirst⟩ := report_of_readStories hread
  obtain ⟨others, cycles, hothers, hsecond⟩ := report_of_findCycles hcycles
  obtain ⟨hanalyses, hthird⟩ := report_of_analyse hanalyse
  have hfourth := ((tells_assemble settings stories analyses).of_ends hassemble).report
  refine ⟨hstories, ?_, hown, others, cycles, hothers, ?_⟩
  · rw [hanalyses, Analysis.inSession_eq hlike]
  · rw [hfourth, hthird, hsecond, hfirst, hfresh]
    simp

end Pipeline

/-! ## Items and registries -/

namespace Assembly

variable {settings : Settings} {owners : Table String} {stories : List StoryFile}
  {analyses : List (Option Analysis)}

/-- There is at most one outcome for each story file. -/
theorem length_outcomes_le (settings : Settings) (owners : Table String) (stories : List StoryFile)
    (analyses : List (Option Analysis)) :
    (outcomes settings owners stories analyses).length ≤ stories.length := by
  induction stories generalizing owners analyses with
  | nil => exact Nat.le_refl 0
  | cons f rest ih =>
    unfold outcomes
    rw [List.length_cons, List.length_cons]
    refine Nat.succ_le_succ ?_
    split
    · exact ih _ _
    · exact Nat.zero_le _
    · exact ih _ _

/-- A registry has at most one item for each story file. -/
theorem length_items_le {r : Registry} (h : (registry settings stories analyses).2 = .ok r) :
    r.items.length ≤ stories.length := by
  rw [(registry_ok h).1]
  calc (drafted settings (keptItems (outcomes settings [] stories analyses))).items.length
      = (keptItems (outcomes settings [] stories analyses)).length := List.length_map _
    _ ≤ (outcomes settings [] stories analyses).length := List.length_filterMap_le _ _
    _ ≤ stories.length := length_outcomes_le settings [] stories analyses

/-- An item that cannot be put together at all is that of a story file. -/
theorem exists_item_of_broken {f : StoryFile} {cause : Failure}
    (h : (f, Outcome.broken cause) ∈ outcomes settings owners stories analyses) :
    ∃ analysis, item settings f analysis = .error cause ∧ cause.isVerdict = false := by
  induction stories generalizing owners analyses with
  | nil => cases h
  | cons g rest ih =>
    unfold outcomes at h
    rcases List.mem_cons.1 h with heq | hrest
    · obtain ⟨rfl, hbroken⟩ := Prod.mk.inj heq
      refine ⟨analyses.head?.join, ?_⟩
      unfold outcome at hbroken
      split at hbroken
      · rename_i e herror
        split at hbroken
        · cases hbroken
        · rename_i hverdict
          cases hbroken
          exact ⟨herror, Bool.eq_false_iff.2 hverdict⟩
      · cases hbroken
      · split at hbroken <;> cases hbroken
    · split at hrest
      · exact ih hrest
      · cases hrest
      · exact ih hrest

/-- A registry is not given up for want of story files. -/
theorem registry_ne_noStoryRead (causes : List Failure) :
    (registry settings stories analyses).2 ≠ .error (.noStoryRead causes) := by
  intro h
  cases hcause : (outcomes settings [] stories analyses).findSome? fun entry => entry.2.cause? with
  | none =>
    rw [registry_of_unbroken hcause] at h
    unfold Registry.ofDocument at h
    dsimp only at h
    split at h <;> cases h
  | some cause =>
    rw [registry_of_broken hcause] at h
    cases h
    obtain ⟨⟨f, result⟩, hmem, hbroken⟩ := List.exists_of_findSome?_eq_some hcause
    obtain rfl : result = .broken (.noStoryRead causes) := by
      cases result <;> cases hbroken
      rfl
    obtain ⟨analysis, hitem, hverdict⟩ := exists_item_of_broken hmem
    cases hfit : styleVarsFit (Value.entry "cssVars" f.metadata.parameterTable) with
    | true =>
      rw [isVerdict_of_item hfit hitem] at hverdict
      cases hverdict
    | false =>
      unfold item at hitem
      rw [hfit] at hitem
      dsimp only at hitem
      split at hitem
      · cases hitem
      · split at hitem <;> cases hitem

end Assembly

/-! ## What a pipeline fails with -/

namespace Pipeline

variable {settings : Settings} {paths : List String} {stories : List StoryFile} {s : Session}

/-- A pipeline fails for want of story files only where reading them does. -/
theorem failed_of_run {causes : List Failure}
    (h : (ends (run settings paths) s).1 = .error (.noStoryRead causes)) :
    Stories.AllFail s paths causes := by
  rcases ends.error_of_bind h with hread | ⟨stories, s₁, hread, h₁⟩
  · rcases ends.error_of_bind hread with hbatch | ⟨batch, t, -, hrest⟩
    · exact Stories.allFail_of_readAll hbatch
    · cases hrest
  rcases ends.error_of_bind h₁ with hcycles | ⟨⟨⟩, s₂, -, h₂⟩
  · rcases ends.error_of_bind hcycles with hbuild | ⟨building, t, -, hrest⟩
    · have husable : ∀ path ∈ stories.map StoryFile.path, DependencyGraph.IsUsable path := by
        intro path hpath
        obtain ⟨f, hf, rfl⟩ := List.mem_map.1 hpath
        obtain ⟨other, -, hok⟩ := exists_read_of_readStories hread f hf
        exact Stories.isUsable_of_read hok
      obtain ⟨cause, hcause, -⟩ := DependencyGraph.ofPlace_of_build husable hbuild
      cases hcause
    · refine absurd hrest (FailsWith.bind (P := fun _ => False) (.modify _) (fun _ => ?_) t _)
      exact FailsWith.bind (FailsWith.forM fun _ _ => .modify _) fun _ => .modify _
  rcases ends.error_of_bind h₂ with hanalyse | ⟨analyses, s₃, -, h₃⟩
  · obtain ⟨analyses, hanalyses⟩ := exists_analyse settings stories s₂
    rw [hanalyses] at hanalyse
    cases hanalyse
  rcases ends.error_of_bind h₃ with hassemble | ⟨registry, s₄, -, h₄⟩
  · rcases ends.error_of_bind hassemble with htold | ⟨⟨⟩, t, -, hassemble⟩
    · cases htold
    rcases ends.error_of_bind hassemble with hmade | ⟨registry, t', -, htold⟩
    · exact absurd (Run.eq_error_of_ofExcept hmade) (Assembly.registry_ne_noStoryRead causes)
    · cases htold
  · cases h₄

/-! ## What is noted on the way -/

/-- The failure is that of one file, and does not keep the run from going on. -/
def OfFile (e : Failure) : Prop := Stories.isOwn e = true ∨ e.isOfImports = true

/-- Each error that was noted in between is that of one file. -/
def NotesFiles (s s' : Session) : Prop :=
  ∀ e ∈ s'.report.errors, e ∈ s.report.errors ∨ OfFile e

instance : Std.Refl NotesFiles where
  refl _ _ h := .inl h

instance : IsTrans Session NotesFiles where
  trans _ _ _ h h' e he := (h' e he).elim (h e) .inr

theorem notesFiles_of_tells {s s' : Session} (h : Tells s s') : NotesFiles s s' := by
  intro e he
  rw [h.report] at he
  exact .inl he

/-- Failures of single files may be noted after what was noted before. -/
theorem notesFiles_note {f : Report → Report} {noted : List Failure}
    (h : ∀ r, (f r).errors = r.errors ++ noted) (hnoted : ∀ e ∈ noted, OfFile e) :
    Leaves NotesFiles (Run.note f) := by
  intro s e he
  rw [show (ends (Run.note f) s).2.report.errors = s.report.errors ++ noted from h s.report] at he
  exact (List.mem_append.1 he).imp_right (hnoted e)

/-- What else is noted says nothing of files. -/
theorem notesFiles_note_of_errors {f : Report → Report} (h : ∀ r, (f r).errors = r.errors) :
    Leaves NotesFiles (Run.note f) :=
  notesFiles_note (fun r => (h r).trans (List.append_nil _).symm) nofun

theorem notesFiles_readStories (paths : List String) : Leaves NotesFiles (readStories paths) := by
  refine Leaves.bind_of_ok ((Stories.tells_readAll paths).mono fun _ _ => notesFiles_of_tells) ?_
  intro s batch s' hbatch
  obtain ⟨hfailures, hown⟩ := Stories.failures_readAll hbatch
  have hnoted : ∀ e ∈ batch.failures.map Prod.snd, OfFile e := by
    intro e he
    rw [hfailures] at he
    obtain ⟨path, hpath, hread⟩ := Stories.exists_of_mem_failures he
    exact .inl (hown path hpath e hread)
  refine Leaves.bind (notesFiles_note (fun _ => rfl) hnoted) (fun _ => ?_) s'
  exact ((Run.tells_tell _ _).bind fun _ => .pure _).mono fun _ _ => notesFiles_of_tells

theorem notesFiles_findCycles (settings : Settings) (stories : List StoryFile) :
    Leaves NotesFiles (findCycles settings stories) := by
  refine Leaves.bind_of_ok
    ((DependencyGraph.tells_visit settings true _ _ _).mono fun _ _ => notesFiles_of_tells) ?_
  intro s building s' hbuilt
  have hnoted : ∀ e ∈ building.failures.map Prod.snd, OfFile e := by
    intro e he
    obtain ⟨failure, hmem, rfl⟩ := List.mem_map.1 he
    exact .inr (DependencyGraph.isOfImports_of_build hbuilt failure hmem)
  refine Leaves.bind (notesFiles_note (fun _ => rfl) hnoted) (fun _ => Leaves.bind ?_ fun _ => ?_) s'
  · exact (Leaves.forM fun _ _ => Run.tells_tell _ _).mono fun _ _ => notesFiles_of_tells
  · exact notesFiles_note_of_errors fun _ => rfl

theorem notesFiles_run (settings : Settings) (paths : List String) :
    Leaves NotesFiles (run settings paths) := by
  refine (notesFiles_readStories paths).bind fun stories =>
    (notesFiles_findCycles settings stories).bind fun _ => Leaves.bind ?_ fun analyses =>
      ((tells_assemble settings stories analyses).mono fun _ _ => notesFiles_of_tells).bind
        fun _ => .pure _
  refine Leaves.bind (Leaves.mono (Leaves.mapM (Analysis.tells_ofStoryOrFailed settings))
    fun _ _ => notesFiles_of_tells) fun analyses => ?_
  exact Leaves.bind (notesFiles_note_of_errors fun _ => rfl) fun _ => .pure _

end Pipeline

/-! ## Runs -/

/-- The numbers of a report on a run over the files at some paths add up with what the report lists. -/
structure Report.AddsUp (settings : Settings) (s : Session) (paths : List String) (r : Report) : Prop where
  /-- Each file was read, or an error reports it. -/
  files : r.processed + r.errors.countP Stories.isOwn = paths.length
  /-- The files that were read are counted. -/
  processed : r.processed = (Stories.allInSession s paths).length
  /-- The errors are those of the files that were not read, in the order of the paths, and after them those
  of files whose imports cannot be read. -/
  errors : ∃ others, r.errors = Stories.failures s paths ++ others ∧ ∀ e ∈ others, e.isOfImports = true
  /-- The items are counted. -/
  generated : r.generated = r.items.length
  /-- There are no more items than files that were read. -/
  generated_le : r.generated ≤ r.processed
  /-- The run succeeds exactly if there is an item. -/
  success : r.success = true ↔ 0 < r.generated
  errorCount : r.errorCount = r.errors.countP Stories.isOwn +
    Pipeline.issueCount .error ((Stories.allInSession s paths).map (Analysis.inSession settings s))
  warningCount : r.warningCount = r.errors.countP Failure.isOfImports + r.cycles.length +
    Pipeline.issueCount .warning ((Stories.allInSession s paths).map (Analysis.inSession settings s))

namespace Sync

variable {settings : Settings} {options : Options} {s s' : Session} {paths : List String}

/-- What a run reports on a registry adds up. -/
theorem addsUp_of_completed {product : Pipeline.Product} {t : Session}
    (h : ends (Pipeline.run settings paths) (started settings options s paths) = (.ok product, t)) :
    product.stories = Stories.allInSession s paths ∧
      (completed t.report product.registry).AddsUp settings s paths := by
  have hlike := sameLookups_started settings options s paths
  obtain ⟨hstories, hanalyses, hown, others, cycles, hothers, hreport⟩ :=
    Pipeline.report_of_run h (tells_started settings options s paths).report
  have hregistry := (Pipeline.run_ok h).2.2
  have hread : Stories.allInSession (started settings options s paths) paths =
      Stories.allInSession s paths := by
    unfold Stories.allInSession
    rw [Stories.inSession?_eq hlike.1]
  rw [hread] at hstories
  rw [Analysis.inSession_eq hlike, hstories] at hanalyses
  rw [Stories.failures_eq hlike.1] at hown hreport
  have hothersOwn : others.countP Stories.isOwn = 0 :=
    List.countP_eq_zero.2 fun e he hkind => Stories.not_isOfImports_of_isOwn hkind (hothers e he)
  have hownOthers : (Stories.failures s paths).countP Failure.isOfImports = 0 :=
    List.countP_eq_zero.2 fun e he => Stories.not_isOfImports_of_isOwn (hown e he)
  have hownAll := List.countP_eq_length.2 hown
  have hothersAll := List.countP_eq_length.2 hothers
  have hitems := Assembly.length_items_le hregistry
  have hlength := Stories.length_allInSession_add s paths
  have hnumbers : completed t.report product.registry =
      { processed := (Stories.allInSession s paths).length
        errorCount := (Stories.failures s paths).length + Pipeline.issueCount .error product.analyses
        warningCount := others.length + cycles.length + Pipeline.issueCount .warning product.analyses
        errors := Stories.failures s paths ++ others
        cycles := cycles
        registry := some product.registry
        generated := product.registry.items.length
        success := !product.registry.items.isEmpty } := by
    rw [completed, hreport, hstories]
  rw [hnumbers, hanalyses]
  rw [hstories] at hitems
  refine ⟨hstories, ?_, rfl, ⟨others, rfl, hothers⟩, rfl, hitems, ?_, ?_, ?_⟩
  · show (Stories.allInSession s paths).length + (Stories.failures s paths ++ others).countP _ = _
    rw [List.countP_append, hownAll, hothersOwn, Nat.add_zero, hlength]
  · simp [List.length_pos_iff]
  · show _ = (Stories.failures s paths ++ others).countP _ + _
    rw [List.countP_append, hownAll, hothersOwn, Nat.add_zero]
  · show _ = (Stories.failures s paths ++ others).countP _ + cycles.length + _
    rw [List.countP_append, hothersAll, hownOthers, Nat.zero_add]

/-- The report of a run over files none of which could be read. -/
def nothingRead (causes : List Failure) : Report :=
  { errors := [.noStoryRead causes], errorCount := 1 }

theorem notesFiles_produce (settings : Settings) (options : Options) (paths : List String) :
    Leaves Pipeline.NotesFiles (produce settings options paths) :=
  (Pipeline.notesFiles_run settings paths).bind fun product =>
    ((tells_publish settings options product).mono fun _ _ => Pipeline.notesFiles_of_tells).bind
      fun _ => .pure _

/-- It is not noted on the way that no story file could be read. -/
theorem noStoryRead_not_mem {t : Session} (causes : List Failure)
    (h : Pipeline.NotesFiles (started settings options s paths) t) :
    .noStoryRead causes ∉ t.report.errors := by
  intro hmem
  rcases h _ hmem with hbefore | hown | himports
  · rw [(tells_started settings options s paths).report] at hbefore
    cases hbefore
  · cases hown
  · cases himports

/-- Where no story file can be read, making a registry fails with that, and nothing is noted. -/
theorem ends_produce_of_allFail {causes : List Failure} (h : Stories.AllFail s paths causes)
    (hne : paths ≠ []) : ∃ t, ends (produce settings options paths) s =
      (.error (.noStoryRead causes), t) ∧ t.report = s.report := by
  have hread : ends (Stories.readAll paths) s = (.error (.noStoryRead causes), _) :=
    Prod.ext (Stories.ends_readAll_of_allFail h hne) rfl
  exact ⟨_, ends.bind_of_error (ends.bind_of_error (ends.bind_of_error hread)),
    (Stories.tells_readAll paths s).report⟩

/-- What a run reports for want of story files is that and nothing else, and then none could be read. -/
theorem report_of_noStoryRead {report : Report} {causes : List Failure}
    (h : ends (run settings options) s = (.ok report, s'))
    (hpaths : (ends (storyFiles settings options) s).1 = .ok paths) (hne : paths ≠ [])
    (hmem : .noStoryRead causes ∈ report.errors) :
    Stories.AllFail s paths causes ∧ report = nothingRead causes := by
  have hlike := sameLookups_started settings options s paths
  obtain ⟨product, t, hmade, -, rfl⟩ | ⟨e, t, hproduced, hreported, rfl⟩ := ended_of_run h hpaths hne
  · exact absurd hmem
      (noStoryRead_not_mem causes ((Pipeline.notesFiles_run settings paths).of_ends hmade))
  · have hnoted := noStoryRead_not_mem causes
      ((notesFiles_produce settings options paths).of_ends hproduced)
    obtain rfl := List.mem_singleton.1 ((List.mem_append.1 hmem).resolve_left hnoted)
    have hfailed : (ends (Pipeline.run settings paths) (started settings options s paths)).1 =
        .error (.noStoryRead causes) := by
      obtain ⟨cause, hmade, hcause, -⟩ | ⟨product, done, rest, -, -, -, ⟨hok, -⟩ | ⟨cause, hcause, -, hfault⟩⟩ :=
        puts_of_produce hproduced fun cause hcause => by
          cases hcause
          exact hreported
      · cases hcause
        exact hmade
      · cases hok
      · cases hcause
        obtain ⟨cause, hfile, -⟩ := hfault
        cases hfile
    have hall := Pipeline.failed_of_run hfailed
    refine ⟨hall.of_sameTree hlike.1.symm, ?_⟩
    obtain ⟨t', hend, hsame⟩ := @ends_produce_of_allFail settings options _ paths causes hall hne
    rw [hproduced] at hend
    cases hend
    rw [hsame, (tells_started settings options s paths).report]
    rfl

/-- Where no story file can be read, a run reports that. -/
theorem exists_run_of_allFail {causes : List Failure} (h : Stories.AllFail s paths causes)
    (hpaths : (ends (storyFiles settings options) s).1 = .ok paths) (hne : paths ≠ []) :
    ∃ s', ends (run settings options) s = (.ok (nothingRead causes), s') := by
  have hstart : ends (Run.note fun _ => {}) s = (.ok ⟨⟩, { s with report := {} }) := rfl
  have hlike : SameLookups settings s { s with report := {} } := .of_sameMemo ⟨rfl, rfl⟩
  have hfound : ends (storyFiles settings options) { s with report := {} } = (.ok paths, _) :=
    Prod.ext (((steady_storyFiles settings options).agrees hlike).trans hpaths) rfl
  have htold : ends (Run.tell .info ("Found " ++ toString paths.length ++ " story files"))
      (ends (storyFiles settings options) { s with report := {} }).2 =
        (.ok (), started settings options s paths) := rfl
  obtain ⟨t, hend, hsame⟩ := @ends_produce_of_allFail settings options _ paths causes
    (h.of_sameTree (sameLookups_started settings options s paths).1) hne
  rw [(tells_started settings options s paths).report] at hsame
  obtain ⟨s', hconcluded, hreport⟩ : ∃ s', ends (conclude (.error (.noStoryRead causes))) t = (.ok (), s') ∧
      s'.report = { t.report with
        errors := t.report.errors ++ [.noStoryRead causes], errorCount := t.report.errorCount + 1 } :=
    ⟨_, rfl, rfl⟩
  have hupdated : ends (update settings options paths)
      (ends (storyFiles settings options) { s with report := {} }).2 = (.ok (), s') := by
    unfold update
    rw [if_neg (by simpa using hne), ends.bind_of_ok htold, ends.bind_of_ok (ends.attempt_eq _ _), hend]
    exact hconcluded
  refine ⟨s', ?_⟩
  unfold run
  rw [ends.bind_of_ok hstart, ends.bind_of_ok hfound, ends.bind_of_ok hupdated,
    ends.bind_of_ok (ends.get_eq s'), hreport, hsame]
  rfl

/-- The numbers of every run over story files that comes to a registry add up, and the registry is made of
the files that could be read, in the order of their paths. A run reports that no story file could be read,
with causes, exactly if the causes are the failures of all the files, one for each in the order of the
paths; and then that is all that it reports. -/
theorem statistics_of_run (hpaths : (ends (storyFiles settings options) s).1 = .ok paths)
    (hne : paths ≠ []) :
    (∀ report s', ends (run settings options) s = (.ok report, s') → report.registry.isSome = true →
      report.AddsUp settings s paths ∧ ∃ product t,
        ends (Pipeline.run settings paths) (started settings options s paths) = (.ok product, t) ∧
          report.registry = some product.registry ∧
          product.stories = Stories.allInSession s paths) ∧
    (∀ causes, (∃ report s', ends (run settings options) s = (.ok report, s') ∧
      .noStoryRead causes ∈ report.errors) ↔ Stories.AllFail s paths causes) ∧
    ∀ report s' causes, ends (run settings options) s = (.ok report, s') →
      .noStoryRead causes ∈ report.errors → report = nothingRead causes := by
  refine ⟨fun report s' h hdone => ?_, fun causes => ⟨?_, fun hall => ?_⟩, fun report s' causes h hmem => ?_⟩
  · obtain ⟨product, t, hmade, -, rfl⟩ := pipeline_of_run h (.inr hdone) hpaths hne
    obtain ⟨hstories, hadds⟩ := addsUp_of_completed hmade
    exact ⟨hadds, product, t, hmade, rfl, hstories⟩
  · rintro ⟨report, s', h, hmem⟩
    exact (report_of_noStoryRead h hpaths hne hmem).1
  · obtain ⟨s', h⟩ := exists_run_of_allFail hall hpaths hne
    exact ⟨_, s', h, List.mem_singleton.2 rfl⟩
  · exact (report_of_noStoryRead h hpaths hne hmem).2

end Sync

/-! ## Projects with a file that is no text -/

namespace BrokenFiles

/-- The settings of a project that wants nothing but its registry. -/
def settings : Settings := Settings.small false

/-- A project with a story file, and with a file whose bytes are no text. -/
def mixed : Session where
  tree := FileTree.small
    [("a.ts", Stored.ofSource "export default {component:A}" 1), ("b.ts", ⟨[255], 1⟩)]

/-- A project with two files whose bytes are no text. -/
def broken : Session where
  tree := FileTree.small [("a.ts", ⟨[255], 1⟩), ("b.ts", ⟨[255], 1⟩)]

/-- The paths of the files, in either project. -/
def paths : List String := ["/p/a.ts", "/p/b.ts"]

theorem ends_storyFiles_mixed : (ends (Sync.storyFiles settings {}) mixed).1 = .ok paths := by
  have hfound : ((ends (Sync.storyFiles settings {}) mixed).1.toOption.any (· == paths)) = true := by
    decide +kernel
  exact eq_ok_of_any hfound

theorem ends_storyFiles_broken : (ends (Sync.storyFiles settings {}) broken).1 = .ok paths := by
  have hfound : ((ends (Sync.storyFiles settings {}) broken).1.toOption.any (· == paths)) = true := by
    decide +kernel
  exact eq_ok_of_any hfound

/-- A run over the story file and the other file comes to a registry. -/
theorem exists_run : ∃ report s', ends (Sync.run settings {}) mixed = (.ok report, s') ∧
    report.registry.isSome = true := by
  have hchecked : ((ends (Pipeline.run settings paths) mixed).1.toOption.any fun product =>
      Output.canWrite product.registry.document) = true := by decide +kernel
  obtain ⟨product, hproduct, hwritable⟩ := exists_ok_of_any hchecked
  have htakes : mixed.tree.takes (Output.registryFile settings.registryPath) = true := by
    decide +kernel
  obtain ⟨report, s', hend, hregistry, -⟩ := Sync.exists_report (P := fun _ => True)
    ends_storyFiles_mixed (by decide) hproduct fun t htree => by
      rw [← htree] at htakes
      obtain ⟨t', hend, -⟩ :=
        @Sync.exists_publish_registry settings {} product t rfl rfl rfl htakes hwritable
      exact ⟨t', hend, trivial⟩
  exact ⟨report, s', hend, by rw [hregistry]; rfl⟩

/-- The outcome is a failure that does not keep others from being read. -/
def failsAlone (outcome : Except Failure StoryFile) : Bool :=
  match outcome with
  | .ok _ => false
  | .error e => Stories.isOwn e

/-- Neither of the two files can be read. -/
theorem allFail : Stories.AllFail broken paths (Stories.failures broken paths) := by
  refine .of_forall fun path hpath => ?_
  have hfails : ∀ path ∈ paths, failsAlone (ends (Stories.read path) broken).1 = true := by
    decide +kernel
  have hfails := hfails path hpath
  cases hread : (ends (Stories.read path) broken).1 with
  | ok f =>
    rw [hread] at hfails
    cases hfails
  | error e =>
    rw [hread] at hfails
    exact ⟨e, rfl, hfails⟩

end BrokenFiles

open BrokenFiles in
/-- The numbers add up beside a file that is no text; where there is nothing else, that is reported. -/
theorem statistics_of_broken_files :
    (∃ report s', ends (Sync.run settings {}) mixed = (.ok report, s') ∧
      report.AddsUp settings mixed paths) ∧
    ∃ report s' causes, ends (Sync.run settings {}) broken = (.ok report, s') ∧
      causes.length = 2 ∧ report = Sync.nothingRead causes := by
  obtain ⟨report, s', hend, hregistry⟩ := exists_run
  obtain ⟨hadds, -⟩ := Sync.statistics_of_run ends_storyFiles_mixed (by decide)
  obtain ⟨-, hiff, honly⟩ :=
    @Sync.statistics_of_run settings {} broken paths ends_storyFiles_broken (by decide)
  obtain ⟨report', t, hend', hmem⟩ := (hiff _).2 allFail
  exact ⟨⟨report, s', hend, (hadds report s' hend hregistry).1⟩, report', t, _, hend',
    (List.Forall₂.length_eq allFail).symm, honly report' t _ hend' hmem⟩

end StoryRegistry
