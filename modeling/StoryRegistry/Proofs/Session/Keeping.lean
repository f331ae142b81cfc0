import StoryRegistry.Proofs.Session.Writing
import StoryRegistry.Session.Sync

/-!
# What was told stays told

No step of a run takes back a line of the log or an error of the report, whatever it comes to. Most steps
leave the report as it is (`Session.Tells`); the others note errors after those that were noted before
(`Session.Extends`). There is one lemma for each step.
-/

set_option autoImplicit false

namespace StoryRegistry

namespace Session

/-- Nothing that was told is gone, and nothing was noted. -/
structure Tells (s s' : Session) : Prop where
  log : s.log <+: s'.log
  report : s'.report = s.report

instance : Std.Refl Tells where
  refl _ := ⟨List.prefix_refl _, rfl⟩

instance : IsTrans Session Tells where
  trans _ _ _ h h' := ⟨h.log.trans h'.log, h'.report.trans h.report⟩

/-- Nothing that was told is gone, and no error that was noted. -/
structure Extends (s s' : Session) : Prop where
  log : s.log <+: s'.log
  errors : s.report.errors <+: s'.report.errors

instance : Std.Refl Extends where
  refl _ := ⟨List.prefix_refl _, List.prefix_refl _⟩

instance : IsTrans Session Extends where
  trans _ _ _ h h' := ⟨h.log.trans h'.log, h.errors.trans h'.errors⟩

theorem Tells.extends {s s' : Session} (h : Tells s s') : Extends s s' :=
  ⟨h.log, h.report ▸ List.prefix_refl _⟩

end Session

open Session (Tells Extends)

/-! ## Single steps -/

theorem Leaves.extends {α : Type} {x : Run α} (hx : Leaves Tells x) : Leaves Extends x :=
  hx.mono fun _ _ => Tells.extends

namespace Run

variable {α : Type}

theorem tells_get : Leaves Tells (MonadState.get : Run Session) := fun s => refl_of Tells s

theorem tells_tellAll (lines : List LogLine) : Leaves Tells (tellAll lines) :=
  fun _ => ⟨List.prefix_append _ _, rfl⟩

theorem tells_tell (level : Level) (message : String) : Leaves Tells (tell level message) :=
  tells_tellAll _

theorem extends_note {f : Report → Report} (h : ∀ r, r.errors <+: (f r).errors) :
    Leaves Extends (note f) :=
  fun s => ⟨List.prefix_refl _, h s.report⟩

theorem tells_ofExcept (outcome : Except Failure α) : Leaves Tells (ofExcept outcome) := by
  cases outcome with
  | ok a => exact .pure a
  | error e => exact .throw e

theorem tells_look (f : FileTree → Except FileError α) : Leaves Tells (look f) := by
  intro s
  rw [ends.look_eq]
  exact refl_of Tells s

theorem tells_text (p : Path) : Leaves Tells (text p) := tells_look _

theorem tells_change (c : Change α) : Leaves Tells (change c) := by
  intro s
  rw [ends_change]
  exact ⟨List.prefix_refl _, rfl⟩

end Run

open Run

/-! ## Story files -/

namespace Discovery

theorem tells_storyFiles (settings : Settings) : Leaves Tells (storyFiles settings) := by
  refine (tells_look _).bind fun there => ?_
  cases there with
  | false => exact (tells_tell _ _).bind fun _ => .pure _
  | true =>
    refine tells_get.bind fun s => (tells_ofExcept _).bind fun found => ?_
    exact (tells_tell _ _).bind fun _ => .pure _

theorem tells_changedSince (since : Instant) (paths : List String) :
    Leaves Tells (changedSince since paths) := by
  unfold changedSince
  split
  · exact .throw _
  · exact tells_look _

end Discovery

namespace Stories

theorem tells_read (path : String) : Leaves Tells (read path) := by
  refine tells_get.bind fun s => (tells_text _).attempt.bind fun outcome => ?_
  cases outcome with
  | ok source => exact tells_ofExcept _
  | error e =>
    dsimp only
    split
    · exact .throw _
    · exact .throw _

theorem tells_readInto (batch : Batch) (path : String) : Leaves Tells (readInto batch path) := by
  refine (tells_read path).attempt.bind fun outcome => ?_
  cases outcome with
  | ok f => exact .pure _
  | error e =>
    dsimp only
    split
    · exact (tells_tell _ _).bind fun _ => .pure _
    · exact .throw _

theorem tells_readAll (paths : List String) : Leaves Tells (readAll paths) := by
  refine (Leaves.foldlM tells_readInto _).bind fun batch => ?_
  dsimp only
  split
  · exact (Leaves.throw _).bind fun _ => .pure _
  · exact .pure _

end Stories

/-! ## Dependencies -/

namespace Import

theorem tells_readVersion (p : Path) : Leaves Tells (readVersion p) := by
  have hunreadable (words : String) : Leaves Tells (do
      Run.tell .debug ("Unreadable package manifest " ++ p.toText ++ ": " ++ words)
      return (none : Option String)) := (tells_tell _ _).bind fun _ => .pure _
  refine (tells_text p).attempt.bind fun outcome => ?_
  cases outcome with
  | ok text =>
    dsimp only
    split
    · exact .pure _
    · exact hunreadable _
  | error e =>
    dsimp only
    split
    · exact hunreadable _
    · exact .throw _

variable (settings : Settings)

theorem tells_installed (package : String) : Leaves Tells (installed settings package) := by
  refine (tells_look _).bind fun manifest => ?_
  cases manifest with
  | none => exact .pure _
  | some p => exact tells_readVersion p

theorem tells_version (specifier : String) : Leaves Tells (version settings specifier) := by
  refine tells_get.bind fun s => ?_
  split
  · exact .pure _
  · refine (tells_installed settings _).bind fun found => ?_
    -- a version that is remembered is neither told nor noted
    exact Leaves.bind (fun t => ⟨List.prefix_refl _, rfl⟩) fun _ => .pure _

theorem tells_dependency? (importer specifier : String) :
    Leaves Tells (dependency? settings importer specifier) := by
  unfold dependency?
  split
  · exact .pure _
  · dsimp only
    split
    · exact (tells_look _).bind fun _ => .pure _
    · exact (tells_version settings _).bind fun _ => .pure _
    · exact .pure _

theorem tells_dependencies (importer : String) (specifiers : List String) :
    Leaves Tells (dependencies settings importer specifiers) :=
  (Leaves.mapM (tells_dependency? settings importer)).bind fun _ => .pure _

end Import

namespace DependencyGraph

variable (settings : Settings)

theorem tells_dependenciesOf (path : String) : Leaves Tells (dependenciesOf settings path) := by
  refine (tells_text _).attempt.bind fun outcome => ?_
  cases outcome with
  | ok source => exact Import.tells_dependencies settings path _
  | error e =>
    dsimp only
    split
    · exact .throw _
    · exact .throw _

theorem tells_dependenciesOrFailure (path : String) :
    Leaves Tells (dependenciesOrFailure settings path) := by
  refine (tells_dependenciesOf settings path).attempt.bind fun outcome => ?_
  cases outcome with
  | ok found => exact .pure _
  | error e =>
    dsimp only
    split
    · exact (tells_tell _ _).bind fun _ => .pure _
    · exact .throw _

/-- The induction is on the room that is left in the graph. -/
theorem tells_visit (following : Bool) (room : Nat) (pending : List String) (b : Building) :
    Leaves Tells (visit settings following room pending b) := by
  induction room generalizing pending b with
  | zero => exact .pure _
  | succ room ih =>
    unfold visit
    split
    · exact .pure _
    · refine (tells_dependenciesOrFailure settings _).bind fun result => ?_
      dsimp only
      cases following with
      | false => exact (Leaves.pure _).bind fun next => ih _ _
      | true => exact (tells_look _).bind fun next => ih _ _

end DependencyGraph

/-! ## Analyses -/

namespace Analysis

theorem tells_storyLines (f : StoryFile) : Leaves Tells (storyLines Run.text f) := by
  refine (tells_text _).attempt.bind fun outcome => ?_
  cases outcome with
  | ok text => exact .pure _
  | error e =>
    dsimp only
    split
    · exact .pure _
    · exact .throw _

theorem tells_sourceSize? (source : Option String) :
    Leaves Tells (sourceSize? Run.text source) := by
  cases source with
  | none => exact .pure _
  | some path =>
    refine (tells_text _).attempt.bind fun outcome => ?_
    cases outcome with
    | ok text => exact .pure _
    | error e =>
      dsimp only
      split
      · exact (tells_tell _ _).bind fun _ => .pure _
      · exact .throw _

theorem tells_measured (f : StoryFile) (source : Option String) :
    Leaves Tells (measured Run.text f source) := by
  refine (tells_storyLines f).bind fun lines => (tells_sourceSize? source).bind fun size => ?_
  cases size <;> exact .pure _

variable (settings : Settings)

theorem tells_ofStory (f : StoryFile) : Leaves Tells (ofStory settings Run.text f) :=
  (tells_look _).bind fun source => (tells_measured f source).bind fun _ =>
    (Run.tells_ofExcept _).bind fun _ => (Import.tells_dependencies settings f.path _).bind fun _ =>
      (tells_look _).bind fun _ => .pure _

theorem tells_ofStoryOrFailed (f : StoryFile) :
    Leaves Tells (ofStoryOrFailed settings Run.text f) := by
  refine (tells_ofStory settings f).attempt.bind fun outcome => ?_
  cases outcome with
  | ok analysis => exact .pure _
  | error e => exact (tells_tell _ _).bind fun _ => .pure _

end Analysis

namespace Pipeline

/-- The failures of story files are noted after what was noted before. -/
theorem extends_readStories (paths : List String) : Leaves Extends (readStories paths) := by
  refine (Stories.tells_readAll paths).extends.bind fun batch => ?_
  refine Leaves.bind (extends_note fun r => List.prefix_append _ _) fun _ => ?_
  exact (tells_tell _ _).extends.bind fun _ => .pure _

variable (settings : Settings)

/-- So are the failures of files whose imports cannot be read. -/
theorem extends_findCycles (stories : List StoryFile) :
    Leaves Extends (findCycles settings stories) := by
  refine (DependencyGraph.tells_visit settings true _ _ _).extends.bind fun building => ?_
  refine Leaves.bind (extends_note fun r => List.prefix_append _ _) fun _ => ?_
  refine Leaves.bind (Leaves.forM fun cycle _ => (tells_tell _ _).extends) fun _ => ?_
  exact extends_note fun r => List.prefix_refl _

theorem extends_analyse (stories : List StoryFile) : Leaves Extends (analyse settings stories) := by
  refine (Leaves.mapM (Analysis.tells_ofStoryOrFailed settings)).extends.bind fun analyses => ?_
  refine Leaves.bind (extends_note fun r => ?_) fun _ => .pure _
  exact List.prefix_refl r.errors

theorem tells_assemble (stories : List StoryFile) (analyses : List Analysis) :
    Leaves Tells (assemble settings stories analyses) :=
  (tells_tellAll _).bind fun _ => (tells_ofExcept _).bind fun _ => (tells_tell _ _).bind fun _ =>
    .pure _

end Pipeline

/-! ## Publishing -/

namespace Output

theorem tells_writeJson (p : Path) (v : Value) : Leaves Tells (writeJson p v) :=
  (tells_change _).bind fun _ => (Leaves.when _ (.throw _)).bind fun _ => tells_change _

theorem tells_writePage (folder : Path) (f : StoryFile) (i : Item) :
    Leaves Tells (writePage folder f i) :=
  (tells_ofExcept _).bind fun _ => (tells_change _).bind fun _ =>
    (tells_change _).bind fun _ => tells_writeJson _ _

theorem tells_checkWritten (folder : Path) : Leaves Tells (checkWritten folder) := by
  refine (tells_text _).bind fun text => ?_
  split
  · exact (tells_ofExcept _).bind fun _ => tells_tell _ _
  · exact .throw _

end Output

namespace Sync

variable (settings : Settings) (options : Options)

theorem tells_storyFiles : Leaves Tells (storyFiles settings options) := by
  refine (Discovery.tells_storyFiles settings).bind fun found => ?_
  cases options.since with
  | none => exact .pure _
  | some since =>
    exact (Discovery.tells_changedSince since found).bind fun _ => (tells_tell _ _).bind fun _ =>
      .pure _

theorem tells_publish (product : Pipeline.Product) :
    Leaves Tells (publish settings options product) := by
  refine ((Output.tells_writeJson _ _).bind fun _ => tells_tell _ _).bind fun _ => ?_
  refine (Leaves.when _ ?_).bind fun _ => (Leaves.when _ ?_).bind fun _ => Leaves.when _ ?_
  · exact (Leaves.forM fun _ _ => Output.tells_writeJson _ _).bind fun _ => tells_tell _ _
  · exact (Leaves.forM fun _ _ => Output.tells_writePage _ _ _).bind fun _ => tells_tell _ _
  · exact Output.tells_checkWritten _

end Sync

end StoryRegistry
