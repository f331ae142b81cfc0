import StoryRegistry.Proofs.Registry.Documents
import StoryRegistry.Proofs.Registry.Selection
import StoryRegistry.Proofs.Session.Faults
import StoryRegistry.Proofs.Session.Progress
import StoryRegistry.Proofs.Story.Outline

/-!
# Runs that come to a report

A run collects what goes wrong and comes to a report, whatever the story files hold, if the texts in
each of them have a UTF-8 form and its integers are not too long, or if it cannot be read as a story
file; and if the registry's folder can be looked for (`Sync.reports_of_settled`). A registry whose
document has no UTF-8 form, as that of a story whose title ends in half of a surrogate pair, is what a
run does not collect: it fails with the file of the registry left empty.
-/

set_option autoImplicit false

namespace StoryRegistry

open Import (SameLookups)

/-! ## Story files -/

namespace Stories

/-- The outcome is a story file that can be written, or a failure that does not keep others from being
read. -/
inductive IsSettled : Except Failure StoryFile → Prop
  | read {f : StoryFile} (h : f.CanWrite) : IsSettled (.ok f)
  | leftOut {e : Failure} (h : isOwn e = true) : IsSettled (.error e)

instance : (outcome : Except Failure StoryFile) → Decidable (IsSettled outcome)
  | .ok f => decidable_of_iff f.CanWrite ⟨.read, fun (.read h) => h⟩
  | .error e => decidable_of_iff (isOwn e = true) ⟨.leftOut, fun (.leftOut h) => h⟩

/-- The file at a path is read as a story file that can be written, or it cannot be read as one. -/
def Settles (s : Session) (path : String) : Prop := IsSettled (ends (read path) s).1

instance (s : Session) (path : String) : Decidable (Settles s path) :=
  inferInstanceAs (Decidable (IsSettled _))

variable {s : Session} {path : String} {paths : List String}

theorem Settles.of_sameTree {s' : Session} (h : Settles s path) (htree : s'.tree = s.tree) :
    Settles s' path := by
  unfold Settles at *
  rwa [(@steady_read SameTree _ path).agrees htree]

theorem Settles.canWrite {f : StoryFile} (h : Settles s path)
    (hread : (ends (read path) s).1 = .ok f) : f.CanWrite := by
  unfold Settles at h
  rw [hread] at h
  cases h with
  | read hwritable => exact hwritable

theorem exists_readInto (h : Settles s path) (batch : Batch) :
    ∃ next, (ends (readInto batch path) s).1 = .ok next := by
  unfold Settles at h
  unfold readInto
  rw [ends.bind_of_ok (ends.attempt_eq _ s)]
  cases hread : (ends (read path) s).1 with
  | ok f => exact ⟨_, rfl⟩
  | error e =>
    rw [hread] at h
    cases h with
    | leftOut hown =>
      dsimp only
      rw [if_pos hown]
      exact ⟨_, rfl⟩

/-- The path of a story file that was read is one under which a file can be looked for. -/
theorem isUsable_of_read {f : StoryFile} (h : (ends (read path) s).1 = .ok f) :
    DependencyGraph.IsUsable f.path := by
  obtain ⟨source, hread, hsource⟩ := read_eq_ok_iff.1 h
  obtain ⟨spot, hspot⟩ := FileTree.exists_find_of_readText hread
  obtain ⟨hwritable, hnull⟩ := FileTree.isWritable_and_noNull_of_find hspot
  rw [(StoryFile.parts_of_ofOutline hsource).1]
  refine DependencyGraph.IsUsable.normalize ⟨?_, hwritable, hnull⟩
  exact Path.isAbsolute_ofString.2 (Path.head?_toText_of_isAbsolute rfl)

end Stories

/-! ## Making a registry -/

namespace Pipeline

variable {settings : Settings} {s : Session} {paths : List String}

/-- The story files of a pipeline are read from the paths. -/
theorem exists_read_of_readStories {stories : List StoryFile} {s' : Session}
    (h : ends (readStories paths) s = (.ok stories, s')) :
    ∀ f ∈ stories, ∃ path ∈ paths, (ends (Stories.read path) s).1 = .ok f := by
  obtain ⟨batch, t, hbatch, h⟩ := ends.of_bind h
  obtain ⟨-, t', -, h⟩ := ends.of_bind h
  obtain ⟨-, t'', -, h⟩ := ends.of_bind h
  cases h
  intro f hf
  rw [Stories.stories_readAll hbatch] at hf
  obtain ⟨path, hpath, hread⟩ := List.mem_filterMap.1 hf
  refine ⟨path, hpath, ?_⟩
  exact Stories.read_of_inSession? hread

/-- Analyses never fail. -/
theorem exists_analyse (settings : Settings) (stories : List StoryFile) (s : Session) :
    ∃ analyses, (ends (analyse settings stories) s).1 = .ok analyses := by
  obtain ⟨analyses, hanalyses⟩ := Steady.exists_mapM (R := SameLookups settings)
    (fun f => Analysis.steady_ofStoryOrFailed Steady.text f)
    (fun f (_ : f ∈ stories) => ⟨_, Analysis.ends_ofStoryOrFailed settings f s⟩)
  exact ⟨analyses, ends.bind_of_ok (Prod.ext hanalyses rfl) ▸ rfl⟩

end Pipeline

/-! ## Runs -/

/-- A registry with a text that has no UTF-8 form is not written; its file is left empty. -/
theorem Output.ends_writeRegistry_of_not_writable {folder : Path} {r : Registry} {s : Session}
    (h : s.tree.takes (registryFile folder) = true) (hfits : r.document.intsFit = true)
    (hnot : r.document.isWritable = false) :
    ∃ s', ends (writeRegistry folder r) s = (.error (.file .unwritable), s') ∧
      s'.tree = s.tree.putText (registryFile folder) "" := by
  obtain ⟨⟨above, hfolder⟩, -⟩ := FileTree.takes_iff.1 h
  have htext : Text.isWritable (jsonText r.document) = false := by
    rw [jsonText, Text.isWritable_append, Value.json,
      Value.not_isWritable_jsonAt Value.Layout.isPlain_tree _ 0 hnot]
    rfl
  have hskip : ends (Run.when (!r.document.intsFit) (throw .badNumber)) s = (.ok (), s) := by
    rw [hfits]
    rfl
  have hwritten : ends (writeJson (registryFile folder) r.document) s =
      (.error (.file .unwritable), { s with tree := s.tree.putText (registryFile folder) "" }) := by
    unfold writeJson
    rw [ends.bind_of_ok (Run.ends_folders hfolder), ends.bind_of_ok hskip, Run.ends_change,
      Change.ends_writeText_of_not_writable h htext]
    rfl
  exact ⟨_, ends.bind_of_error hwritten, rfl⟩

namespace Sync

variable {settings : Settings} {options : Options} {s : Session} {paths : List String}

/-- A run that makes a registry with a text that has no UTF-8 form fails, although the file of the registry
can be written, and leaves that file empty. -/
theorem unwritable_of_run {product : Pipeline.Product}
    (hfound : (ends (storyFiles settings options) s).1 = .ok paths) (hne : paths ≠ [])
    (hmade : (ends (Pipeline.run settings paths) s).1 = .ok product)
    (hfits : product.registry.document.intsFit = true)
    (hnot : product.registry.document.isWritable = false)
    (htakes : s.tree.takes (Output.registryFile settings.registryPath) = true) :
    ∃ s', ends (run settings options) s = (.error (.file .unwritable), s') ∧
      s'.tree = s.tree.putText (Output.registryFile settings.registryPath) "" := by
  have hstart : ends (Run.note fun _ => {}) s = (.ok ⟨⟩, { s with report := {} }) := rfl
  have hlike : SameLookups settings s { s with report := {} } := .of_sameMemo ⟨rfl, rfl⟩
  obtain ⟨s₁, hpaths, hlike₁⟩ := (steady_storyFiles settings options).exists_ok hlike hfound
  obtain ⟨s₂, htold, hlike₂⟩ : ∃ t, ends (Run.tell .info
      ("Found " ++ toString paths.length ++ " story files")) s₁ = (.ok (), t) ∧
      SameLookups settings s t := ⟨_, rfl, trans_of _ hlike₁ (IsView.log s₁ _)⟩
  obtain ⟨s₃, hproduct, hlike₃⟩ := (Pipeline.steady_run paths).exists_ok hlike₂ hmade
  rw [← hlike₃.1] at htakes ⊢
  obtain ⟨s₄, hwritten, htree⟩ := Output.ends_writeRegistry_of_not_writable htakes hfits hnot
  have hproduced : ends (produce settings options paths) s₂ = (.error (.file .unwritable), s₄) := by
    unfold produce publish
    rw [ends.bind_of_ok hproduct]
    exact ends.bind_of_error (ends.bind_of_error hwritten)
  have hupdated : ends (update settings options paths) s₁ = (.error (.file .unwritable), s₄) := by
    unfold update
    rw [if_neg (by simpa using hne), ends.bind_of_ok htold,
      ends.bind_of_ok (ends.attempt_eq _ s₂), hproduced]
    rfl
  refine ⟨s₄, ?_, htree⟩
  unfold run
  rw [ends.bind_of_ok hstart, ends.bind_of_ok hpaths, ends.bind_of_error hupdated]

end Sync

/-! ## Two small projects -/

namespace SmallRuns

/-- The settings of a project that wants items, pages and the check. -/
def settings : Settings := { Settings.small true with withItems := true, validated := true }

/-- A project with a story file, and with a file whose bytes are no text. -/
def besideBroken : Session where
  tree := FileTree.small
    [("a.ts", Stored.ofSource "export default {component:A}" 1), ("b.ts", ⟨[255], 1⟩)]

/-- A project with a story whose title is half of a surrogate pair. -/
def halved : Session where
  tree := FileTree.small
    [("a.ts", Stored.ofSource "export default \x7bcomponent:A,title:\"\\uD83D\"\x7d" 1)]

theorem ends_storyFiles :
    (ends (Sync.storyFiles settings {}) besideBroken).1 = .ok ["/p/a.ts", "/p/b.ts"] := by
  have hfound : ((ends (Sync.storyFiles settings {}) besideBroken).1.toOption.any
      (· == ["/p/a.ts", "/p/b.ts"])) = true := by decide +kernel
  exact eq_ok_of_any hfound

end SmallRuns

open SmallRuns in
/-- A run over a story whose title is half of a surrogate pair fails and leaves the file of the registry
empty. -/
theorem unwritable_of_halved_title : ∃ s',
    ends (Sync.run settings {}) halved = (.error (.file .unwritable), s') ∧
      s'.tree.readText ⟨1, ["r", "registry.json"]⟩ = .ok "" := by
  have hfound : ((ends (Sync.storyFiles settings {}) halved).1.toOption.any
      (· == ["/p/a.ts"])) = true := by decide +kernel
  have hmade : ((ends (Pipeline.run settings ["/p/a.ts"]) halved).1.toOption.any fun product =>
      product.registry.document.intsFit && !product.registry.document.isWritable) = true := by
    decide +kernel
  obtain ⟨product, hproduct, hnot⟩ := exists_ok_of_any hmade
  obtain ⟨hfits, hnot⟩ := Bool.and_eq_true_iff.1 hnot
  have htakes : halved.tree.takes (Output.registryFile settings.registryPath) = true := by
    decide +kernel
  obtain ⟨s', hend, htree⟩ := Sync.unwritable_of_run (eq_ok_of_any hfound) (by simp) hproduct hfits
    (by simpa using hnot) htakes
  refine ⟨s', hend, ?_⟩
  rw [htree]
  decide +kernel

end StoryRegistry
