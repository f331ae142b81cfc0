import StoryRegistry.Proofs.FileTree.Progress
import StoryRegistry.Proofs.Session.Publishing
import StoryRegistry.Proofs.Value.Json

/-!
# When a run succeeds

A run over story files that make up a registry succeeds if what it writes can be written: the
folders are there, the integers are not too long, and the texts have a UTF-8 form.
-/

set_option autoImplicit false

namespace StoryRegistry

namespace Run

/-- Making sure of a folder that is there changes nothing. -/
theorem ends_folders {s : Session} {p : Path} {place : Place}
    (h : s.tree.find p = .ok (.folder place)) :
    ends (change (Change.folders p)) s = (.ok (), s) := by
  rw [ends_change, Change.ends_folders h]
  rfl

/-- Where a file can be written, a text that has a UTF-8 form is. -/
theorem ends_writeText {s : Session} {p : Path} {text : String} (h : s.tree.takes p = true)
    (hwritable : Text.isWritable text = true) :
    ends (change (Change.writeText p text)) s =
      (.ok (), { s with tree := s.tree.putText p text }) := by
  rw [ends_change, Change.ends_writeText_of_takes h hwritable]
  rfl

end Run

namespace Output

/-- The value can be written as JSON: its integers are not too long, and its texts have a UTF-8
form. -/
def canWrite (v : Value) : Bool := v.intsFit && v.isWritable

/-- The file of a value that can be written has a UTF-8 form. -/
theorem isWritable_jsonText {v : Value} (h : v.isWritable = true) :
    Text.isWritable (jsonText v) = true := by
  have hend : Text.isWritable "\n" = true := by decide
  rw [jsonText, Text.isWritable_append, Value.json,
    Value.isWritable_jsonAt Value.Layout.isPlain_tree v 0 h, hend]
  rfl

/-- Where a file can be written, a value that can be written is. -/
theorem ends_writeJson {s : Session} {p : Path} {v : Value} (h : s.tree.takes p = true)
    (hv : canWrite v = true) :
    ends (writeJson p v) s = (.ok (), { s with tree := s.tree.putText p (jsonText v) }) := by
  obtain ⟨hfit, hwritable⟩ := Bool.and_eq_true_iff.1 hv
  obtain ⟨⟨above, hfolder⟩, -⟩ := FileTree.takes_iff.1 h
  have hskip : ends (Run.when (!v.intsFit) (throw .badNumber)) s = (.ok (), s) := by
    rw [hfit]
    rfl
  unfold writeJson
  rw [ends.bind_of_ok (Run.ends_folders hfolder), ends.bind_of_ok hskip]
  exact Run.ends_writeText h (isWritable_jsonText hwritable)

/-- Where its file can be written, a registry that can be written is. -/
theorem exists_writeRegistry {folder : Path} {r : Registry} {s : Session}
    (h : s.tree.takes (registryFile folder) = true) (hr : canWrite r.document = true) :
    ∃ s', ends (writeRegistry folder r) s = (.ok (), s') ∧
      s'.tree = s.tree.putText (registryFile folder) (jsonText r.document) := by
  unfold writeRegistry
  rw [ends.bind_of_ok (ends_writeJson h hr)]
  exact ⟨_, rfl, rfl⟩

/-- Steps that succeed where they are ready, and keep no other from being ready, succeed in a row.
The induction is on what they are done for; what is left is ready after each. -/
theorem exists_forM {α : Type} {f : α → Run PUnit} {ready : FileTree → α → Prop}
    (hkept : ∀ t t' a, ready t a → FileTree.AsOpen t t' → ready t' a)
    (hstep : ∀ s a, ready s.tree a →
      ∃ s', ends (f a) s = (.ok ⟨⟩, s') ∧ FileTree.AsOpen s.tree s'.tree)
    {items : List α} {s : Session} (h : ∀ a ∈ items, ready s.tree a) :
    ∃ s', ends (items.forM f) s = (.ok ⟨⟩, s') ∧ FileTree.AsOpen s.tree s'.tree := by
  induction items generalizing s with
  | nil => exact ⟨s, rfl, refl_of _ s.tree⟩
  | cons a rest ih =>
    obtain ⟨t, hfirst, hopen⟩ := hstep s a (h a List.mem_cons_self)
    obtain ⟨s', hlast, hopen'⟩ := ih fun b hb =>
      hkept _ _ b (h b (List.mem_cons_of_mem _ hb)) hopen
    exact ⟨s', (ends.bind_of_ok hfirst).trans hlast, trans_of _ hopen hopen'⟩

/-- The item can be written into a folder. -/
def canWriteItem (t : FileTree) (folder : Path) (i : Item) : Bool :=
  t.takes (itemFile folder i) && canWrite i.document

/-- Items that can be written are. -/
theorem exists_writeItems {folder : Path} {items : List Item} {s : Session}
    (h : ∀ i ∈ items, canWriteItem s.tree folder i = true) :
    ∃ s', ends (writeItems folder items) s = (.ok (), s') ∧ FileTree.AsOpen s.tree s'.tree := by
  obtain ⟨s', hend, hopen⟩ := @exists_forM Item (fun i => writeJson (itemFile folder i) i.document)
    (fun t i => canWriteItem t folder i = true) (fun t t' i hi hopen => by
      obtain ⟨htakes, hwritable⟩ := Bool.and_eq_true_iff.1 hi
      exact Bool.and_eq_true_iff.2 ⟨hopen.takes _ htakes, hwritable⟩) (fun s i hi => by
      obtain ⟨htakes, hwritable⟩ := Bool.and_eq_true_iff.1 hi
      exact ⟨_, ends_writeJson htakes hwritable, FileTree.asOpen_putText htakes _⟩) items s h
  unfold writeItems
  rw [ends.bind_of_ok hend]
  exact ⟨_, rfl, hopen⟩

/-- The page that a story file gives an item can be written into a folder. -/
def canWritePage (t : FileTree) (folder : Path) (f : StoryFile) (i : Item) : Bool :=
  t.takes (pageFile folder i) && t.takes (examplesFile folder i) &&
    match Docs.Page.ofItem f i.entries with
    | .ok page => page.lines.all Text.isWritable && canWrite page.document
    | .error _ => false

/-- A page whose lines have a UTF-8 form has one. -/
theorem isWritable_text {page : Docs.Page} (h : page.lines.all Text.isWritable = true) :
    Text.isWritable page.text = true := by
  have hend : Text.isWritable "\n" = true := by decide
  have hlines := Text.isWritable_intercalate hend (List.all_eq_true.1 h)
  rw [Docs.Page.text, Text.isWritable_append, hlines, hend]
  rfl

/-- A page can be written where files can be written as before. -/
theorem canWritePage_of_asOpen {t t' : FileTree} {folder : Path} {f : StoryFile} {i : Item}
    (h : canWritePage t folder f i = true) (hopen : FileTree.AsOpen t t') :
    canWritePage t' folder f i = true := by
  unfold canWritePage at h ⊢
  obtain ⟨htakes, hwritable⟩ := Bool.and_eq_true_iff.1 h
  obtain ⟨htext, hdata⟩ := Bool.and_eq_true_iff.1 htakes
  rw [hopen.takes _ htext, hopen.takes _ hdata, hwritable]
  rfl

/-- A page that can be written into a folder that is there is written. -/
theorem exists_writePage {folder : Path} {place : Place} {f : StoryFile} {i : Item} {s : Session}
    (hfolder : s.tree.find folder = .ok (.folder place))
    (h : canWritePage s.tree folder f i = true) :
    ∃ s', ends (writePage folder f i) s = (.ok (), s') ∧ FileTree.AsOpen s.tree s'.tree := by
  obtain ⟨htakes, hwritable⟩ := Bool.and_eq_true_iff.1 h
  obtain ⟨htext, hdata⟩ := Bool.and_eq_true_iff.1 htakes
  cases hpage : Docs.Page.ofItem f i.entries with
  | error e =>
    rw [hpage] at hwritable
    cases hwritable
  | ok page =>
    rw [hpage] at hwritable
    obtain ⟨hlines, hdocument⟩ := Bool.and_eq_true_iff.1 hwritable
    have hmade : ends (Run.ofExcept (Docs.Page.ofItem f i.entries)) s = (.ok page, s) := by
      rw [hpage]
      rfl
    -- the text comes first, and the place of the data can still be written after it
    have hopen := FileTree.asOpen_putText htext page.text
    have hdata' := hopen.takes _ hdata
    have hwritten := @ends_writeJson { s with tree := s.tree.putText (pageFile folder i) page.text }
      _ _ hdata' hdocument
    refine ⟨{ s with
      tree := (s.tree.putText (pageFile folder i) page.text).putText (examplesFile folder i)
        (jsonText page.document) }, ?_, trans_of _ hopen (FileTree.asOpen_putText hdata' _)⟩
    unfold writePage
    rw [ends.bind_of_ok hmade, ends.bind_of_ok (Run.ends_folders hfolder),
      ends.bind_of_ok (Run.ends_writeText htext (isWritable_text hlines)), hwritten]

/-- Pages that can be written into a folder that is there are written. -/
theorem exists_writePages {folder : Path} {place : Place} {stories : List StoryFile}
    {items : List Item} {s : Session}
    (hfolder : s.tree.find (folder.child pagesFolder) = .ok (.folder place))
    (h : ∀ entry ∈ described stories items,
      canWritePage s.tree (folder.child pagesFolder) entry.1 entry.2 = true) :
    ∃ s', ends (writePages folder stories items) s = (.ok (), s') := by
  obtain ⟨s', hend, -⟩ := @exists_forM (StoryFile × Item)
    (fun entry => writePage (folder.child pagesFolder) entry.1 entry.2)
    (fun t entry => t.find (folder.child pagesFolder) = .ok (.folder place) ∧
      canWritePage t (folder.child pagesFolder) entry.1 entry.2 = true)
    (fun t t' entry hentry hopen =>
      ⟨hopen.folders _ _ hentry.1, canWritePage_of_asOpen hentry.2 hopen⟩)
    (fun s entry hentry => exists_writePage hentry.1 hentry.2) (described stories items) s
    fun entry hentry => ⟨hfolder, h entry hentry⟩
  unfold writePages
  rw [ends.bind_of_ok hend]
  exact ⟨_, rfl⟩

end Output

open Import (SameLookups)

namespace Sync

variable {settings : Settings} {options : Options} {product : Pipeline.Product} {s : Session}

/-- Where only the registry is asked for, it is all that is written. -/
theorem exists_publish_registry (hitems : settings.withItems = false)
    (hcheck : options.validated.getD settings.validated = false)
    (hoff : options.withPages.getD settings.withExamples = false)
    (htakes : s.tree.takes (Output.registryFile settings.registryPath) = true)
    (hwritable : Output.canWrite product.registry.document = true) :
    ∃ s', ends (publish settings options product) s = (.ok (), s') ∧
      s'.tree = s.tree.putText (Output.registryFile settings.registryPath)
        (Output.jsonText product.registry.document) := by
  obtain ⟨s₁, hregistry, htree⟩ := Output.exists_writeRegistry htakes hwritable
  have hskipped (step : Run Unit) : ends (Run.when false step) s₁ = (.ok (), s₁) := rfl
  refine ⟨s₁, ?_, htree⟩
  unfold publish
  rw [hitems, hcheck, hoff]
  dsimp only
  rw [ends.bind_of_ok hregistry, ends.bind_of_ok (hskipped _), ends.bind_of_ok (hskipped _)]
  exact hskipped _

/-- Where no check is asked for, what was made is published if the registry can be written, and the
items and pages as far as they are asked for. -/
theorem exists_publish {place : Place}
    (hcheck : options.validated.getD settings.validated = false)
    (htakes : s.tree.takes (Output.registryFile settings.registryPath) = true)
    (hwritable : Output.canWrite product.registry.document = true)
    (hitems : settings.withItems = true → ∀ i ∈ product.registry.items,
      Output.canWriteItem s.tree settings.registryPath i = true)
    (hfolder : s.tree.find (settings.registryPath.child Output.pagesFolder) = .ok (.folder place))
    (hpages : ∀ entry ∈ Output.described product.stories product.registry.items,
      Output.canWritePage s.tree (settings.registryPath.child Output.pagesFolder) entry.1 entry.2 =
        true) :
    ∃ s', ends (publish settings options product) s = (.ok (), s') := by
  obtain ⟨s₁, hregistry, htree⟩ := Output.exists_writeRegistry htakes hwritable
  have hopen : FileTree.AsOpen s.tree s₁.tree := by
    rw [htree]
    exact FileTree.asOpen_putText htakes _
  obtain ⟨s₂, hwritten, hopen'⟩ : ∃ s₂, ends (Run.when settings.withItems
      (Output.writeItems settings.registryPath product.registry.items)) s₁ = (.ok (), s₂) ∧
        FileTree.AsOpen s₁.tree s₂.tree := by
    cases hasked : settings.withItems with
    | false => exact ⟨s₁, rfl, refl_of _ s₁.tree⟩
    | true =>
      refine Output.exists_writeItems fun i hi => ?_
      obtain ⟨htaken, hitem⟩ := Bool.and_eq_true_iff.1 (hitems hasked i hi)
      exact Bool.and_eq_true_iff.2 ⟨hopen.takes _ htaken, hitem⟩
  obtain ⟨s₃, hdone⟩ : ∃ s₃, ends (Run.when (options.withPages.getD settings.withExamples)
      (Output.writePages settings.registryPath product.stories product.registry.items)) s₂ =
        (.ok (), s₃) := by
    have hready := trans_of _ hopen hopen'
    cases options.withPages.getD settings.withExamples with
    | false => exact ⟨s₂, rfl⟩
    | true =>
      exact Output.exists_writePages (hready.folders _ _ hfolder) fun entry hentry =>
        Output.canWritePage_of_asOpen (hpages entry hentry) hready
  refine ⟨s₃, ?_⟩
  unfold publish
  rw [hcheck]
  dsimp only
  rw [ends.bind_of_ok hregistry, ends.bind_of_ok hwritten, ends.bind_of_ok hdone]
  rfl

/-- Where the registry and pages are asked for, they are written if each can be. -/
theorem exists_publish_pages {place : Place} (hitems : settings.withItems = false)
    (hcheck : options.validated.getD settings.validated = false)
    (htakes : s.tree.takes (Output.registryFile settings.registryPath) = true)
    (hwritable : Output.canWrite product.registry.document = true)
    (hfolder : s.tree.find (settings.registryPath.child Output.pagesFolder) = .ok (.folder place))
    (hpages : ∀ entry ∈ Output.described product.stories product.registry.items,
      Output.canWritePage s.tree (settings.registryPath.child Output.pagesFolder) entry.1 entry.2 =
        true) :
    ∃ s', ends (publish settings options product) s = (.ok (), s') :=
  exists_publish hcheck htakes hwritable (fun hasked => by simp [hitems] at hasked) hfolder hpages

/-- A run that finds story files, makes a registry of them and can publish it reports it. -/
theorem exists_report {paths : List String} {P : FileTree → Prop}
    (hfound : (ends (storyFiles settings options) s).1 = .ok paths) (hne : paths ≠ [])
    (hmade : (ends (Pipeline.run settings paths) s).1 = .ok product)
    (hpublish : ∀ t : Session, t.tree = s.tree →
      ∃ t', ends (publish settings options product) t = (.ok (), t') ∧ P t'.tree) :
    ∃ report s', ends (run settings options) s = (.ok report, s') ∧
      report.registry = some product.registry ∧
      report.success = (!product.registry.items.isEmpty) ∧ P s'.tree := by
  have hstart : ends (Run.note fun _ => {}) s = (.ok ⟨⟩, { s with report := {} }) := rfl
  have hlike : SameLookups settings s { s with report := {} } := .of_sameMemo ⟨rfl, rfl⟩
  obtain ⟨s₁, hpaths, hlike₁⟩ := (steady_storyFiles settings options).exists_ok hlike hfound
  obtain ⟨s₂, htold, hlike₂⟩ : ∃ t, ends (Run.tell .info
      ("Found " ++ toString paths.length ++ " story files")) s₁ = (.ok (), t) ∧
      SameLookups settings s t := ⟨_, rfl, trans_of _ hlike₁ (IsView.log s₁ _)⟩
  obtain ⟨s₃, hproduct, hlike₃⟩ := (Pipeline.steady_run paths).exists_ok hlike₂ hmade
  obtain ⟨s₄, hpublished, hleft⟩ := hpublish s₃ hlike₃.1
  have hproduced : ends (produce settings options paths) s₂ = (.ok product.registry, s₄) := by
    unfold produce
    rw [ends.bind_of_ok hproduct, ends.bind_of_ok hpublished]
    rfl
  have hupdated : ends (update settings options paths) s₁ =
      ends (conclude (.ok product.registry)) s₄ := by
    unfold update
    rw [if_neg (by simpa using hne), ends.bind_of_ok htold,
      ends.bind_of_ok (ends.attempt_eq _ s₂), hproduced]
  obtain ⟨s₅, hconcluded, hreport, htree⟩ : ∃ t, ends (conclude (.ok product.registry)) s₄ =
      (.ok (), t) ∧ t.report = completed s₄.report product.registry ∧ t.tree = s₄.tree :=
    ⟨_, rfl, rfl, rfl⟩
  refine ⟨s₅.report, s₅, ?_, ?_, ?_, ?_⟩
  · unfold run
    rw [ends.bind_of_ok hstart, ends.bind_of_ok hpaths,
      ends.bind_of_ok (hupdated.trans hconcluded)]
    rfl
  · rw [hreport]
    rfl
  · rw [hreport]
    rfl
  · rw [htree]
    exact hleft

end Sync

/-! ## Small projects -/

/-- The settings of a project that keeps its story files in one folder and its registry in another.
-/
def Settings.small (withPages : Bool) : Settings :=
  { Settings.ofRoot ⟨1, ["p"]⟩ with
    storybookPath := ⟨1, ["p"]⟩
    storiesPatterns := ["*.ts"]
    excludePatterns := []
    typeRules := []
    registryPath := ⟨1, ["r"]⟩
    withExamples := withPages
    withItems := false
    validated := false }

/-- The source of a story file that was last changed at a time. -/
def Stored.ofSource (source : String) (modified : Int) : Stored :=
  ⟨source.toUTF8.data.toList, modified⟩

/-- A project with the story files, before its registry is made. -/
def FileTree.small (stories : List (String × Stored)) : FileTree where
  here := ["p"]
  clock := 1
  folders := [["p"], ["r"], ["r", "examples"]]
  files := stories.map fun (name, content) => (["p", name], content)

end StoryRegistry
