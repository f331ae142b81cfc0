import StoryRegistry.Proofs.Session.Outputs

/-!
# Runs that do not succeed

A run writes its files one after another. Where it cannot make a registry it changes no file. Where it
made one, it stops at the first file that cannot be written, if there is any: the files before it hold all
of their texts, and the others what they held (`Sync.changes_of_failure`). A registry without items is
written as any other, although the run does not succeed then.

* `FileTree.Puts` says that a tree differs from another one in texts that were put into files.
* `Writes` says what texts a step writes, and that it stops where it cannot write one of them. There is
  one lemma for each step that publishes something.
-/

set_option autoImplicit false

namespace StoryRegistry

/-! ## Texts in files -/

namespace FileTree

/-- The tree with texts in files, put there one after another. -/
def putTexts (t : FileTree) (writes : List (Path × String)) : FileTree :=
  writes.foldl (fun t w => t.putText w.1 w.2) t

theorem putTexts_append (t : FileTree) (writes more : List (Path × String)) :
    t.putTexts (writes ++ more) = (t.putTexts writes).putTexts more :=
  List.foldl_append

@[simp] theorem here_putTexts (t : FileTree) (writes : List (Path × String)) :
    (t.putTexts writes).here = t.here := by
  induction writes generalizing t with
  | nil => rfl
  | cons w rest ih => exact ih (t.putText w.1 w.2)

@[simp] theorem clock_putTexts (t : FileTree) (writes : List (Path × String)) :
    (t.putTexts writes).clock = t.clock := by
  induction writes generalizing t with
  | nil => rfl
  | cons w rest ih => exact ih (t.putText w.1 w.2)

/-- Between the trees the texts were put into files, one after another, and no file has changed
otherwise. -/
structure Puts (writes : List (Path × String)) (t t' : FileTree) : Prop where
  here : t'.here = t.here
  clock : t'.clock = t.clock
  files : t'.files = (t.putTexts writes).files

namespace Puts

variable {writes more : List (Path × String)} {t t' t'' : FileTree}

theorem putTexts (h : Puts writes t t') (more : List (Path × String)) :
    (t'.putTexts more).files = (t.putTexts (writes ++ more)).files := by
  rw [putTexts_append]
  have general : ∀ (more : List (Path × String)) (u u' : FileTree), u'.here = u.here →
      u'.clock = u.clock → u'.files = u.files → (u'.putTexts more).files = (u.putTexts more).files := by
    intro more
    induction more with
    | nil => exact fun _ _ _ _ hfiles => hfiles
    | cons w rest ih =>
      intro u u' hhere hclock hfiles
      apply ih (u.putText w.1 w.2) (u'.putText w.1 w.2) hhere hclock
      simp only [putText, putFile, placeOf, hhere, hclock, hfiles]
  exact general more _ _ (by rw [h.here, here_putTexts]) (by rw [h.clock, clock_putTexts]) h.files

theorem trans (h : Puts writes t t') (h' : Puts more t' t'') : Puts (writes ++ more) t t'' where
  here := h'.here.trans h.here
  clock := h'.clock.trans h.clock
  files := h'.files.trans (h.putTexts more)

theorem of_eq (h : t' = t) : Puts [] t t' := by
  rw [h]
  exact ⟨rfl, rfl, rfl⟩

instance : Std.Refl (Puts []) where
  refl _ := of_eq rfl

instance : IsTrans FileTree (Puts []) where
  trans _ _ _ h h' := h.trans h'

theorem putText (t : FileTree) (p : Path) (text : String) : Puts [(p, text)] t (t.putText p text) :=
  ⟨rfl, rfl, rfl⟩

end Puts

end FileTree

namespace Change

/-- Making folders changes no file. -/
theorem puts_folders (p : Path) : Leaves (FileTree.Puts []) (folders p) :=
  leaves_folders fun _ _ _ _ => ⟨rfl, rfl, rfl⟩

/-- Bytes are written, or nothing is changed. -/
theorem ends_write_cases (p : Path) (bytes : List UInt8) (t : FileTree) :
    ends (write p bytes) t = (.ok (), t.putFile (t.placeOf p) bytes) ∨
      ∃ e, ends (write p bytes) t = (.error e, t) := by
  unfold write
  cases hfind : t.find p with
  | error e =>
    rw [ends.bind_of_error (by rw [ends_find, hfind])]
    exact .inr ⟨e, rfl⟩
  | ok spot =>
    rw [ends.bind_of_ok (by rw [ends_find, hfind])]
    have hspot := FileTree.spot_of_find hfind
    cases spot with
    | folder place => exact .inr ⟨_, rfl⟩
    | file place content =>
      obtain ⟨rfl, -⟩ := FileTree.spot_eq_file hspot.symm
      exact .inl rfl
    | free place =>
      obtain ⟨rfl, -⟩ := FileTree.spot_eq_free hspot.symm
      exact .inl rfl

/-- A text is written, or nothing is changed, unless the text has no UTF-8 form. -/
theorem ends_writeText_cases (p : Path) (text : String) (t : FileTree) :
    ends (writeText p text) t = (.ok (), t.putText p text) ∨
      (∃ e, ends (writeText p text) t = (.error e, t)) ∨
        (ends (writeText p text) t).1 = .error .unwritable := by
  unfold writeText
  by_cases hwritable : Text.isWritable text = true
  · rw [Text.Utf8.encode?_eq_some hwritable]
    exact (ends_write_cases p _ t).imp_right .inl
  · rw [Text.Utf8.encode?, if_neg hwritable]
    obtain hwritten | ⟨e, hrefused⟩ := ends_write_cases p [] t
    · exact .inr (.inr (by rw [ends.bind_of_ok hwritten]; rfl))
    · exact .inr (.inl ⟨e, ends.bind_of_error hrefused⟩)

end Change

/-! ## Steps that write -/

/-- The failure is a fault of the file tree. -/
def Failure.IsFault (e : Failure) : Prop := ∃ cause : FileError, e = .file cause ∧ cause.isFault = true

/-- A failure with a file that is reported is a fault. -/
theorem Failure.isFault_of_isReported {cause : FileError}
    (h : (Failure.file cause).isReported = true) : (Failure.file cause).IsFault :=
  ⟨cause, rfl, h⟩

/-- The step writes the texts, each into its file. A failure that is reported is a fault of the file
tree at one of the texts; those before it are written then. -/
structure Writes (writes : List (Path × String)) (x : Run Unit) : Prop where
  puts : ∀ {s s'}, ends x s = (.ok (), s') → FileTree.Puts writes s.tree s'.tree
  stops : ∀ {s s' e}, ends x s = (.error e, s') → e.isReported = true →
    ∃ done rest, writes = done ++ rest ∧ rest ≠ [] ∧ FileTree.Puts done s.tree s'.tree ∧ e.IsFault

/-- The step writes nothing, and a failure that is reported is a fault of the file tree. -/
def Prepares {α : Type} (x : Run α) : Prop :=
  Leaves (fun s s' => FileTree.Puts [] s.tree s'.tree) x ∧
    FailsWith (fun e => e.isReported = true → e.IsFault) x

theorem Run.prepares_folders (p : Path) : Prepares (Run.change (Change.folders p)) := by
  constructor
  · intro s
    rw [ends_change]
    exact Change.puts_folders p s.tree
  · intro s e h hreported
    rw [ends_change] at h
    cases hend : (ends (Change.folders p) s.tree).1 with
    | ok a =>
      rw [hend] at h
      cases h
    | error cause =>
      rw [hend] at h
      cases h
      exact Failure.isFault_of_isReported hreported

namespace Writes

variable {writes more : List (Path × String)} {x y : Run Unit}

/-- A step that leaves the file tree, and does not fail, writes nothing. -/
theorem nothing (h : ∀ s, (ends x s).2.tree = s.tree) (hfails : FailsWith (·.isReported = false) x) :
    Writes [] x where
  puts := by
    intro s s' hend
    apply FileTree.Puts.of_eq
    have htree := h s
    rwa [hend] at htree
  stops := by
    intro s s' e hend hreported
    rw [hfails s e (congrArg Prod.fst hend)] at hreported
    cases hreported

theorem tell (level : Level) (message : String) : Writes [] (Run.tell level message) :=
  nothing (fun _ => rfl) (.modify _)

theorem pure : Writes [] (Pure.pure ()) := nothing (fun _ => rfl) (.pure ())

/-- Two steps write what the one writes and then what the other writes. -/
theorem bind (hx : Writes writes x) (hy : Writes more y) : Writes (writes ++ more) (x >>= fun _ => y) where
  puts := by
    intro s s' h
    obtain ⟨⟨⟩, t, hfirst, hsecond⟩ := ends.of_bind h
    exact (hx.puts hfirst).trans (hy.puts hsecond)
  stops := by
    intro s s' e h hreported
    rw [ends.bind_eq] at h
    cases hfirst : ends x s with
    | mk r t =>
      rw [hfirst] at h
      cases r with
      | error cause =>
        cases h
        obtain ⟨done, rest, rfl, hrest, hputs, hfault⟩ := hx.stops hfirst hreported
        exact ⟨done, rest ++ more, List.append_assoc _ _ _, by simp [hrest], hputs, hfault⟩
      | ok u =>
        obtain ⟨done, rest, rfl, hrest, hputs, hfault⟩ := hy.stops h hreported
        exact ⟨writes ++ done, rest, (List.append_assoc _ _ _).symm, hrest,
          (hx.puts hfirst).trans hputs, hfault⟩

/-- What is written after a preparation is all that is written. -/
theorem after {α : Type} {x : Run α} {f : α → Run Unit} (hx : Prepares x) (hne : writes ≠ [])
    (hf : ∀ a, Writes writes (f a)) : Writes writes (x >>= f) where
  puts := by
    intro s s' h
    obtain ⟨a, t, hfirst, hsecond⟩ := ends.of_bind h
    have hputs := hx.1 s
    rw [hfirst] at hputs
    exact hputs.trans ((hf a).puts hsecond)
  stops := by
    intro s s' e h hreported
    have hputs := hx.1 s
    rw [ends.bind_eq] at h
    cases hfirst : ends x s with
    | mk r t =>
      rw [hfirst] at h hputs
      cases r with
      | error cause =>
        cases h
        exact ⟨[], writes, rfl, hne, hputs, hx.2 s e (congrArg Prod.fst hfirst) hreported⟩
      | ok a =>
        obtain ⟨done, rest, rfl, hrest, hputs', hfault⟩ := (hf a).stops h hreported
        exact ⟨done, rest, rfl, hrest, hputs.trans hputs', hfault⟩

theorem when (asked : Bool) (hx : Writes writes x) :
    Writes (if asked then writes else []) (Run.when asked x) := by
  cases asked with
  | false => exact pure
  | true => exact hx

/-- Steps for the items of a list write what each of them writes, one after another. -/
theorem forM {α : Type} {f : α → Run PUnit} {texts : α → List (Path × String)} {items : List α}
    (h : ∀ a ∈ items, Writes (texts a) (f a)) : Writes (items.flatMap texts) (items.forM f) := by
  induction items with
  | nil => exact pure
  | cons a rest ih =>
    rw [List.flatMap_cons]
    exact (h a List.mem_cons_self).bind (ih fun b hb => h b (List.mem_cons_of_mem _ hb))

end Writes

theorem Run.writes_writeText (p : Path) (text : String) :
    Writes [(p, text)] (Run.change (Change.writeText p text)) where
  puts := by
    intro s s' h
    rw [ends_change] at h
    obtain hwritten | ⟨e, hrefused⟩ | hunwritable := Change.ends_writeText_cases p text s.tree
    · rw [hwritten] at h
      cases h
      exact FileTree.Puts.putText _ _ _
    · rw [hrefused] at h
      cases h
    · rw [hunwritable] at h
      cases h
  stops := by
    intro s s' e h hreported
    rw [ends_change] at h
    obtain hwritten | ⟨cause, hrefused⟩ | hunwritable := Change.ends_writeText_cases p text s.tree
    · rw [hwritten] at h
      cases h
    · rw [hrefused] at h
      cases h
      exact ⟨[], _, rfl, by simp, FileTree.Puts.of_eq rfl, Failure.isFault_of_isReported hreported⟩
    · rw [hunwritable] at h
      cases h
      cases hreported

/-! ## Pages that cannot be made -/

/-- The computation fails with nothing that a run reports. -/
def Unreported {α : Type} (x : Except Failure α) : Prop := ∀ e, x = .error e → e.isReported = false

namespace Unreported

variable {α β : Type}

theorem ok (a : α) : Unreported (.ok a) := FailsOnly.ok a

theorem error {e : Failure} (h : e.isReported = false) : Unreported (.error e : Except Failure α) :=
  FailsOnly.error h

theorem bind {x : Except Failure α} {f : α → Except Failure β} (hx : Unreported x)
    (hf : ∀ a, Unreported (f a)) : Unreported (x >>= f) :=
  FailsOnly.bind hx fun a _ => hf a

theorem mapM {f : α → Except Failure β} (h : ∀ a, Unreported (f a)) (items : List α) :
    Unreported (items.mapM f) :=
  FailsOnly.mapM fun a _ => h a

end Unreported

namespace Docs

theorem unreported_entry (name : String) (document : Table Value) :
    Unreported (entry name document) := by
  unfold entry
  split
  · exact .ok _
  · exact .error rfl

theorem unreported_packages (v : Value) : Unreported (packages v) := by
  unfold packages
  split
  · exact .ok _
  · split
    · refine .mapM (fun item => ?_) _
      split
      · exact .ok _
      · exact .error rfl
    · exact .ok _
    · exact .ok _
    · exact .error rfl

theorem unreported_fileEntries (file : Value) : Unreported (fileEntries file) := by
  unfold fileEntries
  split
  · exact .ok _
  · exact .error rfl

theorem unreported_filePath (entries : Table Value) : Unreported (filePath entries) := by
  refine (unreported_entry _ _).bind fun v => ?_
  split
  · exact .ok _
  · exact .error rfl

theorem unreported_files (v : Value) : Unreported (files v) := by
  unfold files
  split
  · exact .ok _
  · split
    · exact .ok _
    · exact .error rfl
    · exact .error rfl
    · exact .error rfl

theorem unreported_componentFile? (shipped : List Value) : Unreported (componentFile? shipped) := by
  induction shipped with
  | nil => exact .ok none
  | cons file rest ih =>
    rw [componentFile?]
    refine (unreported_fileEntries file).bind fun entries => ?_
    split
    · exact .error rfl
    · exact .error rfl
    · split
      · exact .ok _
      · exact ih

theorem unreported_hookImports (shipped : List Value) : Unreported (hookImports shipped) := by
  induction shipped with
  | nil => exact .ok []
  | cons file rest ih =>
    rw [hookImports]
    refine (unreported_fileEntries file).bind fun entries => ?_
    split
    · exact (unreported_filePath entries).bind fun path => ih.bind fun more => .ok _
    · exact ih

theorem unreported_imports (document : Table Value) : Unreported (imports document) := by
  refine (unreported_files _).bind fun shipped => ?_
  refine (unreported_componentFile? shipped).bind fun found => ?_
  cases found with
  | none => exact (unreported_hookImports shipped).bind fun hooks => .ok _
  | some entries =>
    refine (unreported_filePath entries).bind fun path => ?_
    refine (unreported_entry _ _).bind fun name => ?_
    exact (unreported_hookImports shipped).bind fun hooks => .ok _

/-- A page that cannot be made fails a run, which does not report it. -/
theorem unreported_page (f : StoryFile) (document : Table Value) :
    Unreported (Page.ofItem f document) := by
  refine Unreported.bind ?_ fun commands => (unreported_imports document).bind fun lines => ?_
  · refine (unreported_entry _ _).bind fun name => (unreported_packages _).bind fun needed => ?_
    split
    · exact .ok _
    · exact .ok _
  · split
    · exact .error rfl
    · exact .ok _

end Docs

/-! ## Publishing -/

namespace Output

variable {folder : Path}

theorem writes_writeJson (p : Path) (v : Value) : Writes [(p, jsonText v)] (writeJson p v) := by
  refine Writes.after (Run.prepares_folders _) (by simp) fun _ => ?_
  refine Writes.after ⟨?_, ?_⟩ (by simp) fun _ => Run.writes_writeText p _
  · exact Leaves.when _ (Leaves.throw _)
  · exact FailsWith.when fun _ => .throw nofun

/-- The text of the registry. -/
def registryText (folder : Path) (r : Registry) : Path × String :=
  (registryFile folder, jsonText r.document)

/-- The text of an item. -/
def itemText (folder : Path) (i : Item) : Path × String := (itemFile folder i, jsonText i.document)

/-- The texts of the page that a story file gives an item. -/
def pageTexts (folder : Path) (f : StoryFile) (i : Item) : List (Path × String) :=
  match Docs.Page.ofItem f i.entries with
  | .ok page => [(pageFile folder i, page.text), (examplesFile folder i, jsonText page.document)]
  | .error _ => []

theorem writes_writeRegistry (folder : Path) (r : Registry) :
    Writes [registryText folder r] (writeRegistry folder r) :=
  (writes_writeJson _ _).bind (.tell _ _)

theorem writes_writeItems (folder : Path) (items : List Item) :
    Writes (items.map (itemText folder)) (writeItems folder items) := by
  have hitems := Writes.forM fun i (_ : i ∈ items) => writes_writeJson (itemFile folder i) i.document
  have hwrites := hitems.bind (Writes.tell .debug
    ("Wrote " ++ toString items.length ++ " item documents to " ++ folder.toText))
  rw [List.append_nil, ← List.map_eq_flatMap] at hwrites
  exact hwrites

theorem writes_writePage (folder : Path) (f : StoryFile) (i : Item) :
    Writes (pageTexts folder f i) (writePage folder f i) := by
  unfold writePage pageTexts
  cases hpage : Docs.Page.ofItem f i.entries with
  | error e =>
    refine Writes.nothing (fun s => rfl) fun s cause h => ?_
    cases h
    exact Docs.unreported_page f i.entries e hpage
  | ok page =>
    have hmade : Run.ofExcept (.ok page) = (Pure.pure page : Run Docs.Page) := rfl
    rw [hmade, pure_bind]
    refine Writes.after (Run.prepares_folders _) (by simp) fun _ => ?_
    exact (Run.writes_writeText _ _).bind (writes_writeJson _ _)

theorem writes_writePages (folder : Path) (stories : List StoryFile) (items : List Item) :
    Writes ((described stories items).flatMap fun (f, i) => pageTexts (folder.child pagesFolder) f i)
      (writePages folder stories items) := by
  have hpages := Writes.forM fun entry (_ : entry ∈ described stories items) =>
    writes_writePage (folder.child pagesFolder) entry.1 entry.2
  have hwrites := hpages.bind (Writes.tell .info ("Generated examples for " ++
    toString (described stories items).length ++ " components in " ++
      (folder.child pagesFolder).toText))
  rw [List.append_nil] at hwrites
  exact hwrites

end Output

namespace Sync

open Import (SameLookups)

variable {settings : Settings} {options : Options} {product : Pipeline.Product} {s s' : Session}

/-- The texts that a run writes for what the pipeline made, in their order. -/
def texts (settings : Settings) (options : Options) (product : Pipeline.Product) :
    List (Path × String) :=
  Output.registryText settings.registryPath product.registry ::
    ((if settings.withItems then
        product.registry.items.map (Output.itemText settings.registryPath) else []) ++
      if options.withPages.getD settings.withExamples then
        (Output.described product.stories product.registry.items).flatMap fun (f, i) =>
          Output.pageTexts (settings.registryPath.child Output.pagesFolder) f i
      else [])

/-- Publishing ends with the check of what was written. -/
theorem publish_eq (settings : Settings) (options : Options) (product : Pipeline.Product) :
    publish settings options product =
      publish settings { options with validated := some false } product >>= fun _ =>
        Run.when (options.validated.getD settings.validated)
          (Output.checkWritten settings.registryPath) := by
  have hskip : Run.when ((some false).getD settings.validated)
      (Output.checkWritten settings.registryPath) = Pure.pure () := rfl
  unfold publish
  dsimp only
  rw [hskip]
  simp only [bind_assoc, pure_bind]

/-- Publishing without the check writes these texts. -/
theorem writes_publish (settings : Settings) (options : Options) (product : Pipeline.Product) :
    Writes (texts settings options product)
      (publish settings { options with validated := some false } product) := by
  have hwrites := (Output.writes_writeRegistry settings.registryPath product.registry).bind
    ((Writes.when settings.withItems
        (Output.writes_writeItems settings.registryPath product.registry.items)).bind
      ((Writes.when (options.withPages.getD settings.withExamples)
        (Output.writes_writePages settings.registryPath product.stories
          product.registry.items)).bind Writes.pure))
  rw [List.append_nil] at hwrites
  exact hwrites

/-- Publishing what the pipeline made writes all of these texts, or stops at one of them. The check that
comes last does not fail. -/
theorem puts_of_publish
    (hregistry : Pipeline.registryIn settings s product.stories = .ok product.registry)
    {t t' : Session} {outcome : Except Failure Unit}
    (h : ends (publish settings options product) t = (outcome, t'))
    (hreported : ∀ e, outcome = .error e → e.isReported = true) :
    ∃ done rest, texts settings options product = done ++ rest ∧
      FileTree.Puts done t.tree t'.tree ∧
      ((∃ u, outcome = .ok u) ∧ rest = [] ∨ ∃ e, outcome = .error e ∧ rest ≠ [] ∧ e.IsFault) := by
  have hwrites := writes_publish settings options product
  cases outcome with
  | ok u =>
    rw [publish_eq] at h
    obtain ⟨⟨⟩, t₁, hwritten, hcheck⟩ := ends.of_bind h
    have hsame := (Steady.when (R := SameTree) (options.validated.getD settings.validated)
      (Output.steady_checkWritten settings.registryPath)).leaves t₁
    rw [hcheck] at hsame
    refine ⟨_, [], (List.append_nil _).symm, ?_, .inl ⟨⟨u, rfl⟩, rfl⟩⟩
    rw [show t'.tree = t₁.tree from hsame]
    exact hwrites.puts hwritten
  | error e =>
    cases hwritten : ends (publish settings { options with validated := some false } product) t with
    | mk r t₁ =>
      cases r with
      | ok u =>
        have hproper := (Assembly.names_of_registry hregistry).2
        obtain ⟨t₂, hchecked, -⟩ := exists_publish_checked hproper
          (Assembly.ofDocument_document hregistry) hwritten options.validated
        have hboth : (Except.error e, t') = (Except.ok (), t₂) := h.symm.trans hchecked
        cases hboth
      | error cause =>
        rw [publish_eq, ends.bind_of_error hwritten] at h
        cases h
        obtain ⟨done, rest, htexts, hrest, hputs, hfault⟩ :=
          hwrites.stops hwritten (hreported e rfl)
        exact ⟨done, rest, htexts, hputs, .inr ⟨e, rfl, hrest, hfault⟩⟩

/-! ## Runs -/

/-- Making a registry changes no file if it fails. If it was made, writing it stops after some of the
texts. -/
theorem puts_of_produce {paths : List String} {outcome : Except Failure Registry}
    (h : ends (produce settings options paths) s = (outcome, s'))
    (hreported : ∀ e, outcome = .error e → e.isReported = true) :
    (∃ e, (ends (Pipeline.run settings paths) s).1 = .error e ∧ outcome = .error e ∧
        s'.tree = s.tree) ∨
      ∃ product done rest, (ends (Pipeline.run settings paths) s).1 = .ok product ∧
        texts settings options product = done ++ rest ∧ FileTree.Puts done s.tree s'.tree ∧
        (outcome = .ok product.registry ∧ rest = [] ∨
          ∃ e, outcome = .error e ∧ rest ≠ [] ∧ e.IsFault) := by
  have hsteady : Steady (SameLookups settings) (Pipeline.run settings paths) :=
    Pipeline.steady_run paths
  have hlooks := hsteady.leaves s
  unfold produce at h
  cases hmade : ends (Pipeline.run settings paths) s with
  | mk r s₁ =>
    rw [hmade] at hlooks
    have htree : s₁.tree = s.tree := hlooks.1
    cases r with
    | error e =>
      rw [ends.bind_of_error hmade] at h
      cases h
      exact .inl ⟨e, rfl, rfl, htree⟩
    | ok product =>
      rw [ends.bind_of_ok hmade, ends.bind_eq] at h
      have hregistry := (Pipeline.registry_of_run (refl_of _ s) hmade).2
      refine .inr ⟨product, ?_⟩
      cases hpublished : ends (publish settings options product) s₁ with
      | mk published t =>
        rw [hpublished] at h
        cases published with
        | ok u =>
          cases h
          obtain ⟨done, rest, htexts, hputs, ⟨-, hrest⟩ | ⟨e, he, -⟩⟩ :=
            puts_of_publish hregistry hpublished nofun
          · rw [htree] at hputs
            exact ⟨done, rest, rfl, htexts, hputs, .inl ⟨rfl, hrest⟩⟩
          · cases he
        | error cause =>
          cases h
          obtain ⟨done, rest, htexts, hputs, ⟨⟨u, hu⟩, -⟩ | ⟨e, he, hstop⟩⟩ :=
            puts_of_publish hregistry hpublished fun e he => hreported e (by cases he; rfl)
          · cases hu
          · cases he
            rw [htree] at hputs
            exact ⟨done, rest, rfl, htexts, hputs, .inr ⟨cause, rfl, hstop⟩⟩

end Sync

/-! ## A project whose one item may not be made -/

namespace OnlyReserved

open Output (registryFile jsonText)

/-- The settings of a project that wants nothing but its registry. -/
def settings : Settings := Settings.small false

/-- A project with a registry, and with the story file of a component that goes by the reserved name. -/
def project : Session where
  tree := { FileTree.small [] with
    files := [(["p", "a.ts"], Stored.ofSource "export default {component:Registry}" 1),
      (["r", "registry.json"], Stored.ofSource "old" 1)] }

theorem holds_registryFile : project.tree.Holds (registryFile settings.registryPath) "old" := by
  have hfile : project.tree.file (registryFile settings.registryPath) =
      .ok (Stored.ofSource "old" 1) := by decide +kernel
  exact ⟨_, hfile, Text.Utf8.encode?_eq_some (by decide)⟩

/-- The registry can be written, has no items, and is not what the file of the registry holds. -/
def isEmptied (product : Pipeline.Product) : Bool :=
  Output.canWrite product.registry.document && product.registry.items.isEmpty &&
    jsonText product.registry.document != "old"

/-- A run over the story file makes a registry without items and puts it in the place of the old one. -/
theorem exists_run : ∃ report s', ends (Sync.run settings {}) project = (.ok report, s') ∧
    report.success = false ∧ ¬s'.tree.Holds (registryFile settings.registryPath) "old" := by
  have hfound : ((ends (Sync.storyFiles settings {}) project).1.toOption.any
      (· == ["/p/a.ts"])) = true := by decide +kernel
  have hmade : ((ends (Pipeline.run settings ["/p/a.ts"]) project).1.toOption.any isEmptied) = true := by
    decide +kernel
  obtain ⟨product, hproduct, hemptied⟩ := exists_ok_of_any hmade
  unfold isEmptied at hemptied
  simp only [Bool.and_eq_true, List.isEmpty_iff, bne_iff_ne] at hemptied
  obtain ⟨⟨hwritable, hempty⟩, hne⟩ := hemptied
  have htakes : project.tree.takes (registryFile settings.registryPath) = true := by decide +kernel
  have hpublish (t : Session) (htree : t.tree = project.tree) :
      ∃ t', ends (Sync.publish settings {} product) t = (.ok (), t') ∧
        t'.tree.Holds (registryFile settings.registryPath)
          (jsonText product.registry.document) := by
    rw [← htree] at htakes
    obtain ⟨t', hend, -⟩ := @Sync.exists_publish_registry settings {} product t rfl rfl rfl htakes
      hwritable
    exact ⟨t', hend, (Sync.publish_ok (by simp [hempty]) hend).1⟩
  obtain ⟨report, s', hend, -, hsuccess, hheld⟩ :=
    Sync.exists_report (P := fun t => t.Holds (registryFile settings.registryPath)
      (jsonText product.registry.document)) (eq_ok_of_any hfound) (by simp) hproduct hpublish
  refine ⟨report, s', hend, ?_, fun hold => hne (hheld.unique hold)⟩
  rw [hsuccess, hempty]
  rfl

end OnlyReserved

end StoryRegistry
