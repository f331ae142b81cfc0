import StoryRegistry.Proofs.Session.Pages
import StoryRegistry.Proofs.Session.Pipeline
import StoryRegistry.Session.Export
import StoryRegistry.Session.Sync

/-!
# What a run publishes

A run that comes to a registry found story files, made the registry of them, and wrote it. No file
that is written after the registry is the file of the registry, so that it stays what was written.
-/

set_option autoImplicit false

namespace StoryRegistry

open Import (SameLookups SameRun)

namespace Output

theorem isPlain_registryFileName : Path.IsPlain Failure.registryFileName :=
  ⟨by decide, by decide, by decide, by decide⟩

theorem isPlain_pagesFolder : Path.IsPlain pagesFolder :=
  ⟨by decide, by decide, by decide, by decide⟩

/-- No file of an item, and no file of a page, is the file of the registry. -/
theorem place_ne_registryFile {folder p : Path} {i : Item} (hname : Schema.isItemName i.name = true)
    (hfree : i.name ≠ Assembly.reservedName)
    (hp : p = itemFile folder i ∨ IsPageOf (folder.child pagesFolder) i p) (t : FileTree) :
    t.placeOf p ≠ t.placeOf (registryFile folder) := by
  rcases hp with rfl | rfl | rfl
  · intro hplace
    have heq := FileTree.placeOf_child_injective
      (Schema.isPlain_of_isItemName hname (by decide)) isPlain_registryFileName hplace
    have hreserved : Failure.registryFileName = Assembly.reservedName ++ ".json" := by decide
    rw [hreserved] at heq
    exact hfree ((String.append_left_inj _).1 heq)
  · exact (FileTree.placeOf_child_ne isPlain_registryFileName isPlain_pagesFolder
      (Schema.isPlain_of_isItemName hname (by decide)) t folder).symm
  · exact (FileTree.placeOf_child_ne isPlain_registryFileName isPlain_pagesFolder
      (Schema.isPlain_of_isItemName hname (by decide)) t folder).symm

/-- The registry stays while items and pages are written. -/
theorem holds_registryFile {folder : Path} {items : List Item} {text : String} {s s' : Session}
    (hproper : ∀ i ∈ items, Schema.isItemName i.name = true ∧ i.name ≠ Assembly.reservedName)
    (htext : s.tree.Holds (registryFile folder) text)
    (hwrote : WroteAt (fun p => ∃ i ∈ items, p = itemFile folder i ∨
      IsPageOf (folder.child pagesFolder) i p) s s') :
    s'.tree.Holds (registryFile folder) text :=
  hwrote.holds htext fun _ ⟨i, hi, hp⟩ =>
    place_ne_registryFile (hproper i hi).1 (hproper i hi).2 hp s.tree

end Output

namespace Sync

variable {settings : Settings} {options : Options}

/-- Looking for the story files of a run is steady. -/
theorem steady_storyFiles {R : Session → Session → Prop} [IsView R] (settings : Settings)
    (options : Options) : Steady R (storyFiles settings options) := by
  refine (Discovery.steady_storyFiles settings).bind fun found => ?_
  cases options.since with
  | none => exact .pure _
  | some since =>
    exact (Discovery.steady_changedSince since found).bind fun _ => (Steady.tell _ _).bind fun _ =>
      .pure _

/-- Making and writing a registry leaves the registry that is reported. -/
theorem leaves_produce (paths : List String) :
    Leaves (WroteAt fun _ => True) (produce settings options paths) := by
  have hmade : Leaves (SameRun settings) (Pipeline.run settings paths) :=
    (Pipeline.steady_run paths).leaves
  have hall {files : Path → Prop} (s s' : Session) (h : WroteAt files s s') :
      WroteAt (fun _ => True) s s' := h.mono fun _ _ => trivial
  refine (hmade.mono fun _ _ h => .of_sameReported h.2).bind fun product => ?_
  refine Leaves.bind ?_ fun _ => Leaves.pure product.registry
  exact ((Output.leaves_writeRegistry _ _).mono hall).bind fun _ =>
    (Leaves.when _ ((Output.leaves_writeItems _ _).mono hall)).bind fun _ =>
      (Leaves.when _ ((Output.leaves_writePages _ _ _).mono hall)).bind fun _ =>
        Leaves.when _ ((Output.steady_checkWritten _).leaves_wroteAt _)

/-- What was made is on disk: the registry in its file and, if pages are asked for, the pages as
they were written. -/
theorem publish_ok {product : Pipeline.Product} {s s' : Session}
    (hproper : ∀ i ∈ product.registry.items,
      Schema.isItemName i.name = true ∧ i.name ≠ Assembly.reservedName)
    (h : ends (publish settings options product) s = (.ok (), s')) :
    s'.tree.Holds (Output.registryFile settings.registryPath)
        (Output.jsonText product.registry.document) ∧
      (options.withPages.getD settings.withExamples = true →
        ∃ t t', ends (Output.writePages settings.registryPath product.stories
          product.registry.items) t = (.ok (), t') ∧ s'.tree = t'.tree) := by
  obtain ⟨⟨⟩, s₁, hregistry, h₁⟩ := ends.of_bind h
  obtain ⟨⟨⟩, s₂, hitems, h₂⟩ := ends.of_bind h₁
  obtain ⟨⟨⟩, s₃, hpages, hcheck⟩ := ends.of_bind h₂
  have hsame := (Steady.when (R := SameTree) (options.validated.getD settings.validated)
    (Output.steady_checkWritten settings.registryPath)).leaves s₃
  rw [hcheck] at hsame
  refine ⟨?_, fun hasked => ⟨s₂, s₃, ?_, hsame⟩⟩
  · -- the registry is written first and has to outlast the items and the pages
    have hwroteItems := (Leaves.when settings.withItems
      (Output.leaves_writeItems settings.registryPath product.registry.items)) s₁
    have hwrotePages := (Leaves.when (options.withPages.getD settings.withExamples)
      (Output.leaves_writePages settings.registryPath product.stories product.registry.items)) s₂
    rw [hitems] at hwroteItems
    rw [hpages] at hwrotePages
    rw [show s'.tree = s₃.tree from hsame]
    refine Output.holds_registryFile hproper (Output.holds_writeRegistry hregistry)
      (trans_of (WroteAt _) (hwroteItems.mono ?_) (hwrotePages.mono ?_))
    · rintro p ⟨i, hi, hp⟩
      exact ⟨i, hi, Or.inl hp⟩
    · rintro p ⟨i, hi, hp⟩
      exact ⟨i, hi, Or.inr hp⟩
  · rw [hasked] at hpages
    exact hpages

/-- What was made and written is what the pipeline made. -/
theorem produce_ok {paths : List String} {r : Registry} {s s' : Session}
    (h : ends (produce settings options paths) s = (.ok r, s')) :
    ∃ product s₁, ends (Pipeline.run settings paths) s = (.ok product, s₁) ∧
      ends (publish settings options product) s₁ = (.ok (), s') ∧ product.registry = r := by
  obtain ⟨product, s₁, hmade, h₁⟩ := ends.of_bind h
  obtain ⟨⟨⟩, s₂, hpublished, h₂⟩ := ends.of_bind h₁
  cases h₂
  exact ⟨product, s₁, hmade, hpublished, rfl⟩

/-- What is concluded from a failure says of the registry what was said before. -/
theorem outcome_of_conclude_error {e : Failure} {s s' : Session}
    (h : ends (conclude (.error e)) s = (.ok (), s')) : s'.report.outcome = s.report.outcome := by
  obtain ⟨⟨⟩, t, hreported, h⟩ := ends.of_bind h
  obtain ⟨⟨⟩, t', htold, h⟩ := ends.of_bind h
  cases h
  have hsame := (Steady.when (R := SameReported) (!e.isReported) (.throw e)).leaves s
  rw [hreported] at hsame
  cases htold
  exact hsame.2

/-- Bringing a registry in step with story files comes to none if there are no files, and to neither
success nor a registry if it cannot be made; otherwise it was made and written. -/
theorem update_cases {paths : List String} {s s' : Session}
    (h : ends (update settings options paths) s = (.ok (), s'))
    (hfresh : s.report.outcome = (false, none)) :
    (paths = [] ∧ s'.report.registry = none) ∨ s'.report.outcome = (false, none) ∨
      ∃ r s₁ t, SameLookups settings s s₁ ∧ ends (produce settings options paths) s₁ = (.ok r, t) ∧
        s'.tree = t.tree ∧ s'.report.outcome = (!r.items.isEmpty, some r) := by
  unfold update at h
  split at h
  · rename_i hempty
    obtain ⟨⟨⟩, s₁, htold, hnoted⟩ := ends.of_bind h
    cases htold
    cases hnoted
    exact .inl ⟨by simpa using hempty, (Prod.ext_iff.1 hfresh).2⟩
  · obtain ⟨⟨⟩, s₁, htold, hrest⟩ := ends.of_bind h
    rw [ends.bind_of_ok (ends.attempt_eq _ s₁)] at hrest
    have hlike := (Steady.tell (R := SameRun settings) .info
      ("Found " ++ toString paths.length ++ " story files")).leaves s
    have hwrote := @leaves_produce settings options paths s₁
    rw [htold] at hlike
    cases hproduced : ends (produce settings options paths) s₁ with
    | mk outcome t =>
      rw [hproduced] at hrest hwrote
      cases outcome with
      | error e =>
        refine .inr (.inl ?_)
        rw [outcome_of_conclude_error hrest, hwrote.outcome, hlike.2.2, hfresh]
      | ok made =>
        cases hrest
        exact .inr (.inr ⟨made, s₁, t, hlike.1, hproduced, rfl, rfl⟩)

/-- A run that ends looked for story files. Unless it found none, or comes to neither success nor a
registry, it made the registry that it reports and wrote it. -/
theorem run_cases {report : Report} {s s' : Session}
    (h : ends (run settings options) s = (.ok report, s')) :
    ∃ paths, (ends (storyFiles settings options) s).1 = .ok paths ∧
      ((paths = [] ∧ report.registry = none) ∨ report.outcome = (false, none) ∨
        ∃ product s₁ s₂ t, SameLookups settings s s₁ ∧
          ends (Pipeline.run settings paths) s₁ = (.ok product, s₂) ∧
          ends (publish settings options product) s₂ = (.ok (), t) ∧ s'.tree = t.tree ∧
          report.outcome = (!product.registry.items.isEmpty, some product.registry)) := by
  have hstart : ends (Run.note fun _ => {}) s = (.ok ⟨⟩, { s with report := {} }) := rfl
  rw [run, ends.bind_of_ok hstart] at h
  obtain ⟨paths, s₁, hfound, hrest⟩ := ends.of_bind h
  obtain ⟨⟨⟩, s₂, hupdate, hlast⟩ := ends.of_bind hrest
  rw [ends.bind_of_ok (ends.get_eq s₂), ends.pure_eq, Prod.mk.injEq, Except.ok.injEq] at hlast
  obtain ⟨rfl, rfl⟩ := hlast
  have hknown := (steady_storyFiles (R := SameLookups settings) settings options).leaves
    { s with report := {} }
  have hreported := (steady_storyFiles (R := SameReported) settings options).leaves
    { s with report := {} }
  rw [hfound] at hknown hreported
  have hpaths := (steady_storyFiles (R := SameTree) settings options).agrees
    (show SameTree s { s with report := {} } from rfl)
  rw [hfound] at hpaths
  refine ⟨paths, hpaths.symm, ?_⟩
  rcases update_cases hupdate hreported.2 with hnone | hfailed | ⟨r, s₃, t, hlike, hproduced, htree, hr⟩
  · exact .inl hnone
  · exact .inr (.inl hfailed)
  · obtain ⟨product, s₄, hmade, hpublished, rfl⟩ := produce_ok hproduced
    have hstarted : SameLookups settings s { s with report := {} } := .of_sameMemo ⟨rfl, rfl⟩
    exact .inr (.inr ⟨product, s₃, s₄, t, trans_of _ hstarted (trans_of _ hknown hlike), hmade,
      hpublished, htree, hr⟩)

/-- A run that reports a registry made it of the story files that it found, and wrote it. -/
theorem run_ok {report : Report} {r : Registry} {s s' : Session}
    (h : ends (run settings options) s = (.ok report, s')) (hr : report.registry = some r) :
    ∃ paths product s₁ s₂ t, (ends (storyFiles settings options) s).1 = .ok paths ∧
      SameLookups settings s s₁ ∧ ends (Pipeline.run settings paths) s₁ = (.ok product, s₂) ∧
      product.registry = r ∧ ends (publish settings options product) s₂ = (.ok (), t) ∧
      s'.tree = t.tree := by
  obtain ⟨paths, hpaths, ⟨-, hnone⟩ | hfailed |
    ⟨product, s₁, s₂, t, hlike, hmade, hpublished, htree, hmaking⟩⟩ := run_cases h
  · rw [hnone] at hr
    cases hr
  · rw [show report.registry = none from (Prod.ext_iff.1 hfailed).2] at hr
    cases hr
  · rw [show report.registry = some product.registry from (Prod.ext_iff.1 hmaking).2] at hr
    exact ⟨paths, product, s₁, s₂, t, hpaths, hlike, hmade, Option.some.inj hr, hpublished, htree⟩

end Sync

namespace Export

variable {settings : Settings} {options : Options}

/-- What an export makes is what the pipeline makes. -/
theorem produce_eq_ok {paths : List String} {product : Pipeline.Product} {s s' : Session}
    (h : ends (produce settings paths) s = (.ok product, s')) :
    ends (Pipeline.run settings paths) s = (.ok product, s') := by
  unfold produce at h
  rw [ends.bind_of_ok (ends.attempt_eq _ s)] at h
  cases hmade : ends (Pipeline.run settings paths) s with
  | mk outcome t =>
    rw [hmade] at h
    cases outcome with
    | ok made =>
      cases h
      rfl
    | error e =>
      dsimp only at h
      split at h <;> cases h

/-- An export that succeeds made the registry of all story files and, if pages are asked for, wrote
the pages last. -/
theorem run_ok {report : Report} {s s' : Session}
    (h : ends (run settings options) s = (.ok report, s')) :
    ∃ paths s₁ product s₂, (ends (Discovery.storyFiles settings) s).1 = .ok paths ∧
      SameLookups settings s s₁ ∧ ends (Pipeline.run settings paths) s₁ = (.ok product, s₂) ∧
      report.registry = some product.registry ∧
      (options.withPages = true → ∃ t t',
        ends (Output.writePages (options.output.getD settings.registryPath) product.stories
          product.registry.items) t = (.ok (), t') ∧ s'.tree = t'.tree) := by
  have hstart : ends (Run.note fun _ => {}) s = (.ok ⟨⟩, { s with report := {} }) := rfl
  rw [run, ends.bind_of_ok hstart] at h
  obtain ⟨paths, s₁, hfound, h₁⟩ := ends.of_bind h
  obtain ⟨product, s₂, hmade, h₂⟩ := ends.of_bind h₁
  obtain ⟨⟨⟩, s₃, hwritten, h₃⟩ := ends.of_bind h₂
  obtain ⟨⟨⟩, s₄, hpages, h₄⟩ := ends.of_bind h₃
  cases h₄
  have hknown := (Discovery.steady_storyFiles (R := SameLookups settings) settings).leaves
    { s with report := {} }
  have hpaths := (Discovery.steady_storyFiles (R := SameTree) settings).agrees
    (show SameTree s { s with report := {} } from rfl)
  rw [hfound] at hknown hpaths
  have hstarted : SameLookups settings s { s with report := {} } := .of_sameMemo ⟨rfl, rfl⟩
  refine ⟨paths, s₁, product, s₂, hpaths.symm, trans_of _ hstarted hknown, produce_eq_ok hmade, rfl,
    fun hasked => ⟨s₃, s₄, ?_, rfl⟩⟩
  rw [hasked] at hpages
  exact hpages

end Export

end StoryRegistry
