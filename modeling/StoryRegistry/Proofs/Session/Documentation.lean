import StoryRegistry.Proofs.Session.Progress

/-!
# Which story file documents an item

The item of a registry is that of the first story file that gives one under its name. Its page is
that of the last story file whose component goes by the name, whether or not this file gives an
item. The two are the same page only by chance, unless one file alone claims the name.

* What a run writes last are its pages (`Publishing.run_ok`), one for each story file that claims
  the name of an item, in the order of the files.
* Pages of other items go into other files, so that of the pages of one item the last one stays
  (`Output.documents_writePages`).
* A file holds one text. The owner's page is there exactly if it is the same as the last claimant's
  (`Output.Documents.iff_samePage`), and a project is given in which it is not.
-/

set_option autoImplicit false

namespace StoryRegistry

/-- A run that writes pages, with the step by which it looks for story files and the folder into
which it writes. -/
inductive Publishing (settings : Settings) : Run (List String) → Path → Run Report → Prop where
  /-- Keeping the registry in step with its story files, with pages. -/
  | syncing (options : Sync.Options) (h : options.withPages.getD settings.withExamples = true) :
    Publishing settings (Sync.storyFiles settings options) settings.registryPath
      (Sync.run settings options)
  /-- Exporting the registry, with pages. -/
  | exporting (options : Export.Options) (h : options.withPages = true) :
    Publishing settings (Discovery.storyFiles settings)
      (options.output.getD settings.registryPath) (Export.run settings options)

namespace Publishing

variable {settings : Settings} {look : Run (List String)} {folder : Path} {run : Run Report}

/-- A run that comes to a registry made it of the story files that it found, and wrote its pages
last. -/
theorem run_ok (hrun : Publishing settings look folder run) {s s' : Session} {report : Report}
    {r : Registry} (hend : ends run s = (.ok report, s')) (hr : report.registry = some r) :
    ∃ paths, (ends look s).1 = .ok paths ∧
      Pipeline.registryIn settings s (Stories.allInSession s paths) = .ok r ∧
      ∃ t t', ends (Output.writePages folder (Stories.allInSession s paths) r.items) t =
        (.ok (), t') ∧ s'.tree = t'.tree := by
  cases hrun with
  | syncing options h =>
    obtain ⟨paths, product, s₁, s₂, t, hpaths, hlike, hmade, rfl, hpublished, htree⟩ :=
      Sync.run_ok hend hr
    obtain ⟨hstories, hregistry⟩ := Pipeline.registry_of_run hlike hmade
    obtain ⟨u, u', hwritten, hsame⟩ :=
      (Sync.publish_ok (Assembly.names_of_registry hregistry).2 hpublished).2 h
    rw [hstories] at hregistry hwritten
    exact ⟨paths, hpaths, hregistry, u, u', hwritten, htree.trans hsame⟩
  | exporting options h =>
    obtain ⟨paths, s₁, product, s₂, hpaths, hlike, hmade, hreport, hpages⟩ := Export.run_ok hend
    rw [hreport] at hr
    cases hr
    obtain ⟨hstories, hregistry⟩ := Pipeline.registry_of_run hlike hmade
    obtain ⟨u, u', hwritten, hsame⟩ := hpages h
    rw [hstories] at hregistry hwritten
    exact ⟨paths, hpaths, hregistry, u, u', hwritten, hsame⟩

end Publishing

/-- Where the very last thing in a list has a property, it is the last to have it. -/
theorem last_eq {α : Type} {P : α → Prop} {items before after : List α} {a last : α}
    (h : items ++ [a] = before ++ last :: after) (ha : P a) (hafter : ∀ b ∈ after, ¬P b) :
    last = a := by
  rcases List.eq_nil_or_concat after with rfl | ⟨rest, b, rfl⟩
  · exact ((List.concat_inj.1 (by simpa using h)).2).symm
  · have hsame : a = b := by
      rw [List.concat_eq_append, ← List.cons_append, ← List.append_assoc] at h
      exact (List.append_singleton_inj.1 h).2
    exact absurd ha (hsame ▸ hafter b (by simp))

/-- After a run that writes pages, the page of every item is that of the last story file that claims
the item's name. It is the page of the file whose item was kept, which claims the name too, exactly
if the two files give the item the same page. -/
theorem pages_of_last_claimants {settings : Settings} {look : Run (List String)} {folder : Path}
    {run : Run Report} (hrun : Publishing settings look folder run) {s s' : Session}
    {report : Report} {r : Registry} (hend : ends run s = (.ok report, s'))
    (hr : report.registry = some r) :
    ∃ paths, (ends look s).1 = .ok paths ∧
      Pipeline.registryIn settings s (Stories.allInSession s paths) = .ok r ∧
      ∀ i ∈ r.items, ∃ owner last before after,
        (∃ j, (owner, .kept j) ∈ Pipeline.outcomesIn settings s (Stories.allInSession s paths) ∧
          j.document = i.document) ∧ owner.Claims i.name ∧
        Stories.allInSession s paths = before ++ last :: after ∧
        last.Claims i.name ∧ (∀ f ∈ after, ¬f.Claims i.name) ∧
        Output.Documents s'.tree (folder.child Output.pagesFolder) i last ∧
        (Output.Documents s'.tree (folder.child Output.pagesFolder) i owner ↔
          Output.SamePage i owner last) := by
  obtain ⟨paths, hpaths, hregistry, t, t', hwritten, htree⟩ := hrun.run_ok hend hr
  refine ⟨paths, hpaths, hregistry, fun i hi => ?_⟩
  obtain ⟨hnodup, hproper⟩ := Assembly.names_of_registry hregistry
  obtain ⟨owner, j, hkept, hname, hdocument⟩ := Assembly.exists_owner hregistry hi
  obtain ⟨howner, hitem⟩ := Assembly.item_of_mem_outcomes hkept
  -- the owner claims the item, so that somebody is the last to claim it
  have hclaims : owner.Claims i.name := hname ▸ Assembly.claims_of_item hitem
  obtain ⟨before, last, after, hstories, hlast, hafter⟩ :=
    exists_last (P := fun f => f.Claims i.name) ⟨owner, howner, hclaims⟩
  rw [hstories] at hwritten
  have hpage := Output.documents_writePages hnodup (fun k hk => (hproper k hk).1) hi hlast hafter
    hwritten
  rw [← htree] at hpage
  exact ⟨owner, last, before, after, ⟨j, hkept, hdocument⟩, hclaims, hstories, hlast, hafter, hpage,
    hpage.iff_samePage owner⟩

/-! ## Two story files of one component -/

namespace TwoClaimants

/-- The settings of a project that wants pages. -/
def settings : Settings := Settings.small true

/-- The folder of the project's pages. -/
def folder : Path := settings.registryPath.child Output.pagesFolder

/-- The project: two story files of one component, of which the second one gives an argument. -/
def project : Session where
  tree := FileTree.small
    [("a.ts", Stored.ofSource "export default {component:A}" 1),
      ("b.ts", Stored.ofSource "export default {component:A,args:{b:0}}" 1)]

/-- Of two story files, the first one's item is all that is made. Both claim it, and give it
different pages. -/
def isContested (product : Pipeline.Product) : Bool :=
  match product.stories, product.registry.items,
    Assembly.outcomes settings [] product.stories (product.analyses.map some) with
  | [first, second], [i], [(_, .kept _), (_, .taken _ _)] =>
    decide (second.Claims i.name) && !decide (Output.SamePage i first second)
  | _, _, _ => false

/-- All that was made can be written. -/
def isPublishable (product : Pipeline.Product) : Bool :=
  Output.canWrite product.registry.document &&
    (Output.described product.stories product.registry.items).all fun (f, i) =>
      Output.canWritePage project.tree folder f i

/-- What is made of the two story files is contested and can be written. -/
theorem exists_product : ∃ product,
    (ends (Pipeline.run settings ["/p/a.ts", "/p/b.ts"]) project).1 = .ok product ∧
      isContested product = true ∧ isPublishable product = true := by
  have hmade : ((ends (Pipeline.run settings ["/p/a.ts", "/p/b.ts"]) project).1.toOption.any
      fun product => isContested product && isPublishable product) = true := by decide +kernel
  obtain ⟨product, hproduct, hchecked⟩ := exists_ok_of_any hmade
  exact ⟨product, hproduct, Bool.and_eq_true_iff.1 hchecked⟩

/-- The story files that are found are the two. -/
theorem ends_storyFiles :
    (ends (Sync.storyFiles settings {}) project).1 = .ok ["/p/a.ts", "/p/b.ts"] := by
  have hfound : ((ends (Sync.storyFiles settings {}) project).1.toOption.any
      (· == ["/p/a.ts", "/p/b.ts"])) = true := by decide +kernel
  exact eq_ok_of_any hfound

/-- Where something is contested, the only file whose item is kept is the first one, and the second
one claims the item too, for another page. -/
theorem of_isContested {product : Pipeline.Product} (h : isContested product = true) :
    ∃ first second i, product.stories = [first, second] ∧ product.registry.items = [i] ∧
      second.Claims i.name ∧ ¬Output.SamePage i first second ∧
      ∀ f j, (f, .kept j) ∈ Assembly.outcomes settings [] product.stories
        (product.analyses.map some) → f = first := by
  unfold isContested at h
  split at h
  · rename_i first second i f j g name owner hstories hitems houtcomes
    obtain ⟨hclaims, hdiffers⟩ := Bool.and_eq_true_iff.1 h
    refine ⟨first, second, i, hstories, hitems, of_decide_eq_true hclaims, by simpa using hdiffers,
      fun other k hkept => ?_⟩
    rw [houtcomes] at hkept
    have hfirst : (Assembly.outcomes settings [] product.stories (product.analyses.map some))[0]? =
        some (f, .kept j) := by rw [houtcomes]; rfl
    have hstory := (Assembly.item_of_getElem?_outcomes hfirst).1
    rw [hstories] at hstory
    cases hstory
    simp at hkept
    exact hkept.1
  · cases h

/-- A run over the two story files comes to the registry that is made of them. -/
theorem exists_run {product : Pipeline.Product}
    (hmade : (ends (Pipeline.run settings ["/p/a.ts", "/p/b.ts"]) project).1 = .ok product)
    (h : isPublishable product = true) :
    ∃ report s', ends (Sync.run settings {}) project = (.ok report, s') ∧
      report.registry = some product.registry := by
  obtain ⟨hregistry, hpages⟩ := Bool.and_eq_true_iff.1 h
  have hfolder : project.tree.find folder = .ok (.folder ["r", "examples"]) := by decide +kernel
  have htakes : project.tree.takes (Output.registryFile settings.registryPath) = true := by
    decide +kernel
  have hpublish (t : Session) (htree : t.tree = project.tree) :
      ∃ t', ends (Sync.publish settings {} product) t = (.ok (), t') ∧ True := by
    rw [← htree] at hfolder htakes
    obtain ⟨t', hend⟩ := @Sync.exists_publish_pages settings {} product t _ rfl rfl htakes hregistry
      hfolder fun entry hentry => by
        rw [htree]
        exact List.all_eq_true.1 hpages entry hentry
    exact ⟨t', hend, trivial⟩
  obtain ⟨report, s', hend, hreport, -⟩ :=
    Sync.exists_report (P := fun _ => True) ends_storyFiles (by simp) hmade hpublish
  exact ⟨report, s', hend, hreport⟩

end TwoClaimants

open TwoClaimants in
/-- Of two story files of one component, the first one's item is in the registry, and the second
one's page is beside it, which is not the first one's. -/
theorem page_of_second_claimant :
    ∃ report r s' first second i j, ends (Sync.run settings {}) project = (.ok report, s') ∧
      report.registry = some r ∧ i ∈ r.items ∧
      Stories.allInSession project ["/p/a.ts", "/p/b.ts"] = [first, second] ∧
      (first, .kept j) ∈ Pipeline.outcomesIn settings project [first, second] ∧
      j.document = i.document ∧ Output.Documents s'.tree folder i second ∧
      ¬Output.Documents s'.tree folder i first := by
  obtain ⟨product, hmade, hcontested, hpublishable⟩ := exists_product
  obtain ⟨first, second, i, hstories, hitems, hclaims, hdiffers, hfirst⟩ :=
    of_isContested hcontested
  obtain ⟨report, s', hend, hreport⟩ := exists_run hmade hpublishable
  obtain ⟨t, hrun, -⟩ :=
    (Pipeline.steady_run (R := Import.SameLookups settings) _).exists_ok (refl_of _ project) hmade
  obtain ⟨hread, hanalyses, -⟩ := Pipeline.run_ok hrun
  have hi : i ∈ product.registry.items := by simp [hitems]
  obtain ⟨paths, hpaths, -, hall⟩ := pages_of_last_claimants (.syncing {} rfl) hend hreport
  obtain rfl : ["/p/a.ts", "/p/b.ts"] = paths := Except.ok.inj (ends_storyFiles.symm.trans hpaths)
  obtain ⟨owner, last, before, after, ⟨j, hkept, hdocument⟩, -, hsplit, -, hafter, hpage, hsame⟩ :=
    hall i hi
  rw [← hread] at hkept hsplit
  obtain rfl : owner = first := hfirst owner j (by rw [hanalyses]; exact hkept)
  rw [hstories] at hkept hsplit
  obtain rfl : last = second :=
    last_eq (show [owner] ++ [second] = before ++ last :: after from hsplit) hclaims hafter
  exact ⟨report, product.registry, s', owner, last, i, j, hend, hreport, hi,
    hread.symm.trans hstories, hkept, hdocument, hpage, fun howner => hdiffers (hsame.1 howner)⟩

end StoryRegistry
