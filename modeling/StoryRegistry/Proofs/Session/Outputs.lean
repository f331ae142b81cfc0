import StoryRegistry.Proofs.Session.Progress
import StoryRegistry.Proofs.Session.Rereading

/-!
# What a run leaves on disk

A run that finds story files and succeeds writes the registry into one file, and if they are asked
for each item into a file beside it and the two files of its page into a folder below. These files
are at different places below the registry's folder, and no other file changes.

* The names of items are distinct, hold no slashes, and are not that of the registry, so that no
  file of one item is a file of another one or of the registry (`Output.nodup_places`).
* The registry and the items are written once, so that they stay what was written, and what is read
  from their files are the registry and the items (`Output.registryAt_of_holds`,
  `Output.itemAt_of_holds`). The check of the registry that was written never fails.
* A page is written once for each story file that claims its item. The last one stays.
-/

set_option autoImplicit false

namespace StoryRegistry

namespace Output

/-- The files of an item's page. -/
def pageFiles (folder : Path) (i : Item) : List Path :=
  [pageFile (folder.child pagesFolder) i, examplesFile (folder.child pagesFolder) i]

/-- The files of the items and of their pages, as far as they are asked for. -/
def itemFiles (folder : Path) (withItems withPages : Bool) (items : List Item) : List Path :=
  (if withItems then items.map (itemFile folder) else []) ++
    if withPages then items.flatMap (pageFiles folder) else []

/-- The files of a registry in a folder, with those of its items and pages as far as they are asked
for. -/
def files (folder : Path) (withItems withPages : Bool) (items : List Item) : List Path :=
  registryFile folder :: itemFiles folder withItems withPages items

variable {folder p : Path} {withItems withPages : Bool} {items : List Item} {i : Item}

theorem mem_files_registry : registryFile folder ∈ files folder withItems withPages items :=
  List.mem_cons_self

theorem mem_files_of_mem (h : p ∈ itemFiles folder withItems withPages items) :
    p ∈ files folder withItems withPages items := List.mem_cons_of_mem _ h

theorem mem_pageFiles_iff : p ∈ pageFiles folder i ↔ IsPageOf (folder.child pagesFolder) i p := by
  simp [pageFiles, IsPageOf]

/-- A file of items and pages is that of an item, or one of a page. -/
theorem mem_itemFiles_iff : p ∈ itemFiles folder withItems withPages items ↔
    (withItems = true ∧ ∃ i ∈ items, p = itemFile folder i) ∨
      (withPages = true ∧ ∃ i ∈ items, IsPageOf (folder.child pagesFolder) i p) := by
  have hitem : (∃ i ∈ items, itemFile folder i = p) ↔ ∃ i ∈ items, p = itemFile folder i := by
    simp only [eq_comm]
  cases withItems <;> cases withPages <;> simp [itemFiles, mem_pageFiles_iff, hitem]

/-! ## Places -/

/-- No file of an item is a file of a page. -/
theorem place_itemFile_ne {j : Item} (hi : Schema.isItemName i.name = true)
    (hj : Schema.isItemName j.name = true) (hp : IsPageOf (folder.child pagesFolder) j p)
    (t : FileTree) : t.placeOf (itemFile folder i) ≠ t.placeOf p := by
  rcases hp with rfl | rfl <;>
    exact FileTree.placeOf_child_ne (Schema.isPlain_of_isItemName hi (by decide))
      isPlain_pagesFolder (Schema.isPlain_of_isItemName hj (by decide)) t folder

/-- Differently named items have different files. -/
theorem place_itemFile_injective {j : Item} (hi : Schema.isItemName i.name = true)
    (hj : Schema.isItemName j.name = true) {t : FileTree}
    (h : t.placeOf (itemFile folder i) = t.placeOf (itemFile folder j)) : i.name = j.name := by
  have heq := FileTree.placeOf_child_injective (Schema.isPlain_of_isItemName hi (by decide))
    (Schema.isPlain_of_isItemName hj (by decide)) h
  exact (String.append_left_inj _).1 heq

/-- The files of a registry are at different places. -/
theorem nodup_places (hnames : (items.map Item.name).Nodup)
    (hproper : ∀ i ∈ items, Schema.isItemName i.name = true ∧ i.name ≠ Assembly.reservedName)
    (t : FileTree) : ((files folder withItems withPages items).map t.placeOf).Nodup := by
  have hitems : ((items.map (itemFile folder)).map t.placeOf).Nodup := by
    rw [List.map_map]
    refine List.Nodup.map_on (fun i hi j hj hplace => ?_) hnames.of_map
    exact List.inj_on_of_nodup_map hnames hi hj
      (place_itemFile_injective (hproper i hi).1 (hproper j hj).1 hplace)
  have hpages : ((items.flatMap (pageFiles folder)).map t.placeOf).Nodup := by
    rw [List.map_flatMap, List.nodup_flatMap]
    refine ⟨fun i hi => ?_, ?_⟩
    · have hne := place_pageFile_ne (hproper i hi).1 t (folder.child pagesFolder)
      simpa [pageFiles] using hne.symm
    · refine (List.pairwise_map.1 hnames).imp_of_mem fun {i j} hi hj hne => ?_
      refine List.disjoint_left.2 fun place hplace hplace' => ?_
      obtain ⟨p, hp, rfl⟩ := List.mem_map.1 hplace
      obtain ⟨q, hq, hsame⟩ := List.mem_map.1 hplace'
      exact place_ne_of_isPageOf (mem_pageFiles_iff.1 hq) (mem_pageFiles_iff.1 hp)
        (hproper j hj).1 (hproper i hi).1 hne.symm t hsame
  rw [files, List.map_cons, List.nodup_cons, itemFiles, List.map_append]
  refine ⟨fun hmem => ?_, List.nodup_append.2 ⟨?_, ?_, ?_⟩⟩
  · -- the registry's own file is neither that of an item nor one of a page
    rw [← List.map_append, ← itemFiles] at hmem
    obtain ⟨p, hp, hsame⟩ := List.mem_map.1 hmem
    obtain ⟨-, i, hi, hfile⟩ | ⟨-, i, hi, hpage⟩ := mem_itemFiles_iff.1 hp
    · exact place_ne_registryFile (hproper i hi).1 (hproper i hi).2 (.inl hfile) t hsame
    · exact place_ne_registryFile (hproper i hi).1 (hproper i hi).2 (.inr hpage) t hsame
  · split
    · exact hitems
    · exact List.nodup_nil
  · split
    · exact hpages
    · exact List.nodup_nil
  · intro place hplace place' hplace' hsame
    split at hplace
    · split at hplace'
      · obtain ⟨q, hq, rfl⟩ := List.mem_map.1 hplace
        obtain ⟨i, hi, rfl⟩ := List.mem_map.1 hq
        obtain ⟨p, hp, rfl⟩ := List.mem_map.1 hplace'
        obtain ⟨j, hj, hp⟩ := List.mem_flatMap.1 hp
        exact place_itemFile_ne (hproper i hi).1 (hproper j hj).1 (mem_pageFiles_iff.1 hp) t hsame
      · cases hplace'
    · cases hplace

/-- The files of a registry are inside its folder. -/
theorem inside_of_mem_files
    (hproper : ∀ i ∈ items, Schema.isItemName i.name = true ∧ i.name ≠ Assembly.reservedName)
    (t : FileTree) (hp : p ∈ files folder withItems withPages items) :
    ∃ way, way ≠ [] ∧ t.placeOf p = t.placeOf folder ++ way := by
  have hchild {name : String} (hname : Path.IsPlain name) :
      ∃ way, way ≠ [] ∧ t.placeOf (folder.child name) = t.placeOf folder ++ way :=
    ⟨[name], by simp, FileTree.placeOf_child hname t folder⟩
  have hbelow {name : String} (hname : Path.IsPlain name) : ∃ way, way ≠ [] ∧
      t.placeOf ((folder.child pagesFolder).child name) = t.placeOf folder ++ way := by
    refine ⟨[pagesFolder, name], by simp, ?_⟩
    rw [FileTree.placeOf_child hname, FileTree.placeOf_child isPlain_pagesFolder, List.append_assoc]
    rfl
  rcases List.mem_cons.1 hp with rfl | hp
  · exact hchild isPlain_registryFileName
  · obtain ⟨-, i, hi, rfl⟩ | ⟨-, i, hi, rfl | rfl⟩ := mem_itemFiles_iff.1 hp
    · exact hchild (Schema.isPlain_of_isItemName (hproper i hi).1 (by decide))
    · exact hbelow (Schema.isPlain_of_isItemName (hproper i hi).1 (by decide))
    · exact hbelow (Schema.isPlain_of_isItemName (hproper i hi).1 (by decide))

/-! ## Items -/

/-- Every item that was written is in its file. -/
theorem holds_writeItems (hnames : (items.map Item.name).Nodup)
    (hproper : ∀ i ∈ items, Schema.isItemName i.name = true) {s s' : Session}
    (h : ends (writeItems folder items) s = (.ok (), s')) (hi : i ∈ items) :
    s'.tree.Holds (itemFile folder i) (jsonText i.document) ∧ i.document.intsFit = true := by
  obtain ⟨before, after, rfl⟩ := List.append_of_mem hi
  obtain ⟨⟨⟩, t, hall, h⟩ := ends.of_bind h
  obtain ⟨s₁, s₂, -, hitem, hmore⟩ := ends.of_forM hall
  -- what is written after it are other items
  have hwrote : WroteAt (fun p => ∃ j ∈ after, p = itemFile folder j) s₂ t := by
    have hleft := (Leaves.forM fun j hj => (leaves_writeJson (itemFile folder j) j.document).mono
      fun _ _ hwrote => hwrote.mono fun p (hp : p = _) => (⟨j, hj, hp⟩ :
        ∃ j ∈ after, p = itemFile folder j)) s₂
    rw [hmore] at hleft
    exact hleft
  have hother : ∀ j ∈ after, j.name ≠ i.name := by
    intro j hj heq
    rw [List.map_append, List.map_cons] at hnames
    have hnew := (List.nodup_cons.1 (List.nodup_append.1 hnames).2.1).1
    exact hnew (heq ▸ List.mem_map_of_mem hj)
  have hheld := hwrote.holds (holds_writeJson hitem) fun q ⟨j, hj, hq⟩ hplace => by
    rw [hq] at hplace
    exact hother j hj (place_itemFile_injective (hproper j (by simp [hj])) (hproper i hi) hplace)
  cases h
  exact ⟨hheld, intsFit_of_writeJson hitem⟩

end Output

namespace Sync

open Import (SameLookups)

variable {settings : Settings} {options : Options} {product : Pipeline.Product} {s s' : Session}

/-! ## Publishing -/

/-- The files that a run writes for the items of a registry. -/
def outputs (settings : Settings) (options : Options) (items : List Item) : List Path :=
  Output.files settings.registryPath settings.withItems
    (options.withPages.getD settings.withExamples) items

/-- Publishing writes no files but these. -/
theorem leaves_publish (product : Pipeline.Product) :
    Leaves (WroteAt (· ∈ outputs settings options product.registry.items))
      (publish settings options product) := by
  refine Leaves.bind ?_ fun _ => Leaves.bind ?_ fun _ => Leaves.bind ?_ fun _ =>
    Leaves.when _ ((Output.steady_checkWritten _).leaves_wroteAt _)
  · refine (Output.leaves_writeRegistry _ _).mono fun _ _ h => h.mono fun p hp => ?_
    rw [hp]
    exact Output.mem_files_registry
  · refine Leaves.whenAsked fun hasked => ?_
    refine (Output.leaves_writeItems _ _).mono fun _ _ h => h.mono fun p ⟨i, hi, hp⟩ => ?_
    exact Output.mem_files_of_mem (Output.mem_itemFiles_iff.2 (.inl ⟨hasked, i, hi, hp⟩))
  · refine Leaves.whenAsked fun hasked => ?_
    refine (Output.leaves_writePages _ _ _).mono fun _ _ h => h.mono fun p ⟨i, hi, hp⟩ => ?_
    exact Output.mem_files_of_mem (Output.mem_itemFiles_iff.2 (.inr ⟨hasked, i, hi, hp⟩))

/-- Each item is in its file after publishing, if items are asked for: pages are written into other
files. -/
theorem holds_of_publish (hnames : (product.registry.items.map Item.name).Nodup)
    (hproper : ∀ i ∈ product.registry.items, Schema.isItemName i.name = true)
    (h : ends (publish settings options product) s = (.ok (), s'))
    (hasked : settings.withItems = true) {i : Item} (hi : i ∈ product.registry.items) :
    s'.tree.Holds (Output.itemFile settings.registryPath i) (Output.jsonText i.document) ∧
      i.document.intsFit = true := by
  obtain ⟨⟨⟩, s₁, -, h₁⟩ := ends.of_bind h
  obtain ⟨⟨⟩, s₂, hitems, h₂⟩ := ends.of_bind h₁
  rw [hasked] at hitems
  obtain ⟨hheld, hfit⟩ := Output.holds_writeItems hnames hproper hitems hi
  have hwrote := (Leaves.when (options.withPages.getD settings.withExamples)
    (Output.leaves_writePages settings.registryPath product.stories product.registry.items)).bind
      (fun _ => Leaves.when (options.validated.getD settings.validated)
        ((Output.steady_checkWritten settings.registryPath).leaves_wroteAt _)) s₂
  rw [h₂] at hwrote
  exact ⟨hwrote.holds hheld fun q ⟨j, hj, hq⟩ hplace =>
    Output.place_itemFile_ne (hproper i hi) (hproper j hj) hq s₂.tree hplace.symm, hfit⟩

/-- The registry is read from its file after publishing. -/
theorem registryAt_of_publish
    (hproper : ∀ i ∈ product.registry.items,
      Schema.isItemName i.name = true ∧ i.name ≠ Assembly.reservedName)
    (hread : Registry.ofDocument (product.registry.document.asMap?.getD []) = .ok product.registry)
    (h : ends (publish settings options product) s = (.ok (), s')) :
    Output.registryAt s'.tree (Output.registryFile settings.registryPath) =
      .ok product.registry := by
  obtain ⟨⟨⟩, s₁, hregistry, -⟩ := ends.of_bind h
  obtain ⟨⟨⟩, t, hwritten, -⟩ := ends.of_bind hregistry
  exact Output.registryAt_of_holds (publish_ok hproper h).1 (Output.intsFit_of_writeJson hwritten)
    hread

/-- The check of what was written never fails: whether or not it is asked for, publishing succeeds
and leaves the same files. -/
theorem exists_publish_checked
    (hproper : ∀ i ∈ product.registry.items,
      Schema.isItemName i.name = true ∧ i.name ≠ Assembly.reservedName)
    (hread : Registry.ofDocument (product.registry.document.asMap?.getD []) = .ok product.registry)
    (h : ends (publish settings options product) s = (.ok (), s')) (validated : Option Bool) :
    ∃ t, ends (publish settings { options with validated := validated } product) s = (.ok (), t) ∧
      t.tree = s'.tree := by
  have hkept := registryAt_of_publish hproper hread h
  obtain ⟨⟨⟩, s₁, hregistry, h₁⟩ := ends.of_bind h
  obtain ⟨⟨⟩, s₂, hitems, h₂⟩ := ends.of_bind h₁
  obtain ⟨⟨⟩, s₃, hpages, hcheck⟩ := ends.of_bind h₂
  have hsame : s'.tree = s₃.tree := by
    have hleft := (Steady.when (R := SameTree) (options.validated.getD settings.validated)
      (Output.steady_checkWritten settings.registryPath)).leaves s₃
    rw [hcheck] at hleft
    exact hleft
  rw [hsame] at hkept
  obtain ⟨t, hchecked, htree⟩ : ∃ t, ends (Run.when (validated.getD settings.validated)
      (Output.checkWritten settings.registryPath)) s₃ = (.ok (), t) ∧ t.tree = s₃.tree := by
    cases validated.getD settings.validated with
    | false => exact ⟨s₃, rfl, rfl⟩
    | true => exact Output.exists_checkWritten hkept
  refine ⟨t, ?_, htree.trans hsame.symm⟩
  unfold publish
  rw [ends.bind_of_ok hregistry, ends.bind_of_ok hitems, ends.bind_of_ok hpages]
  exact hchecked

/-- Publishing depends on the file tree alone. -/
theorem dependsOnTree_publish (product : Pipeline.Product) :
    DependsOnTree (publish settings options product) :=
  (Output.dependsOnTree_writeRegistry _ _).bind fun _ =>
    (DependsOnTree.when _ (Output.dependsOnTree_writeItems _ _)).bind fun _ =>
      (DependsOnTree.when _ (Output.dependsOnTree_writePages _ _ _)).bind fun _ =>
        DependsOnTree.when _ (.of_steady (Output.steady_checkWritten _))

/-! ## Runs -/

/-- What a run that published a registry of story files has made of the file tree. -/
structure Published (settings : Settings) (options : Options) (stories : List StoryFile)
    (t t' : FileTree) (r : Registry) : Prop where
  /-- The files that it writes are at different places. -/
  distinct : ((outputs settings options r.items).map t.placeOf).Nodup
  /-- They are inside the registry's folder. -/
  inside : ∀ p ∈ outputs settings options r.items,
    ∃ way, way ≠ [] ∧ t.placeOf p = t.placeOf settings.registryPath ++ way
  /-- All of them are there. -/
  present : ∀ p ∈ outputs settings options r.items, ∃ content, t'.file p = .ok content
  /-- No other file has changed. -/
  unchanged : ∀ place ∉ (outputs settings options r.items).map t.placeOf,
    Table.get? place t'.files = Table.get? place t.files
  /-- The registry is read from its file. -/
  registry : Output.registryAt t' (Output.registryFile settings.registryPath) = .ok r
  /-- Each item is read from its file, if items are asked for. -/
  items : settings.withItems = true → ∀ i ∈ r.items,
    Output.itemAt t' (Output.itemFile settings.registryPath i) = .ok i
  /-- Each item has the page of the last story file that claims it, if pages are asked for. Another
  file's page is there only if it is the same. -/
  pages : options.withPages.getD settings.withExamples = true → ∀ i ∈ r.items,
    ∃ before last after, stories = before ++ last :: after ∧ last.Claims i.name ∧
      (∀ f ∈ after, ¬f.Claims i.name) ∧
      Output.Documents t' (settings.registryPath.child Output.pagesFolder) i last ∧
      ∀ f, Output.Documents t' (settings.registryPath.child Output.pagesFolder) i f ↔
        Output.SamePage i f last

/-- Of the story files, one is the last that claims an item of their registry. -/
theorem exists_last_claimant {stories : List StoryFile} {r : Registry}
    (h : Pipeline.registryIn settings s stories = .ok r) {i : Item} (hi : i ∈ r.items) :
    ∃ before last after, stories = before ++ last :: after ∧ last.Claims i.name ∧
      ∀ f ∈ after, ¬f.Claims i.name := by
  obtain ⟨owner, j, hkept, hname, -⟩ := Assembly.exists_owner h hi
  obtain ⟨howner, hitem⟩ := Assembly.item_of_mem_outcomes hkept
  exact exists_last (P := fun f => f.Claims i.name)
    ⟨owner, howner, hname ▸ Assembly.claims_of_item hitem⟩

/-- Where the registry of story files is published, it is published as it should be. -/
theorem published_of_publish
    (hregistry : Pipeline.registryIn settings s' product.stories = .ok product.registry)
    {t t' : Session} (h : ends (publish settings options product) t = (.ok (), t')) :
    Published settings options product.stories t.tree t'.tree product.registry := by
  obtain ⟨hnames, hproper⟩ := Assembly.names_of_registry hregistry
  have hnamed : ∀ i ∈ product.registry.items, Schema.isItemName i.name = true :=
    fun i hi => (hproper i hi).1
  obtain ⟨hheld, hwrittenPages⟩ := publish_ok hproper h
  have hwrote := @leaves_publish settings options product t
  rw [h] at hwrote
  have hpages : options.withPages.getD settings.withExamples = true →
      ∀ i ∈ product.registry.items, ∃ before last after,
        product.stories = before ++ last :: after ∧ last.Claims i.name ∧
        (∀ f ∈ after, ¬f.Claims i.name) ∧
        Output.Documents t'.tree (settings.registryPath.child Output.pagesFolder) i last := by
    intro hasked i hi
    obtain ⟨u, u', hwritten, htree⟩ := hwrittenPages hasked
    obtain ⟨before, last, after, hstories, hlast, hafter⟩ := exists_last_claimant hregistry hi
    rw [hstories] at hwritten
    have hpage := Output.documents_writePages hnames hnamed hi hlast hafter hwritten
    rw [← htree] at hpage
    exact ⟨before, last, after, hstories, hlast, hafter, hpage⟩
  have hthere {p : Path} {text : String} (hp : t'.tree.Holds p text) :
      ∃ content, t'.tree.file p = .ok content := hp.imp fun _ hfile => hfile.1
  refine ⟨Output.nodup_places hnames hproper t.tree, fun p hp =>
    Output.inside_of_mem_files hproper t.tree hp, fun p hp => ?_, fun place hplace => ?_,
    registryAt_of_publish hproper (Assembly.ofDocument_document hregistry) h,
    fun hasked i hi => ?_, fun hasked i hi => ?_⟩
  · rcases List.mem_cons.1 hp with rfl | hp
    · exact hthere hheld
    · obtain ⟨hasked, i, hi, rfl⟩ | ⟨hasked, i, hi, hpage⟩ := Output.mem_itemFiles_iff.1 hp
      · exact hthere (holds_of_publish hnames hnamed h hasked hi).1
      · obtain ⟨_, _, _, -, -, -, page, -, htext, hdata⟩ := hpages hasked i hi
        rcases hpage with rfl | rfl
        · exact hthere htext
        · exact hthere hdata
  · refine hwrote.grown.files place fun ⟨p, hp, hsame⟩ => hplace ?_
    exact List.mem_map.2 ⟨p, hp, hsame⟩
  · obtain ⟨hitem, hfit⟩ := holds_of_publish hnames hnamed h hasked hi
    exact Output.itemAt_of_holds hitem hfit (Assembly.ofDocument_entries hregistry hi)
  · obtain ⟨before, last, after, hstories, hlast, hafter, hpage⟩ := hpages hasked i hi
    exact ⟨before, last, after, hstories, hlast, hafter, hpage, fun f => hpage.iff_samePage f⟩

/-- A run that finds story files and succeeds writes the files of the registry that it reports, at
different places inside the registry's folder, and changes no other file. From the files of the
registry and the items these are read back. Each page is that of the last story file that claims its
item. Whether or not the check of what was written is asked for, the run comes to the same: the check
never fails. -/
theorem published_of_success {paths : List String} {report : Report}
    (hend : ends (run settings options) s = (.ok report, s'))
    (hfound : (ends (storyFiles settings options) s).1 = .ok paths) (hne : paths ≠ [])
    (hsuccess : report.success = true) :
    ∃ r, report.registry = some r ∧
      Published settings options (Stories.allInSession s paths) s.tree s'.tree r ∧
      ∀ validated, ∃ report' t,
        ends (run settings { options with validated := validated }) s = (.ok report', t) ∧
        report'.success = true ∧ report'.registry = some r ∧ t.tree = s'.tree := by
  obtain ⟨paths', hpaths, ⟨hempty, -⟩ | hfailed |
    ⟨product, s₁, s₂, t, hlike, hmade, hpublished, htree, houtcome⟩⟩ := run_cases hend
  · rw [hfound, hempty] at hpaths
    exact absurd (Except.ok.inj hpaths) hne
  · rw [show report.success = false from (Prod.ext_iff.1 hfailed).1] at hsuccess
    cases hsuccess
  obtain rfl : paths = paths' := Except.ok.inj (hfound.symm.trans hpaths)
  obtain ⟨hreported, hr⟩ : report.success = !product.registry.items.isEmpty ∧
      report.registry = some product.registry := Prod.ext_iff.1 houtcome
  obtain ⟨hstories, hregistry⟩ := Pipeline.registry_of_run hlike hmade
  have hproper := (Assembly.names_of_registry hregistry).2
  have hsteady : Steady (SameLookups settings) (Pipeline.run settings paths) :=
    Pipeline.steady_run paths
  have hlike₂ := hsteady.leaves s₁
  rw [hmade] at hlike₂
  have hsame : s₂.tree = s.tree := hlike₂.1.trans hlike.1
  have hleft := published_of_publish hregistry hpublished
  rw [hsame, ← htree, hstories] at hleft
  refine ⟨product.registry, hr, hleft, fun validated => ?_⟩
  -- what was made can be published again from the same file tree, with the check or without it
  have hmadeAgain : (ends (Pipeline.run settings paths) s).1 = .ok product := by
    rw [← hsteady.agrees hlike, hmade]
  obtain ⟨report', t', hend', hr', hsuccess', htree'⟩ := @exists_report settings
    { options with validated := validated } product s paths (· = s'.tree) hfound hne hmadeAgain
    fun u hu => by
      obtain ⟨v, hv, hvtree⟩ := (dependsOnTree_publish product).exists_ok hpublished
        (hu.trans hsame.symm)
      obtain ⟨w, hw, hwtree⟩ := exists_publish_checked hproper
        (Assembly.ofDocument_document hregistry) hv validated
      exact ⟨w, hw, hwtree.trans (hvtree.trans htree.symm)⟩
  exact ⟨report', t', hend', by rw [hsuccess', ← hreported, hsuccess], hr', htree'⟩

end Sync

/-! ## A project with one story file -/

namespace OnePublished

/-- The settings of a project that wants items, pages and the check. -/
def settings : Settings := { Settings.small true with withItems := true, validated := true }

/-- A run without the check. -/
def unchecked : Sync.Options := { validated := some false }

/-- The project: one story file. -/
def project : Session where
  tree := FileTree.small [("a.ts", Stored.ofSource "export default {component:A}" 1)]

/-- One item was made, and all that was made can be written. -/
def isPublishable (product : Pipeline.Product) : Bool :=
  product.registry.items.map Item.name == ["a"] && Output.canWrite product.registry.document &&
    (product.registry.items.all fun i =>
      Output.canWriteItem project.tree settings.registryPath i) &&
    (Output.described product.stories product.registry.items).all fun (f, i) =>
      Output.canWritePage project.tree (settings.registryPath.child Output.pagesFolder) f i

/-- The story file is found. -/
theorem ends_storyFiles : (ends (Sync.storyFiles settings unchecked) project).1 = .ok ["/p/a.ts"] := by
  have hfound : ((ends (Sync.storyFiles settings unchecked) project).1.toOption.any
      (· == ["/p/a.ts"])) = true := by decide +kernel
  exact eq_ok_of_any hfound

/-- A run over the story file comes to a registry with its item. -/
theorem exists_run : ∃ report s' r, ends (Sync.run settings unchecked) project = (.ok report, s') ∧
    report.success = true ∧ report.registry = some r ∧ r.items.map Item.name = ["a"] := by
  have hmade : ((ends (Pipeline.run settings ["/p/a.ts"]) project).1.toOption.any isPublishable) =
      true := by decide +kernel
  obtain ⟨product, hproduct, hpublishable⟩ := exists_ok_of_any hmade
  unfold isPublishable at hpublishable
  simp only [Bool.and_eq_true, beq_iff_eq, List.all_eq_true] at hpublishable
  obtain ⟨⟨⟨hnames, hregistry⟩, hitems⟩, hpages⟩ := hpublishable
  have hfolder : project.tree.find (settings.registryPath.child Output.pagesFolder) =
      .ok (.folder ["r", "examples"]) := by decide +kernel
  have htakes : project.tree.takes (Output.registryFile settings.registryPath) = true := by
    decide +kernel
  have hpublish (t : Session) (htree : t.tree = project.tree) :
      ∃ t', ends (Sync.publish settings unchecked product) t = (.ok (), t') ∧ True := by
    rw [← htree] at hfolder htakes hitems hpages
    obtain ⟨t', hend⟩ := @Sync.exists_publish settings unchecked product t _ rfl htakes hregistry
      (fun _ => hitems) hfolder hpages
    exact ⟨t', hend, trivial⟩
  obtain ⟨report, s', hend, hreport, hsuccess, -⟩ :=
    Sync.exists_report (P := fun _ => True) ends_storyFiles (by simp) hproduct hpublish
  refine ⟨report, s', product.registry, hend, ?_, hreport, hnames⟩
  rw [hsuccess]
  cases hempty : product.registry.items with
  | nil => simp [hempty] at hnames
  | cons i rest => rfl

end OnePublished

open OnePublished in
/-- From the files of a project with one story file its registry and its item are read back, and a
run with the check leaves the same files. -/
theorem published_of_one_story_file :
    ∃ report s' r i, ends (Sync.run settings unchecked) project = (.ok report, s') ∧
      report.registry = some r ∧ i ∈ r.items ∧ i.name = "a" ∧
      Output.registryAt s'.tree ⟨1, ["r", "registry.json"]⟩ = .ok r ∧
      Output.itemAt s'.tree ⟨1, ["r", "a.json"]⟩ = .ok i ∧
      ∃ report' t, ends (Sync.run settings {}) project = (.ok report', t) ∧
        report'.success = true ∧ report'.registry = some r ∧ t.tree = s'.tree := by
  obtain ⟨report, s', r, hend, hsuccess, hr, hnames⟩ := exists_run
  obtain ⟨r', hr', hpublished, hchecked⟩ :=
    Sync.published_of_success hend ends_storyFiles (by simp) hsuccess
  obtain rfl : r = r' := Option.some.inj (hr.symm.trans hr')
  obtain ⟨i, hi, hname⟩ : ∃ i ∈ r.items, i.name = "a" := by
    have hthere : "a" ∈ r.items.map Item.name := by
      rw [hnames]
      exact List.mem_singleton_self "a"
    exact List.mem_map.1 hthere
  have hfile : Output.itemFile settings.registryPath i = ⟨1, ["r", "a.json"]⟩ := by
    unfold Output.itemFile
    rw [hname]
    decide +kernel
  have hown : Output.registryFile settings.registryPath = ⟨1, ["r", "registry.json"]⟩ := by
    decide +kernel
  have hitem := hpublished.items rfl i hi
  have hregistry := hpublished.registry
  rw [hfile] at hitem
  rw [hown] at hregistry
  exact ⟨report, s', r, i, hend, hr, hi, hname, hregistry, hitem, hchecked none⟩

end StoryRegistry
