import StoryRegistry.Proofs.Session.Progress

/-!
# Runs that take only changed files

A run that takes only the files changed after a point in time makes its registry of these files
alone, and writes it over the one that was there. Story files that were not changed have no item in
it. The registry is that of all files if those that were not changed would have had none.

* Looking at the project changes nothing, so that a run over all files and one over the changed
  files read the same story files and give each the same analysis (`registry_of_run`).
* The files that are taken are those found that were changed (`storyFiles_of_some`).
* Leaving out files whose items would not be kept leaves the same names free for the others
  (`Assembly.keptItems_filter`).
-/

set_option autoImplicit false

namespace StoryRegistry

namespace Discovery

/-- The file at a path was changed after a point in time. -/
def isChangedSince (t : FileTree) (since : Instant) (path : String) : Bool :=
  match since.micros? with
  | none => false
  | some time => (isChanged t time path).toOption.getD false

/-- The changed files among some are those that were changed. -/
theorem changedSince_ok {since : Instant} {paths changed : List String} {s s' : Session}
    (h : ends (changedSince since paths) s = (.ok changed, s')) :
    changed = paths.filter (isChangedSince s.tree since) := by
  unfold changedSince at h
  unfold isChangedSince
  cases htime : since.micros? with
  | none =>
    rw [htime] at h
    cases h
  | some time =>
    rw [htime] at h
    dsimp only at h
    rw [ends.look_eq] at h
    cases hkept : paths.filterM (isChanged s.tree time) with
    | error e =>
      rw [hkept] at h
      cases h
    | ok kept =>
      rw [hkept] at h
      cases h
      exact filterM_ok hkept

end Discovery

namespace Sync

variable {settings : Settings} {options : Options}

/-- A run without a point in time takes all story files. -/
theorem storyFiles_of_none (h : options.since = none) :
    storyFiles settings options = Discovery.storyFiles settings := by
  unfold storyFiles
  rw [h]
  exact bind_pure _

/-- A run with a point in time takes the story files that were changed after it. -/
theorem storyFiles_of_some {since : Instant} (h : options.since = some since) {s : Session}
    {paths : List String} (hpaths : (ends (storyFiles settings options) s).1 = .ok paths) :
    ∃ found, (ends (Discovery.storyFiles settings) s).1 = .ok found ∧
      paths = found.filter (Discovery.isChangedSince s.tree since) := by
  cases hend : ends (storyFiles settings options) s with
  | mk outcome s' =>
    rw [hend] at hpaths
    cases hpaths
    unfold storyFiles at hend
    rw [h] at hend
    obtain ⟨found, s₁, hfound, hlike, hrest⟩ :=
      (Discovery.steady_storyFiles (R := SameTree) settings).of_bind hend
    obtain ⟨changed, s₂, hchanged, hlast⟩ := ends.of_bind hrest
    obtain ⟨⟨⟩, s₃, htold, hlast⟩ := ends.of_bind hlast
    cases hlast
    have hresult := Discovery.changedSince_ok hchanged
    rw [show s₁.tree = s.tree from hlike] at hresult
    exact ⟨found, congrArg Prod.fst hfound, hresult⟩

/-- A run that reports a registry made it of the story files that it found, as the session sees
them, and left it on disk. -/
theorem registry_of_run {report : Report} {r : Registry} {s s' : Session}
    (h : ends (run settings options) s = (.ok report, s')) (hr : report.registry = some r) :
    ∃ paths, (ends (storyFiles settings options) s).1 = .ok paths ∧
      Pipeline.registryIn settings s (Stories.allInSession s paths) = .ok r ∧
      s'.tree.Holds (Output.registryFile settings.registryPath) (Output.jsonText r.document) := by
  obtain ⟨paths, product, s₁, s₂, t, hpaths, hlike, hmade, rfl, hpublished, htree⟩ := run_ok h hr
  obtain ⟨hstories, hregistry⟩ := Pipeline.registry_of_run hlike hmade
  have hheld := (publish_ok (Assembly.names_of_registry hregistry).2 hpublished).1
  rw [hstories] at hregistry
  rw [← htree] at hheld
  exact ⟨paths, hpaths, hregistry, hheld⟩

/-- The story files at paths that can be read in a session, each with its path. -/
def sources (s : Session) (paths : List String) : List (String × StoryFile) :=
  paths.filterMap fun path => (Stories.inSession? s path).map fun f => (path, f)

/-- The sources are the story files. -/
theorem map_snd_sources (s : Session) (paths : List String) :
    (sources s paths).map Prod.snd = Stories.allInSession s paths := by
  rw [sources, List.map_filterMap]
  refine List.filterMap_congr fun path _ => ?_
  cases Stories.inSession? s path <;> rfl

/-- The sources at some of the paths are those of the sources that are at these paths. -/
theorem sources_filter (s : Session) (taken : String → Bool) (paths : List String) :
    sources s (paths.filter taken) = (sources s paths).filter fun entry => taken entry.1 := by
  rw [sources, sources, List.filterMap_filter, List.filter_filterMap]
  refine List.filterMap_congr fun path _ => ?_
  cases Stories.inSession? s path with
  | none => cases taken path <;> rfl
  | some f => cases htaken : taken path <;> simp [htaken, Option.filter]

/-- A run that takes only changed files leaves the registry of the changed files alone, where a run
over all files leaves the registry of all of them: every item that it leaves is that of a changed
file. The two are the same if every file that has an item in the registry of all files was changed.
-/
theorem registry_of_changed_files {since : Instant} {s s₁ s₂ : Session} {full recent : Report}
    {r r' : Registry}
    (hfull : ends (run settings { options with since := none }) s = (.ok full, s₁))
    (hr : full.registry = some r)
    (hrecent : ends (run settings { options with since := some since }) s = (.ok recent, s₂))
    (hr' : recent.registry = some r') :
    ∃ paths, (ends (Discovery.storyFiles settings) s).1 = .ok paths ∧
      Pipeline.registryIn settings s ((sources s paths).map Prod.snd) = .ok r ∧
      Pipeline.registryIn settings s (((sources s paths).filter fun entry =>
        Discovery.isChangedSince s.tree since entry.1).map Prod.snd) = .ok r' ∧
      s₁.tree.Holds (Output.registryFile settings.registryPath) (Output.jsonText r.document) ∧
      s₂.tree.Holds (Output.registryFile settings.registryPath) (Output.jsonText r'.document) ∧
      (∀ i ∈ r'.items, ∃ path f j, (path, f) ∈ sources s paths ∧
        Discovery.isChangedSince s.tree since path = true ∧
        Assembly.item settings f (some (Analysis.inSession settings s f)) = .ok (some j) ∧
        j.document = i.document) ∧
      ((∀ (n : Nat) path f j, (sources s paths)[n]? = some (path, f) →
          (Pipeline.outcomesIn settings s ((sources s paths).map Prod.snd))[n]? =
            some (f, Assembly.Outcome.kept j) →
          Discovery.isChangedSince s.tree since path = true) → r' = r) := by
  obtain ⟨paths, hpaths, hregistry, hheld⟩ := registry_of_run hfull hr
  obtain ⟨taken, htaken, hregistry', hheld'⟩ := registry_of_run hrecent hr'
  rw [storyFiles_of_none rfl] at hpaths
  obtain ⟨found, hfound, rfl⟩ := storyFiles_of_some rfl htaken
  obtain rfl : found = paths := Except.ok.inj (hfound.symm.trans hpaths)
  -- both runs read the same story files, and the second one takes a part of them
  rw [← map_snd_sources] at hregistry hregistry'
  rw [sources_filter] at hregistry'
  refine ⟨found, hfound, hregistry, hregistry', hheld, hheld', fun i hi => ?_, fun hall => ?_⟩
  · obtain ⟨f, j, hkept, -, hdocument⟩ := Assembly.exists_owner hregistry' hi
    obtain ⟨hf, hitem⟩ := Assembly.item_of_mem_outcomes hkept
    obtain ⟨⟨path, g⟩, hmem, rfl⟩ := List.mem_map.1 hf
    obtain ⟨hsource, hchanged⟩ := List.mem_filter.1 hmem
    exact ⟨path, g, j, hsource, hchanged, hitem, hdocument⟩
  · obtain ⟨hmade, hunbroken⟩ := Assembly.registry_ok hregistry
    obtain ⟨hmade', -⟩ := Assembly.registry_ok hregistry'
    have hsame := Assembly.keptItems_filter Prod.snd
      (fun f => some (Analysis.inSession settings s f))
      (fun entry => Discovery.isChangedSince s.tree since entry.1) hunbroken
      fun n entry g j hn hkept => ?_
    · rw [hmade, hmade']
      exact congrArg (Assembly.drafted settings) hsame
    · obtain ⟨hstory, -⟩ := Assembly.item_of_getElem?_outcomes hkept
      rw [List.getElem?_map, hn] at hstory
      obtain rfl : entry.2 = g := Option.some.inj hstory
      exact hall n entry.1 entry.2 j hn hkept

/-- What there is differs from what there was in story files alone, all of them changed after a
point in time. -/
structure OnlyChanged (settings : Settings) (since : Instant) (s s' : Session) : Prop where
  here : s'.tree.here = s.tree.here
  folders : s'.tree.folders = s.tree.folders
  /-- A file that is not what it was is a story file, and was changed. -/
  files : ∀ place, Table.get? place s'.tree.files ≠ Table.get? place s.tree.files →
    ∃ paths path, (ends (Discovery.storyFiles settings) s').1 = .ok paths ∧ path ∈ paths ∧
      s'.tree.placeOf (Path.ofString path) = place ∧
      Discovery.isChangedSince s'.tree since path = true

end Sync

/-! ## A project in which one of two files was changed -/

namespace OneChanged

open Output (registryFile jsonText)

/-- The settings of a project that wants nothing but its registry. -/
def settings : Settings := Settings.small false

/-- A point in time between the changes of the two files. -/
def since : Instant := ⟨1970, 1, 1, 0, 0, 0, 2, some 0⟩

/-- The project with one story file. -/
def before : Session where
  tree := FileTree.small [("a.ts", Stored.ofSource "export default {component:A}" 1)]

/-- What the registry of the one story file holds. -/
def text : String :=
  match (ends (Pipeline.run settings ["/p/a.ts"]) before).1 with
  | .ok product => jsonText product.registry.document
  | .error _ => ""

/-- The project with its registry. -/
def synced : FileTree := before.tree.putText (registryFile settings.registryPath) text

/-- The project with one more story file, which came later. -/
def after : Session where
  tree := { synced with
    files := Table.set ["p", "b.ts"] (Stored.ofSource "export default {component:B}" 3)
      synced.files }

/-- The registry can be written, and has items of these names. -/
def lists (names : List String) (product : Pipeline.Product) : Bool :=
  Output.canWrite product.registry.document && product.registry.items.map Item.name == names

/-- As JSON the registry has so many bytes. -/
def isLong (size : Nat) (product : Pipeline.Product) : Bool :=
  (jsonText product.registry.document).utf8ByteSize == size

/-- A run over story files that make up a registry reports it, and leaves it in addition to what
there was. -/
theorem exists_run (since : Option Instant) {s : Session} {paths names : List String}
    {product : Pipeline.Product}
    (hfound : ((ends (Sync.storyFiles settings { since }) s).1.toOption.any (· == paths)) = true)
    (hmade : (ends (Pipeline.run settings paths) s).1 = .ok product)
    (hlists : lists names product = true) (hne : paths ≠ [] ∧ names ≠ [])
    (htakes : s.tree.takes (registryFile settings.registryPath) = true) :
    ∃ report s', ends (Sync.run settings { since }) s = (.ok report, s') ∧
      report.registry = some product.registry ∧ report.success = true ∧
      product.registry.items.map Item.name = names ∧
      s'.tree = s.tree.putText (registryFile settings.registryPath)
        (jsonText product.registry.document) := by
  obtain ⟨hwritable, hnames⟩ := Bool.and_eq_true_iff.1 hlists
  obtain rfl : product.registry.items.map Item.name = names := beq_iff_eq.1 hnames
  obtain ⟨report, s', hend, hreport, hsuccess, htree⟩ :=
    Sync.exists_report (P := (· = s.tree.putText (registryFile settings.registryPath)
      (jsonText product.registry.document))) (eq_ok_of_any hfound) hne.1 hmade fun t htree => by
        rw [← htree] at htakes ⊢
        exact Sync.exists_publish_registry rfl rfl rfl htakes hwritable
  refine ⟨report, s', hend, hreport, ?_, rfl, htree⟩
  rw [hsuccess]
  cases hitems : product.registry.items with
  | nil => exact absurd (by rw [hitems]; rfl) hne.2
  | cons i rest => rfl

/-- A run over the one story file leaves its registry. -/
theorem exists_run_before : ∃ report s, ends (Sync.run settings { since := none }) before =
    (.ok report, s) ∧ report.success = true ∧ s.tree = synced := by
  have hchecked : ((ends (Pipeline.run settings ["/p/a.ts"]) before).1.toOption.any
      (lists ["a"])) = true := by decide +kernel
  obtain ⟨product, hmade, hlists⟩ := exists_ok_of_any hchecked
  obtain ⟨report, s, hend, -, hsuccess, -, htree⟩ :=
    exists_run none (by decide +kernel) hmade hlists ⟨by simp, by simp⟩ (by decide +kernel)
  have htext : text = jsonText product.registry.document := by
    unfold text
    rw [hmade]
  refine ⟨report, s, hend, hsuccess, ?_⟩
  rw [htree, synced, htext]

/-- A run over both story files leaves the items of both. -/
theorem exists_full_run : ∃ report s r, ends (Sync.run settings { since := none }) after =
    (.ok report, s) ∧ report.registry = some r ∧ r.items.map Item.name = ["a", "b"] ∧
      (jsonText r.document).utf8ByteSize = 756 := by
  have hchecked : ((ends (Pipeline.run settings ["/p/a.ts", "/p/b.ts"]) after).1.toOption.any
      fun product => lists ["a", "b"] product && isLong 756 product) = true := by decide +kernel
  obtain ⟨product, hmade, hproduct⟩ := exists_ok_of_any hchecked
  obtain ⟨hlists, hlong⟩ := Bool.and_eq_true_iff.1 hproduct
  obtain ⟨report, s, hend, hreport, -, hnames, -⟩ :=
    exists_run none (by decide +kernel) hmade hlists ⟨by simp, by simp⟩ (by decide +kernel)
  exact ⟨report, s, product.registry, hend, hreport, hnames, beq_iff_eq.1 hlong⟩

/-- A run over the story file that was changed leaves the item of that file alone. -/
theorem exists_recent_run : ∃ report s r,
    ends (Sync.run settings { since := some since }) after = (.ok report, s) ∧
      report.registry = some r ∧ r.items.map Item.name = ["b"] ∧
      (jsonText r.document).utf8ByteSize = 431 := by
  have hchecked : ((ends (Pipeline.run settings ["/p/b.ts"]) after).1.toOption.any
      fun product => lists ["b"] product && isLong 431 product) = true := by decide +kernel
  obtain ⟨product, hmade, hproduct⟩ := exists_ok_of_any hchecked
  obtain ⟨hlists, hlong⟩ := Bool.and_eq_true_iff.1 hproduct
  obtain ⟨report, s, hend, hreport, -, hnames, -⟩ :=
    exists_run (some since) (by decide +kernel) hmade hlists ⟨by simp, by simp⟩ (by decide +kernel)
  exact ⟨report, s, product.registry, hend, hreport, hnames, beq_iff_eq.1 hlong⟩

/-- Nothing but the later story file is new since the run over the first one. -/
theorem onlyChanged {s : Session} (h : s.tree = synced) :
    Sync.OnlyChanged settings since s after where
  here := by rw [h]; rfl
  folders := by rw [h]; rfl
  files place hplace := by
    rw [h] at hplace
    have hfound : ((ends (Discovery.storyFiles settings) after).1.toOption.any
        (· == ["/p/a.ts", "/p/b.ts"])) = true := by decide +kernel
    refine ⟨_, "/p/b.ts", eq_ok_of_any hfound, by simp, ?_, by decide +kernel⟩
    by_cases hb : place = ["p", "b.ts"]
    · rw [hb]
      decide +kernel
    · exact absurd (Table.get?_set_of_ne hb _ _) hplace

end OneChanged

open OneChanged in
/-- A run that takes only the changed one of two story files leaves its item alone, where a run over
all files leaves both items. -/
theorem registry_of_one_changed_file :
    ∃ full recent s₁ s₂ r r' path f j,
      ends (Sync.run settings { since := none }) after = (.ok full, s₁) ∧ full.registry = some r ∧
      ends (Sync.run settings { since := some since }) after = (.ok recent, s₂) ∧
      recent.registry = some r' ∧
      r.items.map Item.name = ["a", "b"] ∧ r'.items.map Item.name = ["b"] ∧
      s₁.tree.Holds (Output.registryFile settings.registryPath) (Output.jsonText r.document) ∧
      s₂.tree.Holds (Output.registryFile settings.registryPath) (Output.jsonText r'.document) ∧
      Discovery.isChangedSince after.tree since path = true ∧
      Assembly.item settings f (some (Analysis.inSession settings after f)) = .ok (some j) ∧
      j.document ∈ r'.items.map Item.document := by
  obtain ⟨full, s₁, r, hfull, hr, hnames, -⟩ := exists_full_run
  obtain ⟨recent, s₂, r', hrecent, hr', hnames', -⟩ := exists_recent_run
  obtain ⟨paths, -, -, -, hheld, hheld', hall, -⟩ :=
    @Sync.registry_of_changed_files settings {} since after s₁ s₂ full recent r r' hfull hr
      hrecent hr'
  have hthere : "b" ∈ r'.items.map Item.name := by
    rw [hnames']
    exact List.mem_singleton_self "b"
  obtain ⟨i, hi, -⟩ := List.mem_map.1 hthere
  obtain ⟨path, f, j, -, hchanged, hitem, hdocument⟩ := hall i hi
  exact ⟨full, recent, s₁, s₂, r, r', path, f, j, hfull, hr, hrecent, hr', hnames, hnames', hheld,
    hheld', hchanged, hitem, List.mem_map.2 ⟨i, hi, hdocument.symm⟩⟩

/-- Where nothing but changed story files differs from what a run over all files left, a run over
the changed ones need not leave what a run over all files would: items of unchanged files are lost.
-/
theorem not_registry_of_all_files :
    ¬∀ (settings : Settings) (options : Sync.Options) (since : Instant) (s₀ s t s₁ s₂ : Session)
      (first full recent : Report),
      ends (Sync.run settings { options with since := none }) s₀ = (.ok first, s) →
      first.success = true → Sync.OnlyChanged settings since s t →
      ends (Sync.run settings { options with since := none }) t = (.ok full, s₁) →
      full.registry.isSome = true →
      ends (Sync.run settings { options with since := some since }) t = (.ok recent, s₂) →
      recent.registry.isSome = true →
      ∀ text, s₁.tree.Holds (Output.registryFile settings.registryPath) text →
        s₂.tree.Holds (Output.registryFile settings.registryPath) text := by
  intro hsame
  obtain ⟨first, s, hfirst, hsuccess, htree⟩ := OneChanged.exists_run_before
  obtain ⟨full, s₁, r, hfull, hr, -, hlong⟩ := OneChanged.exists_full_run
  obtain ⟨recent, s₂, r', hrecent, hr', -, hshort⟩ := OneChanged.exists_recent_run
  obtain ⟨-, -, -, hheld⟩ := Sync.registry_of_run hfull hr
  obtain ⟨-, -, -, hheld'⟩ := Sync.registry_of_run hrecent hr'
  have hkept := hsame OneChanged.settings {} OneChanged.since OneChanged.before s OneChanged.after
    s₁ s₂ first full recent hfirst hsuccess (OneChanged.onlyChanged htree) hfull (by rw [hr]; rfl)
    hrecent (by rw [hr']; rfl) _ hheld
  have hsize := congrArg String.utf8ByteSize (hkept.unique hheld')
  rw [hlong, hshort] at hsize
  exact absurd hsize (by decide)

end StoryRegistry
