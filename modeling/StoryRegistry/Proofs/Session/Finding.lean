import StoryRegistry.Proofs.Glob.Home
import StoryRegistry.Proofs.Session.Apart
import StoryRegistry.Proofs.Text.Order

/-!
# Finding story files at two homes

Below two homes of one project the same ways lead to the story files that are found
(`Discovery.storyFiles_at_homes`), if all that is tried can be looked up from both and the excluding
patterns decide alike. Those patterns are matched against whole paths, so that a folder above the home
can decide.
-/

set_option autoImplicit false

namespace StoryRegistry

open FileTree (SameProject)
open StoryRegistry.Path (IsNormal pieces settle)

variable {home home' : Home} {t t' : FileTree} {way : List String}

/-- The settings of a project with its paths taken from a home. -/
def Home.settings (home : Home) (base : Settings) : Settings :=
  { base with
    root := home.path []
    storybookPath := home.path base.storybookPath.segments
    componentsPath := home.path base.componentsPath.segments
    tsconfigPath := home.path base.tsconfigPath.segments
    registryPath := home.path base.registryPath.segments }

/-! ## Texts of the same ways -/

/-- The same ways lead to the texts of the one list and to those of the other. -/
structure Home.SameTexts (home home' : Home) (texts texts' : List String) : Prop where
  below : ∀ text ∈ texts, ∃ way, IsNormal ⟨1, way⟩ ∧ home.text way = text
  below' : ∀ text ∈ texts', ∃ way, IsNormal ⟨1, way⟩ ∧ home'.text way = text
  mem_iff : ∀ way, IsNormal ⟨1, way⟩ → (home.text way ∈ texts ↔ home'.text way ∈ texts')

/-- Texts of ways are in the order of what stands behind the home. -/
theorem Home.text_lt_iff (home : Home) {way other : List String} :
    (home.text way).toList.map Text.codeOf < (home.text other).toList.map Text.codeOf ↔
      (Home.behind way).toList.map Text.codeOf < (Home.behind other).toList.map Text.codeOf := by
  have hcancel (front s t : List Nat) : front ++ s < front ++ t ↔ s < t := by
    induction front with
    | nil => rfl
    | cons code rest ih => simp [ih]
  rw [Home.text_eq home way, Home.text_eq home other, String.toList_append, String.toList_append,
    List.map_append, List.map_append, hcancel]

/-- Texts of ways are the texts of a list of ways. -/
theorem Home.SameTexts.exists_ways {texts texts' list : List String}
    (h : home.SameTexts home' texts texts') (hsub : list ⊆ texts) :
    ∃ ways : List (List String), list = ways.map home.text ∧ ∀ way ∈ ways, IsNormal ⟨1, way⟩ := by
  induction list with
  | nil => exact ⟨[], rfl, nofun⟩
  | cons text rest ih =>
    obtain ⟨way, hway, rfl⟩ := h.below text (hsub List.mem_cons_self)
    obtain ⟨ways, rfl, hways⟩ := ih fun other hmem => hsub (List.mem_cons_of_mem _ hmem)
    exact ⟨way :: ways, rfl, List.forall_mem_cons.2 ⟨hway, hways⟩⟩

/-- In order and each once, the texts are those of one list of ways. -/
theorem Home.SameTexts.sorted {texts texts' : List String} (h : home.SameTexts home' texts texts') :
    ∃ ways : List (List String), Text.sorted (Glob.distinct texts) = ways.map home.text ∧
      Text.sorted (Glob.distinct texts') = ways.map home'.text ∧
        ∀ way ∈ ways, IsNormal ⟨1, way⟩ := by
  have hmem {texts : List String} {text : String} :
      text ∈ Text.sorted (Glob.distinct texts) ↔ text ∈ texts :=
    Text.mem_sorted.trans Glob.mem_distinct
  obtain ⟨ways, hsorted, hnormal⟩ := h.exists_ways fun text htext => hmem.1 htext
  refine ⟨ways, hsorted, ?_, hnormal⟩
  have hascending := Text.ascending_sorted (Glob.nodup_distinct texts)
  have hascending' := Text.ascending_sorted (Glob.nodup_distinct texts')
  rw [hsorted] at hascending
  refine hascending'.eq_of_mem_iff ?_ fun text => ?_
  · unfold Text.Ascending at hascending ⊢
    rw [List.pairwise_map] at hascending ⊢
    exact hascending.imp fun hlt => (home'.text_lt_iff).2 ((home.text_lt_iff).1 hlt)
  · rw [hmem, List.mem_map]
    constructor
    · intro htext
      obtain ⟨way, hway, rfl⟩ := h.below' text htext
      have hin := hmem.2 ((h.mem_iff way hway).2 htext)
      rw [hsorted, List.mem_map] at hin
      obtain ⟨other, hother, heq⟩ := hin
      exact ⟨other, hother, congrArg home'.text (Home.text_injective (hnormal other hother) hway heq)⟩
    · rintro ⟨way, hway, rfl⟩
      refine (h.mem_iff way (hnormal way hway)).1 (hmem.1 ?_)
      rw [hsorted]
      exact List.mem_map_of_mem hway

theorem Home.SameTexts.nil : home.SameTexts home' [] [] where
  below _ htext := absurd htext List.not_mem_nil
  below' _ htext := absurd htext List.not_mem_nil
  mem_iff _ _ := iff_of_false List.not_mem_nil List.not_mem_nil

theorem Home.SameTexts.append {texts texts' more more' : List String}
    (h : home.SameTexts home' texts texts') (hmore : home.SameTexts home' more more') :
    home.SameTexts home' (texts ++ more) (texts' ++ more') where
  below text htext := (List.mem_append.1 htext).elim (h.below text) (hmore.below text)
  below' text htext := (List.mem_append.1 htext).elim (h.below' text) (hmore.below' text)
  mem_iff way hway := by
    rw [List.mem_append, List.mem_append, h.mem_iff way hway, hmore.mem_iff way hway]

/-! ## Finding story files -/

namespace Discovery

/-- The way to the file that a way leads to, resolved and with backslashes read as slashes. -/
def landing (way : List String) : List String := settle (pieces (settle way))

theorem isNormal_landing (way : List String) : IsNormal ⟨1, landing way⟩ :=
  Path.isNormal_settle (settle way)

theorem normalize_resolve_path (huse : home.Usable home' way) (here : Path) :
    Path.normalize (here.resolve (home.path way)).toText = home.text (landing way) ∧
      Path.normalize (here.resolve (home'.path way)).toText = home'.text (landing way) := by
  have hresolve (home : Home) : here.resolve (home.path way) = home.path (settle way) := by
    unfold Path.resolve Path.join
    rw [if_pos (home.isAbsolute_path way), Home.normal_path huse.stays]
    rfl
  rw [hresolve, hresolve, Home.toText_path, Home.toText_path, Home.normalize_text huse.lands,
    Home.normalize_text huse.lands]
  exact ⟨rfl, rfl⟩

/-- A plain pattern selects the files to which the same ways lead. -/
theorem selected_at_homes (h : SameProject home home' t t') {folder : List String} {pattern : String}
    (huse : home.Usable home' folder)
    (htried : ∀ way, home.path way ∈ tried t (home.path folder) pattern → home.Usable home' way)
    {files : List String} (hfiles : selected t (home.path folder) pattern = .ok files) :
    ∃ files', selected t' (home'.path folder) pattern = .ok files' ∧
      home.SameTexts home' files files' := by
  obtain ⟨way, found, kept, hway, hfound, hkept, rfl⟩ := selected_eq_ok_iff.1 hfiles
  have hvisited : ∀ more, home.path more ∈ Glob.visited t way.folderOnly way.steps (home.path folder) →
      home.Usable home' more := fun more hmore => htried more (by rw [tried, hway]; exact hmore)
  obtain ⟨found', hfound', hsame⟩ := Glob.follow_at_homes h huse hvisited hfound
  have huseFound : ∀ more, home.path more ∈ found → home.Usable home' more := by
    intro more hmore
    rcases Glob.mem_visited_of_follow hfound hmore with heq | hmem
    · rw [Home.path_injective heq]
      exact huse
    · exact hvisited more hmem
  obtain ⟨kept', hkept', hways⟩ :=
    hsame.filterM (fun more hmore => h.isFile (huseFound more hmore)) hkept
  refine ⟨_, selected_eq_ok_iff.2 ⟨way, found', kept', hway, hfound', hkept', rfl⟩, ?_⟩
  have huseKept : ∀ more, home.path more ∈ kept → home.Usable home' more := by
    intro more hmore
    rw [(filterM_eq_ok_iff.1 hkept).2] at hmore
    exact huseFound more (List.mem_of_mem_filter hmore)
  refine ⟨fun text htext => ?_, fun text htext => ?_, fun last hlast => ?_⟩
  · obtain ⟨p, hp, rfl⟩ := List.mem_map.1 htext
    obtain ⟨more, rfl⟩ := hways.below p hp
    exact ⟨_, isNormal_landing more, ((normalize_resolve_path (huseKept more hp) _).1).symm⟩
  · obtain ⟨p, hp, rfl⟩ := List.mem_map.1 htext
    obtain ⟨more, rfl⟩ := hways.below' p hp
    have hmore := (hways.mem_iff more).2 hp
    exact ⟨_, isNormal_landing more, ((normalize_resolve_path (huseKept more hmore) _).2).symm⟩
  · rw [List.mem_map, List.mem_map]
    constructor
    · rintro ⟨p, hp, heq⟩
      obtain ⟨more, rfl⟩ := hways.below p hp
      have hlands := normalize_resolve_path (huseKept more hp)
      rw [(hlands _).1] at heq
      refine ⟨_, (hways.mem_iff more).1 hp, (hlands _).2.trans ?_⟩
      exact congrArg home'.text (Home.text_injective (isNormal_landing more) hlast heq)
    · rintro ⟨p, hp, heq⟩
      obtain ⟨more, rfl⟩ := hways.below' p hp
      have hmore := (hways.mem_iff more).2 hp
      have hlands := normalize_resolve_path (huseKept more hmore)
      rw [(hlands _).2] at heq
      refine ⟨_, hmore, (hlands _).1.trans ?_⟩
      exact congrArg home.text (Home.text_injective (isNormal_landing more) hlast heq)

/-- Plain patterns select, one after the other, the files to which the same ways lead. -/
theorem selectedLists_at_homes (h : SameProject home home' t t') {folder : List String}
    {patterns : List String} {lists : List (List String)} (huse : home.Usable home' folder)
    (htried : ∀ pattern ∈ patterns, ∀ way,
      home.path way ∈ tried t (home.path folder) pattern → home.Usable home' way)
    (hlists : List.Forall₂ (fun pattern files => selected t (home.path folder) pattern = .ok files)
      patterns lists) :
    ∃ lists', List.Forall₂ (fun pattern files =>
        selected t' (home'.path folder) pattern = .ok files) patterns lists' ∧
      home.SameTexts home' lists.flatten lists'.flatten := by
  induction hlists with
  | nil => exact ⟨[], .nil, .nil⟩
  | cons hfirst _ ih =>
    obtain ⟨files', hfiles', hsame⟩ :=
      selected_at_homes h huse (htried _ List.mem_cons_self) hfirst
    obtain ⟨lists', hlists', hmore⟩ :=
      ih fun pattern hmem => htried pattern (List.mem_cons_of_mem _ hmem)
    exact ⟨files' :: lists', .cons hfiles' hlists', hsame.append hmore⟩

/-- All patterns select the files to which the same ways lead. -/
theorem allSelected_at_homes (h : SameProject home home' t t') {folder : List String}
    {patterns : List String} (huse : home.Usable home' folder)
    (htried : ∀ pattern ∈ patterns.flatMap Glob.expand, ∀ way,
      home.path way ∈ tried t (home.path folder) pattern → home.Usable home' way)
    {paths : List String} (hpaths : allSelected t (home.path folder) patterns = .ok paths) :
    ∃ ways : List (List String), paths = ways.map home.text ∧
      allSelected t' (home'.path folder) patterns = .ok (ways.map home'.text) ∧
        ∀ way ∈ ways, IsNormal ⟨1, way⟩ := by
  obtain ⟨found, hfound, rfl⟩ := allSelected_eq_ok_iff.1 hpaths
  obtain ⟨found', hfound', hsame⟩ := selectedLists_at_homes h huse htried hfound
  obtain ⟨ways, hsorted, hsorted', hnormal⟩ := hsame.sorted
  exact ⟨ways, hsorted, allSelected_eq_ok_iff.2 ⟨found', hfound', hsorted'.symm⟩, hnormal⟩

/-- Everything that is looked at to find story files can be looked up from both homes. -/
def IsUsable (home home' : Home) (base : Settings) (t : FileTree) : Prop :=
  ∀ way, home.path way ∈ looked (home.settings base) t → home.Usable home' way

/-- The excluding patterns decide alike about the files that the patterns select. -/
def ExcludesAlike (home home' : Home) (base : Settings) (t : FileTree) : Prop :=
  ∀ found, allSelected t (home.settings base).storybookPath base.storiesPatterns = .ok found →
    ∀ way, IsNormal ⟨1, way⟩ → home.text way ∈ found →
      isExcluded base.excludePatterns (home.text way) = isExcluded base.excludePatterns (home'.text way)

/-- At both homes the same ways lead to the story files. -/
theorem storyFiles_at_homes {base : Settings} {s s' : Session}
    (h : SameProject home home' s.tree s'.tree) (huse : IsUsable home home' base s.tree)
    (hexcludes : ExcludesAlike home home' base s.tree) {paths : List String}
    (hpaths : (ends (storyFiles (home.settings base)) s).1 = .ok paths) :
    ∃ ways : List (List String), paths = ways.map home.text ∧
      (ends (storyFiles (home'.settings base)) s').1 = .ok (ways.map home'.text) ∧
        ∀ way ∈ ways, IsNormal ⟨1, way⟩ := by
  have hfolder := h.isFolder (huse _ List.mem_cons_self)
  rcases storyFiles_eq_ok_iff.1 hpaths with ⟨hnone, rfl⟩ | ⟨hthere, found, hall, rfl⟩
  · exact ⟨[], rfl, storyFiles_eq_ok_iff.2 (.inl ⟨hfolder.eq_ok hnone, rfl⟩), nofun⟩
  have htried : ∀ pattern ∈ base.storiesPatterns.flatMap Glob.expand, ∀ way,
      home.path way ∈ tried s.tree (home.settings base).storybookPath pattern →
        home.Usable home' way := by
    intro pattern hpattern way hway
    refine huse way (List.mem_cons_of_mem _ ?_)
    rw [hthere]
    exact List.mem_flatMap.2 ⟨pattern, hpattern, hway⟩
  obtain ⟨ways, rfl, hall', hnormal⟩ :=
    allSelected_at_homes h (huse _ List.mem_cons_self) htried hall
  refine ⟨ways.filter fun way => !isExcluded base.excludePatterns (home.text way), List.filter_map,
    storyFiles_eq_ok_iff.2 (.inr ⟨hfolder.eq_ok hthere, _, hall', ?_⟩), fun way hway =>
      hnormal way (List.mem_of_mem_filter hway)⟩
  rw [List.filter_map]
  refine congrArg _ (List.filter_congr fun way hway => ?_)
  exact congrArg Bool.not (hexcludes _ hall way (hnormal way hway) (List.mem_map_of_mem hway))

end Discovery

end StoryRegistry
