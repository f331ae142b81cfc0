import StoryRegistry.Proofs.FileTree.Home
import StoryRegistry.Proofs.Glob.Following

/-!
# Patterns at two homes

A pattern that is followed below two homes of one project leads to the same ways, as long as all that is
tried can be looked up from both. In which order a folder lists its entries does not matter.
-/

set_option autoImplicit false

namespace StoryRegistry

open FileTree (SameProject)

variable {home home' : Home} {t t' : FileTree} {way : List String}

/-! ## Paths to the same ways -/

/-- The same ways lead to the paths of the one list and to those of the other. -/
structure Home.SameWays (home home' : Home) (paths paths' : List Path) : Prop where
  below : ∀ p ∈ paths, ∃ way, p = home.path way
  below' : ∀ p ∈ paths', ∃ way, p = home'.path way
  mem_iff : ∀ way, home.path way ∈ paths ↔ home'.path way ∈ paths'

namespace Home.SameWays

theorem map {α : Type} {items items' : List α} (f : α → List String)
    (h : ∀ a, a ∈ items ↔ a ∈ items') :
    home.SameWays home' (items.map fun a => home.path (f a)) (items'.map fun a => home'.path (f a)) where
  below p hp := by
    obtain ⟨a, -, rfl⟩ := List.mem_map.1 hp
    exact ⟨_, rfl⟩
  below' p hp := by
    obtain ⟨a, -, rfl⟩ := List.mem_map.1 hp
    exact ⟨_, rfl⟩
  mem_iff way := by
    rw [List.mem_map, List.mem_map]
    refine exists_congr fun a => and_congr (h a) ?_
    exact ⟨fun heq => congrArg home'.path (Home.path_injective heq),
      fun heq => congrArg home.path (Home.path_injective heq)⟩

theorem nil : home.SameWays home' [] [] :=
  @map home home' (List String) [] [] id fun _ => .rfl

theorem single (way : List String) : home.SameWays home' [home.path way] [home'.path way] :=
  @map home home' (List String) [way] [way] id fun _ => .rfl

/-- Tests that agree on the ways keep the same ways. -/
theorem filterM {f g : Path → Except FileError Bool} {E : FileError → FileError → Prop}
    {paths paths' kept : List Path} (h : home.SameWays home' paths paths')
    (hagree : ∀ way, home.path way ∈ paths → Agree E Eq (f (home.path way)) (g (home'.path way)))
    (hkept : paths.filterM f = .ok kept) :
    ∃ kept', paths'.filterM g = .ok kept' ∧ home.SameWays home' kept kept' := by
  obtain ⟨hok, rfl⟩ := filterM_eq_ok_iff.1 hkept
  have hpasses (way : List String) (hmem : home.path way ∈ paths) :
      ∃ passes, f (home.path way) = .ok passes ∧ g (home'.path way) = .ok passes := by
    obtain ⟨passes, hf⟩ := hok _ hmem
    obtain ⟨passes', hg, rfl⟩ := (hagree way hmem).exists_ok hf
    exact ⟨passes, hf, hg⟩
  refine ⟨_, filterM_eq_ok_iff.2 ⟨fun p hp => ?_, rfl⟩, ?_, ?_, fun way => ?_⟩
  · obtain ⟨way, rfl⟩ := h.below' p hp
    obtain ⟨passes, -, hg⟩ := hpasses way ((h.mem_iff way).2 hp)
    exact ⟨passes, hg⟩
  · exact fun p hp => h.below p (List.mem_of_mem_filter hp)
  · exact fun p hp => h.below' p (List.mem_of_mem_filter hp)
  · rw [List.mem_filter, List.mem_filter, ← h.mem_iff way]
    refine and_congr_right fun hmem => ?_
    obtain ⟨passes, hf, hg⟩ := hpasses way hmem
    rw [hf, hg]

/-- Lists of which each has one of the other side with the same ways in it have the same ways in all. -/
theorem flatten {lists lists' : List (List Path)}
    (h : ∀ list ∈ lists, ∃ list' ∈ lists', home.SameWays home' list list')
    (h' : ∀ list' ∈ lists', ∃ list ∈ lists, home.SameWays home' list list') :
    home.SameWays home' lists.flatten lists'.flatten where
  below p hp := by
    obtain ⟨list, hmem, hp⟩ := List.mem_flatten.1 hp
    obtain ⟨_, _, hways⟩ := h list hmem
    exact hways.below p hp
  below' p hp := by
    obtain ⟨list', hmem', hp⟩ := List.mem_flatten.1 hp
    obtain ⟨_, _, hways⟩ := h' list' hmem'
    exact hways.below' p hp
  mem_iff way := by
    rw [List.mem_flatten, List.mem_flatten]
    constructor
    · rintro ⟨list, hmem, hway⟩
      obtain ⟨list', hmem', hways⟩ := h list hmem
      exact ⟨list', hmem', (hways.mem_iff way).1 hway⟩
    · rintro ⟨list', hmem', hway⟩
      obtain ⟨list, hmem, hways⟩ := h' list' hmem'
      exact ⟨list, hmem, (hways.mem_iff way).2 hway⟩

/-- Where what is made of each path is the same ways, what is made of all of them is. -/
theorem mapM {f g : Path → Except FileError (List Path)} {paths paths' : List Path}
    {lists : List (List Path)} (h : home.SameWays home' paths paths')
    (hsame : ∀ way, home.path way ∈ paths → ∀ list, f (home.path way) = .ok list →
      ∃ list', g (home'.path way) = .ok list' ∧ home.SameWays home' list list')
    (hlists : List.Forall₂ (fun p list => f p = .ok list) paths lists) :
    ∃ lists', List.Forall₂ (fun p list => g p = .ok list) paths' lists' ∧
      home.SameWays home' lists.flatten lists'.flatten := by
  have hboth (way : List String) (hway : home.path way ∈ paths) : ∃ list list',
      list ∈ lists ∧ f (home.path way) = .ok list ∧ g (home'.path way) = .ok list' ∧
        home.SameWays home' list list' := by
    obtain ⟨list, hmem, hlist⟩ := exists_of_forall₂ hlists.flip hway
    obtain ⟨list', hlist', hways⟩ := hsame way hway list hlist
    exact ⟨list, list', hmem, hlist, hlist', hways⟩
  obtain ⟨lists', hmade⟩ : ∃ lists', paths'.mapM g = .ok lists' := by
    refine exists_mapM fun p hp => ?_
    obtain ⟨way, rfl⟩ := h.below' p hp
    obtain ⟨-, list', -, -, hlist', -⟩ := hboth way ((h.mem_iff way).2 hp)
    exact ⟨list', hlist'⟩
  have hlists' := mapM_eq_ok_iff.1 hmade
  refine ⟨lists', hlists', flatten (fun list hmem => ?_) fun list' hmem' => ?_⟩
  · obtain ⟨p, hp, hlist⟩ := exists_of_forall₂ hlists hmem
    obtain ⟨way, rfl⟩ := h.below p hp
    obtain ⟨made, list', -, hmade, hlist', hways⟩ := hboth way hp
    cases hlist.symm.trans hmade
    obtain ⟨made', hmem', hmade'⟩ := exists_of_forall₂ hlists'.flip ((h.mem_iff way).1 hp)
    cases hlist'.symm.trans hmade'
    exact ⟨_, hmem', hways⟩
  · obtain ⟨p, hp, hlist'⟩ := exists_of_forall₂ hlists' hmem'
    obtain ⟨way, rfl⟩ := h.below' p hp
    obtain ⟨list, made', hmem, -, hmade', hways⟩ := hboth way ((h.mem_iff way).2 hp)
    cases hlist'.symm.trans hmade'
    exact ⟨list, hmem, hways⟩

end Home.SameWays

/-! ## Following a pattern -/

namespace Glob

theorem entry_path (home : Home) (way : List String) (name : String) :
    entry (home.path way) name = home.path (way ++ [name]) :=
  congrArg (Path.mk 1) (List.append_assoc _ _ _)

/-- From both homes there are the same folders below. -/
theorem Step.folders_at_homes (h : SameProject home home' t t') (huse : home.Usable home' way)
    {asksFolder : Bool} {next : List Path}
    (hnext : Step.folders.next t asksFolder (home.path way) = .ok next) :
    ∃ next', Step.folders.next t' asksFolder (home'.path way) = .ok next' ∧
      home.SameWays home' next next' := by
  obtain ⟨⟨spot, hspot⟩, rfl⟩ := Step.next_folders_ok.1 hnext
  obtain ⟨spot', hspot', hlike⟩ := (h.find huse).exists_ok hspot
  refine ⟨_, Step.next_folders_ok.2 ⟨⟨spot', hspot'⟩, rfl⟩, ?_⟩
  have hentry (home : Home) (more : List String) :
      (⟨1, home.place ++ way ++ more⟩ : Path) = home.path (way ++ more) :=
    congrArg (Path.mk 1) (List.append_assoc _ _ _)
  unfold Step.tries
  rw [hspot, hspot']
  cases hlike with
  | folder other =>
    simp only [Home.segments_path]
    show home.SameWays home' (List.map (fun more => ⟨1, home.place ++ way ++ more⟩) _)
      (List.map (fun more => ⟨1, home'.place ++ way ++ more⟩) _)
    simp only [hentry]
    exact .map _ fun more => h.mem_foldersBelow other
  | file => exact .nil
  | free => exact .nil

/-- From both homes there are the same names that fit. -/
theorem Step.names_at_homes (h : SameProject home home' t t') (huse : home.Usable home' way)
    {pieces : List Wildcard} {asksFolder : Bool}
    (htries : ∀ more, home.path more ∈ (Step.names pieces).tries t (home.path way) →
      home.Usable home' more) {next : List Path}
    (hnext : (Step.names pieces).next t asksFolder (home.path way) = .ok next) :
    ∃ next', (Step.names pieces).next t' asksFolder (home'.path way) = .ok next' ∧
      home.SameWays home' next next' := by
  obtain ⟨found, hlist, hnext⟩ := Step.next_names_ok.1 hnext
  obtain ⟨found', hlist', hnames⟩ := (h.list huse).exists_ok hlist
  have hentry (home : Home) : entry (home.path way) = fun name => home.path (way ++ [name]) :=
    funext (entry_path home way)
  have hsame : home.SameWays home' ((found.filter (fits pieces)).map (entry (home.path way)))
      ((found'.filter (fits pieces)).map (entry (home'.path way))) := by
    rw [hentry, hentry]
    refine .map _ fun name => ?_
    rw [List.mem_filter, List.mem_filter, hnames name]
  have hmem : ∀ more, home.path more ∈ (found.filter (fits pieces)).map (entry (home.path way)) →
      home.Usable home' more := by
    intro more hmore
    refine htries more ?_
    unfold Step.tries
    rw [hlist]
    exact hmore
  cases asksFolder with
  | false =>
    cases hnext
    exact ⟨_, Step.next_names_ok.2 ⟨found', hlist', rfl⟩, hsame⟩
  | true =>
    obtain ⟨next', hnext', hways⟩ :=
      hsame.filterM (fun more hmore => h.isFolder (hmem more hmore)) hnext
    exact ⟨next', Step.next_names_ok.2 ⟨found', hlist', hnext'⟩, hways⟩

/-- From both homes there is something of that name, or from none. -/
theorem Step.name_at_homes (h : SameProject home home' t t') {text : String} {asksFolder : Bool}
    (htext : home.Usable home' (way ++ [text])) {next : List Path}
    (hnext : (Step.name text).next t asksFolder (home.path way) = .ok next) :
    ∃ next', (Step.name text).next t' asksFolder (home'.path way) = .ok next' ∧
      home.SameWays home' next next' := by
  obtain ⟨found, hfound, rfl⟩ := Step.next_name_ok.1 hnext
  have hfound' : (if asksFolder then t'.isFolder (entry (home'.path way) text)
      else t'.isThere (entry (home'.path way) text)) = .ok found := by
    rw [entry_path] at hfound ⊢
    cases asksFolder with
    | true => exact (h.isFolder htext).eq_ok hfound
    | false => exact (h.isThere htext).eq_ok hfound
  refine ⟨_, Step.next_name_ok.2 ⟨found, hfound', rfl⟩, ?_⟩
  rw [entry_path, entry_path]
  cases found with
  | false => exact .nil
  | true => exact .single _

/-- A step leads to the same ways from both homes. -/
theorem Step.next_at_homes (h : SameProject home home' t t') (huse : home.Usable home' way)
    {step : Step} {asksFolder : Bool}
    (htries : ∀ more, home.path more ∈ step.tries t (home.path way) → home.Usable home' more)
    {next : List Path} (hnext : step.next t asksFolder (home.path way) = .ok next) :
    ∃ next', step.next t' asksFolder (home'.path way) = .ok next' ∧
      home.SameWays home' next next' := by
  cases step with
  | folders => exact Step.folders_at_homes h huse hnext
  | names pieces => exact Step.names_at_homes h huse htries hnext
  | name text =>
    refine Step.name_at_homes h (htries _ ?_) hnext
    rw [Step.tries, entry_path]
    exact List.mem_singleton_self _

/-- Where all that is tried can be looked up from both homes, a pattern leads to the same ways. The
induction is on the steps that are left. -/
theorem follow_at_homes (h : SameProject home home' t t') {folderOnly : Bool} {steps : List Step}
    {found : List Path} (huse : home.Usable home' way)
    (hvisited : ∀ more, home.path more ∈ visited t folderOnly steps (home.path way) →
      home.Usable home' more)
    (hfound : follow t folderOnly steps (home.path way) = .ok found) :
    ∃ found', follow t' folderOnly steps (home'.path way) = .ok found' ∧
      home.SameWays home' found found' := by
  induction steps generalizing way found with
  | nil =>
    cases hfound
    exact ⟨_, rfl, .single way⟩
  | cons step rest ih =>
    obtain ⟨next, lists, hnext, hlists, rfl⟩ := follow_cons_ok.1 hfound
    obtain ⟨next', hnext', hways⟩ := Step.next_at_homes h huse
      (fun more hmore => hvisited more (mem_visited_of_tries hmore)) hnext
    obtain ⟨lists', hlists', hsame⟩ := hways.mapM (fun more hmore list hlist =>
      ih (hvisited more (mem_visited_of_tries (Step.mem_tries hnext hmore)))
        (fun last hlast => hvisited last (mem_visited_of_next hnext hmore hlast)) hlist) hlists
    exact ⟨_, follow_cons_ok.2 ⟨next', lists', hnext', hlists', rfl⟩, hsame⟩

end Glob

end StoryRegistry
