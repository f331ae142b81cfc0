import StoryRegistry.Proofs.Graph.Analysis
import StoryRegistry.Proofs.Session.Progress

/-!
# Files that cannot be read do not stop the search

A file whose text cannot be read has no dependencies and is noted once, and the entries of all other
files are what they are without it: each is what finding the dependencies of that file alone comes to.
Only a file that cannot be listed stops the search, and leaves all other files without a graph.
-/

set_option autoImplicit false

namespace StoryRegistry.DependencyGraph

open Import (SameLookups)

variable {settings : Settings} {following : Bool} {s : Session}

/-! ## What a graph lists for a file -/

theorem get?_graphOf {keys : List String} {path : String} (h : path ∈ keys) :
    Table.get? path (graphOf settings s keys).graph = some (entry (analysis settings s path)) := by
  unfold graphOf
  dsimp only
  induction keys with
  | nil => exact absurd h List.not_mem_nil
  | cons key rest ih =>
    rw [List.map_cons, Table.get?]
    by_cases hkey : key = path
    · rw [if_pos hkey, hkey]
    · rw [if_neg hkey]
      exact ih ((List.mem_cons.1 h).resolve_left (Ne.symm hkey))

/-- What is kept about a file that is listed once is kept once. -/
theorem failures_graphOf {keys : List String} {path : String} (hdistinct : keys.Nodup)
    (h : path ∈ keys) :
    (graphOf settings s keys).failures.filter (fun failure => failure.1 = path) =
      noted path (analysis settings s path) := by
  have hown (key : String) : (noted key (analysis settings s key)).filter
      (fun failure => failure.1 = path) =
        if key = path then noted path (analysis settings s path) else [] := by
    by_cases hkey : key = path
    · subst hkey
      rw [if_pos rfl]
      cases analysis settings s key <;> simp [noted]
    · rw [if_neg hkey]
      cases analysis settings s key <;> simp [noted, hkey]
  obtain ⟨before, after, rfl⟩ := List.append_of_mem h
  obtain ⟨-, hrest, hapart⟩ := List.nodup_append.1 hdistinct
  have hother (others : List String) (hnot : path ∉ others) :
      (others.flatMap fun key => noted key (analysis settings s key)).filter
        (fun failure => failure.1 = path) = [] := by
    induction others with
    | nil => rfl
    | cons key rest ih =>
      rw [List.flatMap_cons, List.filter_append, hown,
        if_neg fun (heq : key = path) => hnot (heq ▸ List.mem_cons_self), List.nil_append]
      exact ih fun hmem => hnot (List.mem_cons_of_mem _ hmem)
  unfold graphOf
  dsimp only
  rw [List.flatMap_append, List.flatMap_cons, List.filter_append, List.filter_append, hown,
    if_pos rfl, hother before fun hmem => hapart path hmem path List.mem_cons_self rfl,
    hother after (List.nodup_cons.1 hrest).1]
  simp

/-! ## The search with and without a file -/

/-- More starts lead to more files. -/
theorem Reached.mono {starts more : List String} (hsub : starts ⊆ more) {path : String}
    (h : Reached settings following s starts path) : Reached settings following s more path := by
  induction h with
  | start hmem => exact .start (hsub hmem)
  | follow _ hleads ih => exact .follow ih hleads

/-- Building a graph succeeds exactly if every file that is reached can be listed. -/
theorem exists_build_iff (settings : Settings) (following : Bool) (s : Session)
    (paths : List String) :
    (∃ b, (ends (build settings following paths) s).1 = .ok b) ↔
      ∀ path, Reached settings following s (paths.map Path.normalize) path →
        Listable settings s path := by
  rcases ends_build settings following s paths with
    ⟨all, -, hreached, hsettled, hend⟩ | ⟨path, e, hpath, hescapes, hend⟩
  · refine iff_of_true ⟨_, hend⟩ fun path hpath => listable_iff.2 ?_
    exact hsettled path ((hreached path).2 hpath)
  · refine iff_of_false (fun ⟨b, hb⟩ => ?_) fun hall => ?_
    · rw [hend] at hb
      cases hb
    · exact listable_iff.1 (hall path hpath) e hescapes

/-- A graph that was built lists what is reached, each file once. -/
theorem exists_graphOf {paths : List String} {b : Building}
    (hb : (ends (build settings following paths) s).1 = .ok b) :
    ∃ all : List String, all.Nodup ∧ b = graphOf settings s all ∧
      ∀ path, path ∈ all ↔ Reached settings following s (paths.map Path.normalize) path := by
  rcases ends_build settings following s paths with
    ⟨all, hdistinct, hreached, -, hend⟩ | ⟨path, e, -, -, hend⟩
  · rw [hend] at hb
    exact ⟨all, hdistinct, (Except.ok.inj hb).symm, hreached⟩
  · rw [hend] at hb
    cases hb

/-- Building a graph succeeds exactly if every file that is reached can be listed. A file that is
reached but cannot be analysed is then listed without dependencies and noted once; and the graph of any
of the given files succeeds as well, with the same entry for each of them. -/
theorem build_of_listable (settings : Settings) (following : Bool) (s : Session)
    (paths : List String) :
    ((∃ b, (ends (build settings following paths) s).1 = .ok b) ↔
        ∀ path, Reached settings following s (paths.map Path.normalize) path →
          Listable settings s path) ∧
      ∀ b, (ends (build settings following paths) s).1 = .ok b →
        (∀ path e, Reached settings following s (paths.map Path.normalize) path →
          analysis settings s path = .error e →
            Table.get? path b.graph = some [] ∧
              b.failures.filter (fun failure => failure.1 = path) = [(path, e)]) ∧
        ∀ others, others ⊆ paths →
          ∃ b', (ends (build settings following others) s).1 = .ok b' ∧
            ∀ path ∈ others, ∃ dependencies,
              Table.get? (Path.normalize path) b.graph = some dependencies ∧
                Table.get? (Path.normalize path) b'.graph = some dependencies := by
  refine ⟨exists_build_iff settings following s paths, fun b hb => ?_⟩
  obtain ⟨all, hdistinct, rfl, hreached⟩ := exists_graphOf hb
  constructor
  · intro path e hpath herror
    have hmem := (hreached path).2 hpath
    rw [get?_graphOf hmem, failures_graphOf hdistinct hmem, herror]
    exact ⟨rfl, rfl⟩
  · intro others hsub
    -- fewer files are reached from fewer paths, so that they can be listed as well
    have hfewer : others.map Path.normalize ⊆ paths.map Path.normalize := List.map_subset _ hsub
    obtain ⟨b', hb'⟩ := (exists_build_iff settings following s others).2 fun path hpath =>
      (exists_build_iff settings following s paths).1 ⟨_, hb⟩ path (hpath.mono hfewer)
    obtain ⟨fewer, -, rfl, hreached'⟩ := exists_graphOf hb'
    refine ⟨_, hb', fun path hpath => ⟨entry (analysis settings s (Path.normalize path)), ?_, ?_⟩⟩
    · exact get?_graphOf ((hreached _).2 (.start (hfewer (List.mem_map_of_mem hpath))))
    · exact get?_graphOf ((hreached' _).2 (.start (List.mem_map_of_mem hpath)))

/-! ## A file whose bytes are no text -/

namespace BrokenFile

/-- A project with a file that holds one byte that begins no character, and an empty file. -/
def session : Session := { tree := .small [("a.ts", ⟨[255], 1⟩), ("b.ts", .ofSource "" 1)] }

/-- What is wrong with the first file. -/
def cause : FileError := .malformed { first := 0, count := 1, byte := 255, reason := .startByte }

theorem readText_first : session.tree.readText (Path.ofString "/p/a.ts") = .error cause := by
  decide +kernel

theorem listable_first : Listable (.small false) session "/p/a.ts" := by
  unfold Listable
  rw [readText_first]
  rfl

theorem listable_second : Listable (.small false) session "/p/b.ts" := by
  have hread : session.tree.readText (Path.ofString "/p/b.ts") = .ok "" := by decide +kernel
  have hnone : (Script.Module.ofFile "/p/b.ts" "").imports = [] := by decide +kernel
  refine (listable_of_text hread).2 fun specifier hspecifier => ?_
  rw [hnone] at hspecifier
  exact absurd hspecifier List.not_mem_nil

end BrokenFile

open BrokenFile in
/-- A file that holds no text is listed without dependencies and noted, and the other file has the
entry that it has in a graph of its own. -/
theorem graph_of_broken_file : ∃ b b' dependencies,
    (ends (build (.small false) false ["/p/a.ts", "/p/b.ts"]) session).1 = .ok b ∧
      Table.get? "/p/a.ts" b.graph = some [] ∧
      b.failures.filter (fun failure => failure.1 = "/p/a.ts") =
        [("/p/a.ts", .unreadableImports "/p/a.ts" cause)] ∧
      (ends (build (.small false) false ["/p/b.ts"]) session).1 = .ok b' ∧
      Table.get? "/p/b.ts" b.graph = some dependencies ∧
      Table.get? "/p/b.ts" b'.graph = some dependencies := by
  obtain ⟨hbuilt, hentries⟩ :=
    build_of_listable (.small false) false session ["/p/a.ts", "/p/b.ts"]
  have hstarts : ["/p/a.ts", "/p/b.ts"].map Path.normalize = ["/p/a.ts", "/p/b.ts"] := by
    decide +kernel
  have hnormal : Path.normalize "/p/b.ts" = "/p/b.ts" := by decide +kernel
  rw [hstarts] at hbuilt hentries
  obtain ⟨b, hb⟩ := hbuilt.2 fun path hpath => by
    cases hpath with
    | start hmem =>
      rcases List.mem_cons.1 hmem with rfl | hmem
      · exact listable_first
      · rw [List.mem_singleton.1 hmem]
        exact listable_second
    | follow _ hleads =>
      obtain ⟨hfollowing, -⟩ := hleads
      cases hfollowing
  obtain ⟨hfailed, hothers⟩ := hentries b hb
  have hbroken : analysis (.small false) session "/p/a.ts" =
      .error (.unreadableImports "/p/a.ts" cause) := analysis_of_error readText_first
  obtain ⟨hentry, hnoted⟩ := hfailed "/p/a.ts" _ (.start List.mem_cons_self) hbroken
  obtain ⟨b', hb', hsame⟩ := hothers ["/p/b.ts"] (by simp)
  obtain ⟨dependencies, hfirst, hsecond⟩ := hsame "/p/b.ts" List.mem_cons_self
  rw [hnormal] at hfirst hsecond
  exact ⟨b, b', dependencies, hb, hentry, hnoted, hb', hfirst, hsecond⟩

end StoryRegistry.DependencyGraph
