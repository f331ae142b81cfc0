import Mathlib.Data.List.Perm.Subperm
import Mathlib.Data.List.TakeWhile
import Mathlib.Data.Nat.Digits.Defs
import StoryRegistry.Proofs.Graph.Cycles
import StoryRegistry.Proofs.Import.Targets
import StoryRegistry.Proofs.Session.Pipeline

/-!
# Building a graph reaches every file

Building a graph looks at the pending files one after another. Before each step every start, and every
file that a file of the graph leads to, is in the graph or pending, and nothing else is. So when
nothing new is pending the graph holds the files that are reached from the starts, each with what
finding its dependencies comes to in the session in which building began.

Nothing bounds the pending files, which may be there many times. What ends the search is that a file
is found only at a path of limited length: there is room for all such paths in the graph.
-/

set_option autoImplicit false

namespace StoryRegistry

/-- The failure says that the imports of a file could not be collected. -/
def Failure.isOfImports : Failure → Bool
  | .unreadableImports _ _ => true
  | _ => false

namespace DependencyGraph

open Import (SameLookups)

/-! ## Files that are reached -/

/-- What finding the dependencies of a file comes to in a session. -/
def analysis (settings : Settings) (s : Session) (path : String) :
    Except Failure (List Dependency) :=
  (ends (dependenciesOf settings path) s).1

/-- Finding the dependencies of the file fails, and that is not noted but ends the whole search. -/
def Escapes (settings : Settings) (s : Session) (path : String) (e : Failure) : Prop :=
  analysis settings s path = .error e ∧ e.isOfImports = false

/-- The one file has an internal dependency that is resolved to the other, a source file that is
there and is to be looked at too. -/
def Leads (settings : Settings) (following : Bool) (s : Session) (path next : String) : Prop :=
  following = true ∧ ∃ found, analysis settings s path = .ok found ∧
    (∃ d ∈ found, d.kind = .internal ∧ d.path = some next ∧ next ≠ "") ∧
    sourceEndings.any (Text.endsWith next) = true ∧
    s.tree.isFile (Path.ofString next) = .ok true

/-- The files to which one comes from the given ones. -/
inductive Reached (settings : Settings) (following : Bool) (s : Session) (starts : List String) :
    String → Prop where
  | start {path : String} : path ∈ starts → Reached settings following s starts path
  | follow {path next : String} :
      Reached settings following s starts path → Leads settings following s path next →
      Reached settings following s starts next

variable {settings : Settings} {following : Bool} {s t : Session} {starts : List String}

/-- An internal dependency of a file is what one of the specifiers in it is resolved to. -/
theorem exists_resolve {path : String} {found : List Dependency}
    (h : analysis settings s path = .ok found) {d : Dependency} (hd : d ∈ found)
    (hkind : d.kind = .internal) :
    ∃ specifier target, Import.resolve s.tree specifier path = .ok target ∧
      d.path = some target := by
  have hend : ends (dependenciesOf settings path) s =
      (.ok found, (ends (dependenciesOf settings path) s).2) := Prod.ext h rfl
  unfold dependenciesOf at hend
  rw [ends.bind_of_ok (ends.attempt_eq _ s)] at hend
  -- the file was read, and that changed nothing
  have hread : (ends (Run.text (Path.ofString path)) s).2 = s := by rw [Run.text, ends.look_eq]
  rw [hread] at hend
  cases hsource : (ends (Run.text (Path.ofString path)) s).1 with
  | error e =>
    rw [hsource] at hend
    dsimp only at hend
    cases hunread : e.unread? <;> rw [hunread] at hend <;> cases congrArg Prod.fst hend
  | ok source =>
    rw [hsource] at hend
    obtain ⟨specifier, hone⟩ := Import.exists_specifier (congrArg Prod.fst hend) hd
    obtain ⟨target, hresolve, htarget⟩ := (Import.of_dependency? hone).1 hkind
    exact ⟨specifier, target, hresolve, htarget⟩

/-! ## Room for the files that are reached -/

/-- A text as a number, its bytes being the digits. -/
def numeral (text : String) : Nat :=
  Nat.ofDigits 257 (text.toUTF8.data.toList.map fun byte => byte.toNat + 1)

theorem numeral_digits (text : String) :
    Nat.digits 257 (numeral text) = text.toUTF8.data.toList.map fun byte => byte.toNat + 1 := by
  refine Nat.digits_ofDigits 257 (by omega) _ (fun digit hdigit => ?_) fun hne => ?_
  · obtain ⟨byte, -, rfl⟩ := List.mem_map.1 hdigit
    have hbyte := byte.toNat_lt
    omega
  · obtain ⟨byte, -, hbyte⟩ := List.mem_map.1 (List.getLast_mem hne)
    omega

theorem numeral_injective : Function.Injective numeral := by
  intro text other h
  have hdigits : Nat.digits 257 (numeral text) = Nat.digits 257 (numeral other) := by rw [h]
  rw [numeral_digits, numeral_digits] at hdigits
  have hbytes := List.map_injective_iff.2 (fun (a b : UInt8) (hab : a.toNat + 1 = b.toNat + 1) =>
    UInt8.toNat_inj.1 (Nat.succ.inj hab)) hdigits
  exact String.toByteArray_inj.1 (ByteArray.ext (Array.toList_inj.1 hbytes))

/-- Texts of limited length are less than a number. -/
theorem numeral_lt {text : String} {size : Nat} (h : text.utf8ByteSize ≤ size) :
    numeral text < Nat.pow 257 size := by
  have hlt : numeral text < 257 ^ (text.toUTF8.data.toList.map fun byte => byte.toNat + 1).length := by
    refine Nat.ofDigits_lt_base_pow_length (by omega) fun digit hdigit => ?_
    obtain ⟨byte, -, rfl⟩ := List.mem_map.1 hdigit
    have hbyte := byte.toNat_lt
    omega
  refine lt_of_lt_of_le hlt (Nat.pow_le_pow_right (by omega) ?_)
  rw [List.length_map]
  exact h

/-- There is room for different files that are given or have a path of limited length. -/
theorem length_le_roomFor {keys : List String} (hdistinct : keys.Nodup)
    (h : ∀ key ∈ keys, key ∈ starts ∨ key.utf8ByteSize ≤ FileTree.longestPath + 2) :
    keys.length ≤ roomFor starts := by
  have hstarts : (keys.filter (· ∈ starts)).length ≤ starts.length := by
    refine (List.subperm_of_subset (hdistinct.filter _) fun key hkey => ?_).length_le
    simpa using (List.mem_filter.1 hkey).2
  have hothers : (keys.filter (· ∉ starts)).length ≤ Nat.pow 257 (FileTree.longestPath + 2) := by
    have hrange : (keys.filter (· ∉ starts)).map numeral ⊆
        List.range (Nat.pow 257 (FileTree.longestPath + 2)) := by
      intro n hn
      obtain ⟨key, hkey, rfl⟩ := List.mem_map.1 hn
      obtain ⟨hmem, hnot⟩ := List.mem_filter.1 hkey
      have hsize := (h key hmem).resolve_left (by simpa using hnot)
      exact List.mem_range.2 (numeral_lt hsize)
    have hlength := (List.subperm_of_subset
      ((hdistinct.filter _).map numeral_injective) hrange).length_le
    rwa [List.length_map, List.length_range] at hlength
  have hall := List.length_eq_length_filter_add (l := keys) (fun key => decide (key ∈ starts))
  have hsplit : keys.length = (keys.filter (· ∈ starts)).length +
      (keys.filter (· ∉ starts)).length := by simpa using hall
  unfold roomFor
  generalize Nat.pow 257 (FileTree.longestPath + 2) = room at hothers ⊢
  omega

/-- A file is found only at a path of limited length. -/
theorem size_of_isFile {t : FileTree} {p : Path} (h : t.isFile p = .ok true) :
    p.toText.utf8ByteSize ≤ FileTree.longestPath := by
  by_contra hlong
  have hfind : ∃ e, t.find p = .error e := by
    unfold FileTree.find
    dsimp only
    split
    · exact ⟨_, rfl⟩
    · split
      · exact ⟨_, rfl⟩
      · exact ⟨_, if_pos (by omega)⟩
  obtain ⟨e, hfind⟩ := hfind
  unfold FileTree.isFile FileTree.test at h
  rw [hfind] at h
  dsimp only at h
  split at h <;> cases h

/-- A file that is reached is given, or has a path of limited length. -/
theorem size_of_reached {path : String} (h : Reached settings following s starts path) :
    path ∈ starts ∨ path.utf8ByteSize ≤ FileTree.longestPath + 2 := by
  cases h with
  | start hmem => exact Or.inl hmem
  | follow _ hleads =>
    obtain ⟨-, found, hfound, ⟨d, hd, hkind, hpath, -⟩, -, hfile⟩ := hleads
    obtain ⟨specifier, target, hresolve, htarget⟩ := exists_resolve hfound hd hkind
    have heq : path = target := Option.some.inj (hpath.symm.trans htarget)
    have hwritten := Import.size_resolve hresolve
    rw [← heq] at hwritten
    have hsize := size_of_isFile hfile
    exact Or.inr (by omega)

/-! ## Looking at one file -/

/-- The dependencies that a graph lists for a file. -/
def entry : Except Failure (List Dependency) → List Dependency
  | .ok found => found
  | .error _ => []

/-- The failures that are kept for a file. -/
def noted (path : String) : Except Failure (List Dependency) → List (String × Failure)
  | .ok _ => []
  | .error e => [(path, e)]

/-- The graph of files as they are in a session. -/
def graphOf (settings : Settings) (s : Session) (keys : List String) : Building where
  graph := keys.map fun key => (key, entry (analysis settings s key))
  failures := keys.flatMap fun key => noted key (analysis settings s key)

@[simp] theorem names_graphOf (keys : List String) :
    Table.names (graphOf settings s keys).graph = keys := by
  simp [graphOf, Table.names, Function.comp_def]

/-- One more file is listed after the others. -/
theorem graphOf_concat (keys : List String) (path : String) :
    graphOf settings s (keys ++ [path]) =
      ⟨(graphOf settings s keys).graph ++ [(path, entry (analysis settings s path))],
        (graphOf settings s keys).failures ++ noted path (analysis settings s path)⟩ := by
  simp [graphOf]

/-- Sessions that know the same find the same dependencies. -/
theorem analysis_eq (h : SameLookups settings s t) (path : String) :
    analysis settings t path = analysis settings s path :=
  (steady_dependenciesOf path).agrees h

/-- A failure that escapes is what looking at the file comes to. -/
theorem ends_dependenciesOrFailure_of_escapes {path : String} {e : Failure}
    (h : Escapes settings t path e) :
    (ends (dependenciesOrFailure settings path) t).1 = .error e := by
  obtain ⟨herror, hkind⟩ := h
  unfold analysis at herror
  unfold dependenciesOrFailure
  rw [ends.bind_of_ok (ends.attempt_eq _ t), herror]
  cases e <;> first | rfl | cases hkind

/-- Without one, looking at the file comes to its entry and the failures that are kept for it. -/
theorem ends_dependenciesOrFailure {path : String} (h : ∀ e, ¬Escapes settings t path e) :
    (ends (dependenciesOrFailure settings path) t).1 =
      .ok (entry (analysis settings t path), noted path (analysis settings t path)) := by
  unfold dependenciesOrFailure
  rw [ends.bind_of_ok (ends.attempt_eq _ t)]
  have hfold : (ends (dependenciesOf settings path) t).1 = analysis settings t path := rfl
  rw [hfold]
  cases houtcome : analysis settings t path with
  | ok found => rfl
  | error e =>
    have hkind : e.isOfImports = true := by
      by_contra hno
      exact h e ⟨houtcome, by simpa using hno⟩
    cases e <;> first | rfl | cases hkind

/-- The files that are to be looked at next are those to which the file leads, less those that the
graph holds. -/
theorem exists_followed (settings : Settings) (s : Session) (g : DependencyGraph) (path : String) :
    ∃ next, followed s.tree g (entry (analysis settings s path)) = .ok next ∧
      ∀ x, x ∈ next ↔ x ∉ Table.names g ∧ Leads settings true s path x := by
  cases houtcome : analysis settings s path with
  | error e =>
    refine ⟨[], rfl, fun x => ?_⟩
    simp [Leads, houtcome]
  | ok found =>
    -- every target was resolved, and so it can be tested for
    have htargets : ∀ target ∈ found.filterMap Dependency.target?,
        ∃ there, s.tree.isFile (Path.ofString target) = .ok there := by
      intro target htarget
      obtain ⟨d, hd, hdtarget⟩ := List.mem_filterMap.1 htarget
      obtain ⟨hkind, hpath, -⟩ := target?_eq_some_iff.1 hdtarget
      obtain ⟨specifier, resolved, hresolve, hresolved⟩ := exists_resolve houtcome hd hkind
      have heq : target = resolved := Option.some.inj (hpath.symm.trans hresolved)
      rw [heq]
      exact Import.exists_isFile_resolve hresolve
    obtain ⟨next, hnext⟩ : ∃ next, followed s.tree g found = .ok next := by
      refine exists_filterM fun target htarget => ?_
      split
      · exact htargets target htarget
      · exact ⟨false, rfl⟩
    refine ⟨next, hnext, fun x => ?_⟩
    rw [filterM_ok hnext, List.mem_filter, List.mem_filterMap]
    simp only [target?_eq_some_iff]
    constructor
    · rintro ⟨⟨d, hd, hkind, hpath, hfilled⟩, hpasses⟩
      split at hpasses
      · rename_i htest
        obtain ⟨hnew, hsource⟩ := Bool.and_eq_true_iff.1 htest
        obtain ⟨there, hthere⟩ := htargets x
          (List.mem_filterMap.2 ⟨d, hd, target?_eq_some_iff.2 ⟨hkind, hpath, hfilled⟩⟩)
        have hfile : there = true := by simpa [hthere, Except.toOption] using hpasses
        rw [hfile] at hthere
        exact ⟨by simpa using hnew, rfl, found, houtcome, ⟨d, hd, hkind, hpath, hfilled⟩, hsource,
          hthere⟩
      · simp [Except.toOption] at hpasses
    · rintro ⟨hnew, -, other, hother, hdependency, hsource, hfile⟩
      rw [houtcome] at hother
      cases hother
      refine ⟨hdependency, ?_⟩
      rw [if_pos (by simp [hnew, hsource]), hfile]
      rfl

/-! ## The search -/

/-- The graph holds files that are reached, and what is still to be looked at is pending. -/
structure Frontier (settings : Settings) (following : Bool) (s : Session)
    (starts keys pending : List String) : Prop where
  /-- Each file is listed once. -/
  distinct : keys.Nodup
  /-- Every file that is listed or pending is reached. -/
  reached : ∀ path, path ∈ keys ∨ path ∈ pending → Reached settings following s starts path
  /-- Every start is listed or pending. -/
  given : ∀ path ∈ starts, path ∈ keys ∨ path ∈ pending
  /-- Every file that a listed one leads to is listed or pending. -/
  closed : ∀ path ∈ keys, ∀ next, Leads settings following s path next →
    next ∈ keys ∨ next ∈ pending
  /-- No listed file ended the search. -/
  settled : ∀ path ∈ keys, ∀ e, ¬Escapes settings s path e

namespace Frontier

variable {keys pending rest next : List String} {path : String}

/-- With nothing new pending the search is over. -/
theorem finish (h : Frontier settings following s starts keys pending)
    (hseen : ∀ path ∈ pending, path ∈ keys) :
    Frontier settings following s starts keys [] where
  distinct := h.distinct
  reached path hpath := h.reached path (Or.inl (hpath.resolve_right List.not_mem_nil))
  given path hpath := Or.inl ((h.given path hpath).elim id (hseen path))
  closed path hpath next hleads := Or.inl ((h.closed path hpath next hleads).elim id (hseen next))
  settled := h.settled

/-- The first pending file that is new is listed, and what it leads to becomes pending. -/
theorem step (h : Frontier settings following s starts keys pending)
    (hfirst : pending.dropWhile (keys.contains ·) = path :: rest)
    (hsettled : ∀ e, ¬Escapes settings s path e)
    (hnext : ∀ x, x ∈ next ↔ x ∉ keys ++ [path] ∧ Leads settings following s path x) :
    Frontier settings following s starts (keys ++ [path]) (rest ++ next) := by
  have hnew : path ∉ keys := by
    have hhead := List.head?_dropWhile_not (keys.contains ·) pending
    rw [hfirst] at hhead
    simpa using hhead
  have hpending : ∀ x ∈ path :: rest, x ∈ pending := by
    rw [← hfirst]
    exact fun x hx => (List.dropWhile_suffix _).subset hx
  have hreached := h.reached path (Or.inr (hpending path List.mem_cons_self))
  -- what was pending is still, or was passed over as listed, or is listed now
  have hkept : ∀ x, x ∈ keys ∨ x ∈ pending → x ∈ keys ++ [path] ∨ x ∈ rest ++ next := by
    rintro x (hx | hx)
    · exact Or.inl (List.mem_append_left _ hx)
    · rw [← List.takeWhile_append_dropWhile (p := (keys.contains ·)) (l := pending), hfirst] at hx
      rcases List.mem_append.1 hx with hx | hx
      · have hseen := List.mem_takeWhile_imp hx
        exact Or.inl (List.mem_append_left _ (by simpa using hseen))
      · rcases List.mem_cons.1 hx with rfl | hx
        · exact Or.inl (by simp)
        · exact Or.inr (List.mem_append_left _ hx)
  refine ⟨?_, ?_, fun x hx => hkept x (h.given x hx), ?_, ?_⟩
  · exact List.nodup_append.2 ⟨h.distinct, List.nodup_singleton _, by
      rintro x hx y hy rfl
      exact hnew (List.mem_singleton.1 hy ▸ hx)⟩
  · intro x hx
    simp only [List.mem_append, List.mem_singleton] at hx
    rcases hx with (hx | rfl) | hx | hx
    · exact h.reached x (Or.inl hx)
    · exact hreached
    · exact h.reached x (Or.inr (hpending x (List.mem_cons_of_mem _ hx)))
    · exact hreached.follow ((hnext x).1 hx).2
  · intro x hx y hleads
    rcases List.mem_append.1 hx with hx | hx
    · exact hkept y (h.closed x hx y hleads)
    · rw [List.mem_singleton.1 hx] at hleads
      by_cases hy : y ∈ keys ++ [path]
      · exact Or.inl hy
      · exact Or.inr (List.mem_append_right _ ((hnext y).2 ⟨hy, hleads⟩))
  · intro x hx
    rcases List.mem_append.1 hx with hx | hx
    · exact h.settled x hx
    · rw [List.mem_singleton.1 hx]
      exact hsettled

/-- When the search is over the files that are listed are those that are reached. -/
theorem mem_iff_reached (h : Frontier settings following s starts keys []) (path : String) :
    path ∈ keys ↔ Reached settings following s starts path := by
  constructor
  · exact fun hpath => h.reached path (Or.inl hpath)
  · intro hreached
    induction hreached with
    | start hmem => exact (h.given _ hmem).resolve_right List.not_mem_nil
    | follow _ hleads ih => exact (h.closed _ ih _ hleads).resolve_right List.not_mem_nil

/-- There is room for one more file as long as a new one is pending. -/
theorem length_lt (h : Frontier settings following s starts keys pending) (hpath : path ∈ pending)
    (hnew : path ∉ keys) : keys.length < roomFor starts := by
  have hall : (path :: keys).length ≤ roomFor starts := by
    refine length_le_roomFor (List.nodup_cons.2 ⟨hnew, h.distinct⟩) fun key hkey => ?_
    rcases List.mem_cons.1 hkey with rfl | hkey
    · exact size_of_reached (h.reached key (Or.inr hpath))
    · exact size_of_reached (h.reached key (Or.inl hkey))
  exact Nat.lt_of_succ_le hall

end Frontier

/-- One step of the search ends it with a failure that escapes, or lists the file and goes on. -/
theorem ends_visit_succ {keys pending rest : List String} {path : String} (following : Bool)
    (room : Nat)
    (hlike : SameLookups settings s t)
    (hfirst : pending.dropWhile (keys.contains ·) = path :: rest) :
    (∃ e, Escapes settings s path e ∧
        (ends (visit settings following (room + 1) pending (graphOf settings s keys)) t).1 =
          .error e) ∨
      (∀ e, ¬Escapes settings s path e) ∧ ∃ next t',
        SameLookups settings s t' ∧
        (∀ x, x ∈ next ↔ x ∉ keys ++ [path] ∧ Leads settings following s path x) ∧
        ends (visit settings following (room + 1) pending (graphOf settings s keys)) t =
          ends (visit settings following room (rest ++ next) (graphOf settings s (keys ++ [path])))
            t' := by
  have hsame : ∀ e, Escapes settings t path e ↔ Escapes settings s path e := by
    intro e
    rw [Escapes, Escapes, analysis_eq hlike]
  have hlooked : SameLookups settings s (ends (dependenciesOrFailure settings path) t).2 :=
    trans_of _ hlike ((steady_dependenciesOrFailure path).leaves t)
  rw [visit]
  simp only [names_graphOf, hfirst]
  by_cases hescapes : ∃ e, Escapes settings s path e
  · obtain ⟨e, he⟩ := hescapes
    left
    have hend : ends (dependenciesOrFailure settings path) t = (.error e, _) :=
      Prod.ext (ends_dependenciesOrFailure_of_escapes ((hsame e).2 he)) rfl
    exact ⟨e, he, by rw [ends.bind_of_error hend]⟩
  · right
    rw [not_exists] at hescapes
    refine ⟨hescapes, ?_⟩
    have hend : ends (dependenciesOrFailure settings path) t =
        (.ok (entry (analysis settings s path), noted path (analysis settings s path)),
          (ends (dependenciesOrFailure settings path) t).2) := by
      refine Prod.ext ?_ rfl
      rw [ends_dependenciesOrFailure fun e => mt (hsame e).1 (hescapes e), analysis_eq hlike]
    rw [ends.bind_of_ok hend]
    dsimp only
    rw [← graphOf_concat]
    cases following with
    | false =>
      refine ⟨[], _, hlooked, fun x => ?_, rfl⟩
      simp [Leads]
    | true =>
      obtain ⟨next, hnext, hmem⟩ := exists_followed settings s
        (graphOf settings s (keys ++ [path])).graph path
      rw [names_graphOf] at hmem
      refine ⟨next, _, hlooked, hmem, ?_⟩
      have hlook : ends (Run.look fun tree => followed tree
            (graphOf settings s (keys ++ [path])).graph (entry (analysis settings s path)))
          (ends (dependenciesOrFailure settings path) t).2 =
            (.ok next, (ends (dependenciesOrFailure settings path) t).2) := by
        rw [ends.look_eq, hlooked.1, hnext]
        rfl
      rw [graphOf_concat] at hlook
      rw [if_pos rfl, ends.bind_of_ok hlook]

/-- The search lists all files that are reached, or ends with a failure that escapes at one of them.
The induction is on the room that is left; there is enough of it as every file that is reached has
its place. -/
theorem ends_visit {keys pending : List String} {room : Nat}
    (h : Frontier settings following s starts keys pending)
    (hroom : roomFor starts ≤ keys.length + room) (hlike : SameLookups settings s t) :
    (∃ all, Frontier settings following s starts all [] ∧
        (ends (visit settings following room pending (graphOf settings s keys)) t).1 =
          .ok (graphOf settings s all)) ∨
      ∃ path e, Reached settings following s starts path ∧ Escapes settings s path e ∧
        (ends (visit settings following room pending (graphOf settings s keys)) t).1 = .error e := by
  induction room generalizing keys pending t with
  | zero =>
    refine Or.inl ⟨keys, h.finish fun path hpath => ?_, rfl⟩
    by_contra hnew
    have hlt := h.length_lt hpath hnew
    omega
  | succ room ih =>
    cases hfirst : pending.dropWhile (keys.contains ·) with
    | nil =>
      refine Or.inl ⟨keys, h.finish fun path hpath => ?_, ?_⟩
      · simpa using List.dropWhile_eq_nil_iff.1 hfirst path hpath
      · rw [visit]
        simp only [names_graphOf, hfirst]
        rfl
    | cons path rest =>
      have hmem : path ∈ pending :=
        (List.dropWhile_suffix _).subset (hfirst ▸ List.mem_cons_self)
      rcases ends_visit_succ following room hlike hfirst with
        ⟨e, he, hend⟩ | ⟨hsettled, next, t', hlike', hnext, hend⟩
      · exact Or.inr ⟨path, e, h.reached path (Or.inr hmem), he, hend⟩
      · rw [hend]
        refine ih (h.step hfirst hsettled hnext) ?_ hlike'
        rw [List.length_append, List.length_singleton]
        omega

/-- Building a graph lists all files that are reached, each once, or ends with a failure that escapes
at one of them. -/
theorem ends_build (settings : Settings) (following : Bool) (s : Session) (paths : List String) :
    (∃ all : List String, all.Nodup ∧
        (∀ path, path ∈ all ↔
          Reached settings following s (paths.map Path.normalize) path) ∧
        (∀ path ∈ all, ∀ e, ¬Escapes settings s path e) ∧
        (ends (build settings following paths) s).1 = .ok (graphOf settings s all)) ∨
      ∃ path e, Reached settings following s (paths.map Path.normalize) path ∧
        Escapes settings s path e ∧ (ends (build settings following paths) s).1 = .error e := by
  have hinitial : Frontier settings following s (paths.map Path.normalize) []
      (paths.map Path.normalize) :=
    { distinct := List.nodup_nil
      reached := fun path hpath => .start (hpath.resolve_left List.not_mem_nil)
      given := fun path hpath => Or.inr hpath
      closed := fun path hpath => absurd hpath List.not_mem_nil
      settled := fun path hpath => absurd hpath List.not_mem_nil }
  have hroom : roomFor (paths.map Path.normalize) ≤
      ([] : List String).length + roomFor (paths.map Path.normalize) := Nat.le_add_left _ _
  rcases ends_visit hinitial hroom (refl_of (SameLookups settings) s) with
    ⟨all, hall, hend⟩ | hescape
  · exact Or.inl ⟨all, hall.distinct, hall.mem_iff_reached, hall.settled, hend⟩
  · exact Or.inr hescape

end DependencyGraph

end StoryRegistry
