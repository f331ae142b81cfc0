import StoryRegistry.Proofs.Session.Finding

/-!
# Analyses at two homes

The imports of a story file and the source of its component are looked up by paths that are put together
from the path of the story file and the settings. Where all these paths stay inside the project, they
lead to the same files below two homes of it, and the analyses come to the same.
-/

set_option autoImplicit false

namespace StoryRegistry

open FileTree (SameProject)
open StoryRegistry.Path (IsNormal IsWay pieces settle)

variable {home home' : Home} {t t' : FileTree} {way : List String}

/-! ## Texts below a folder -/

namespace Home

/-- The way to which a text leads from a folder. -/
def goal (folder : List String) (text : String) : List String :=
  settle (pieces (folder ++ (Path.ofString text).segments))

/-- From the folder the text leads to a way that can be looked up from both homes, and does not leave
the project in between. -/
structure Finds (home home' : Home) (folder : List String) (text : String) : Prop where
  relative : (Path.ofString text).isAbsolute = false
  stays : Path.stays 0 (pieces (folder ++ (Path.ofString text).segments)) = true
  reaches : home.Reaches (goal folder text)
  reaches' : home'.Reaches (goal folder text)

instance (home home' : Home) (folder : List String) (text : String) :
    Decidable (home.Finds home' folder text) :=
  decidable_of_iff ((Path.ofString text).isAbsolute = false ∧
      Path.stays 0 (pieces (folder ++ (Path.ofString text).segments)) = true ∧
      home.Reaches (goal folder text) ∧ home'.Reaches (goal folder text))
    ⟨fun h => ⟨h.1, h.2.1, h.2.2.1, h.2.2.2⟩, fun h => ⟨h.relative, h.stays, h.reaches, h.reaches'⟩⟩

theorem isNormal_goal (folder : List String) (text : String) : IsNormal ⟨1, goal folder text⟩ :=
  Path.isNormal_settle _

namespace Finds

variable {folder : List String} {text : String}

theorem usable (h : home.Finds home' folder text) : home.Usable home' (goal folder text) :=
  .of_isNormal (isNormal_goal folder text) h.reaches h.reaches'

theorem normalize_child (h : home.Finds home' folder text) (other : Home) :
    Path.normalize ((other.path folder).child text).toText = other.text (goal folder text) := by
  have hchild : (other.path folder).child text =
      other.path (folder ++ (Path.ofString text).segments) := by
    unfold Path.child Path.join
    rw [if_neg (by simp [h.relative])]
    exact congrArg (Path.mk 1) (List.append_assoc _ _ _)
  rw [hchild, toText_path, normalize_text h.stays]
  rfl

end Finds

theorem parent_path (h : way ≠ []) : (home.path way).parent = home.path way.dropLast :=
  congrArg (Path.mk 1) (List.dropLast_append_of_ne_nil h)

theorem name_path (h : way ≠ []) : (home.path way).name = (Path.mk 1 way).name := by
  unfold Path.name
  rw [segments_path, List.getLastD_eq_getLast?, List.getLastD_eq_getLast?,
    List.getLast?_append_of_ne_nil _ h]

/-- No file at both homes, or files to which one way leads. -/
inductive SameFile (home home' : Home) : Option String → Option String → Prop where
  | none : SameFile home home' none none
  | some {way : List String} (hway : IsWay way) (huse : home.Usable home' way) :
    SameFile home home' (some (home.text way)) (some (home'.text way))

end Home

/-! ## Imports -/

namespace Import

/-- Along the same ways the first file is the same. -/
theorem firstFile?_at_homes (h : SameProject home home' t t') {ways : List (List String)}
    (hways : ∀ way ∈ ways, IsNormal ⟨1, way⟩ ∧ home.Usable home' way) :
    Agree FileError.Alike (home.SameFile home') (firstFile? t (ways.map home.text))
      (firstFile? t' (ways.map home'.text)) := by
  induction ways with
  | nil => exact .ok .none
  | cons way rest ih =>
    obtain ⟨hnormal, huse⟩ := hways way List.mem_cons_self
    rw [List.map_cons, List.map_cons, firstFile?, firstFile?, Home.ofString_text hnormal,
      Home.ofString_text hnormal]
    refine (h.isFile huse).bind fun there there' hthere _ heq => ?_
    subst heq
    cases there with
    | false => exact ih fun other hmem => hways other (List.mem_cons_of_mem _ hmem)
    | true => exact .ok (.some ⟨h.ne_nil_of_isFile hthere, hnormal⟩ huse)

/-- The ways that are tried for a target without its ending. -/
def candidateWays (way : List String) : List (List String) :=
  endings.map (fun ending => way.dropLast ++ [way.getLastD "" ++ ending]) ++
    endings.map fun ending => way ++ ["index" ++ ending]

theorem candidates_text (hway : way ≠ []) (home : Home) :
    candidates (home.text way) = (candidateWays way).map home.text := by
  unfold candidates candidateWays
  rw [List.map_append, List.map_map, List.map_map]
  refine congrArg₂ _ (List.map_congr_left fun ending _ => ?_) (List.map_congr_left fun ending _ => ?_)
  · have hsplit : home.place ++ way = home.place ++ way.dropLast ++ [way.getLastD ""] := by
      obtain ⟨front, last, rfl⟩ := List.eq_nil_or_concat' way |>.resolve_left hway
      simp
    show Path.toText ⟨1, home.place ++ way⟩ ++ ending = Path.toText ⟨1, home.place ++ _⟩
    rw [hsplit, Path.toText_append, List.append_assoc]
  · have hfilled : (home.path way).segments ≠ [] := by simp [home.isWay.filled]
    have hindex : home.text way ++ "/index" ++ ending =
        (home.path way).toText ++ "/" ++ ("index" ++ ending) := by
      rw [← String.toList_inj]
      simp
    rw [hindex, Path.toText_concat hfilled]
    exact congrArg (fun segments => Path.toText ⟨1, segments⟩) (List.append_assoc _ _ _)

theorem isWay_of_mem_candidateWays (hway : IsWay way) {tried : List String}
    (h : tried ∈ candidateWays way) : IsWay tried := by
  have hconcat {front : List String} {name ending : String} (hfront : front <+: way)
      (hname : '/' ∉ name.toList ∧ '\\' ∉ name.toList) (hending : ending ∈ endings) :
      IsWay (front ++ [name ++ ending]) := by
    obtain ⟨hslash, hbackslash, hlength⟩ := ending_plain hending
    refine ⟨by simp, hway.normal.concat hfront (Path.isPlain_of_length ?_ ?_) ?_⟩
    · simp [hname.1, hslash]
    · rw [String.toList_append, List.length_append]
      omega
    · simp [hname.2, hbackslash]
  rcases List.mem_append.1 h with h | h
  · obtain ⟨ending, hending, rfl⟩ := List.mem_map.1 h
    refine hconcat (List.dropLast_prefix way) ?_ hending
    have hlast : way.getLastD "" ∈ way := by
      rw [List.getLastD_eq_getLast?, List.getLast?_eq_some_getLast hway.filled]
      exact List.getLast_mem hway.filled
    exact ⟨(hway.normal.whole _ hlast).noSlash, hway.normal.noBackslash _ hlast⟩
  · obtain ⟨ending, hending, rfl⟩ := List.mem_map.1 h
    exact hconcat (List.prefix_refl way) (by decide) hending

/-- What a relative specifier in a file can lead to stays inside the project and can be looked up from
both homes. -/
structure IsInside (home home' : Home) (importer : List String) (specifier : String) : Prop where
  finds : home.Finds home' importer.dropLast specifier
  filled : Home.goal importer.dropLast specifier ≠ []
  tried : ∀ way ∈ candidateWays (Home.goal importer.dropLast specifier),
    home.Reaches way ∧ home'.Reaches way

instance (home home' : Home) (importer : List String) (specifier : String) :
    Decidable (IsInside home home' importer specifier) :=
  decidable_of_iff (home.Finds home' importer.dropLast specifier ∧
      Home.goal importer.dropLast specifier ≠ [] ∧
      ∀ way ∈ candidateWays (Home.goal importer.dropLast specifier),
        home.Reaches way ∧ home'.Reaches way)
    ⟨fun h => ⟨h.1, h.2.1, h.2.2⟩, fun h => ⟨h.finds, h.filled, h.tried⟩⟩

/-- A relative specifier that stays inside refers to the same file from both homes. -/
theorem resolve_at_homes (h : SameProject home home' t t') (hway : IsWay way) {specifier : String}
    (hinside : IsInside home home' way specifier) :
    Agree FileError.Alike (fun path path' => home.SameFile home' (some path) (some path'))
      (resolve t specifier (home.text way)) (resolve t' specifier (home'.text way)) := by
  have htarget (other : Home) : target specifier (other.text way) =
      other.text (Home.goal way.dropLast specifier) := by
    unfold target
    rw [Home.ofString_text hway.normal, Home.parent_path hway.filled, hinside.finds.normalize_child]
  have hgoal : IsWay (Home.goal way.dropLast specifier) := ⟨hinside.filled, Home.isNormal_goal _ _⟩
  have hcandidates : ∀ tried ∈ candidateWays (Home.goal way.dropLast specifier),
      IsNormal ⟨1, tried⟩ ∧ home.Usable home' tried := by
    intro tried htried
    have hnormal := (isWay_of_mem_candidateWays hgoal htried).normal
    obtain ⟨hreaches, hreaches'⟩ := hinside.tried tried htried
    exact ⟨hnormal, .of_isNormal hnormal hreaches hreaches'⟩
  unfold resolve
  dsimp only
  rw [htarget, htarget, candidates_text hgoal.filled, candidates_text hgoal.filled]
  refine (firstFile?_at_homes h hcandidates).bind fun found found' _ _ hsame => ?_
  cases hsame with
  | none => exact .ok (.some hgoal hinside.finds.usable)
  | some hfound huse => exact .ok (.some hfound huse)

variable {base : Settings} {s s' : Session}

theorem isRelative_of_kind {specifier : String} (h : Specifier.kind specifier = .internal) :
    Specifier.isRelative specifier = true := by
  unfold Specifier.kind at h
  split at h
  · assumption
  · split at h <;> cases h

/-- The lookup of the package that a specifier lies in does not fail. -/
def Knows (settings : Settings) (s : Session) (specifier : String) : Prop :=
  ∃ version, known settings s (Specifier.package specifier) = .ok version

/-- A specifier that stays inside, or that lies in a package whose lookup fails at neither home, makes a
dependency at both homes or at none. -/
theorem dependency?_at_homes (h : SameProject home home' s.tree s'.tree) (hway : IsWay way)
    {specifier : String}
    (hinside : Specifier.isRelative specifier = true → IsInside home home' way specifier)
    (hknows : Specifier.kind specifier = .npm →
      Knows (home.settings base) s specifier ∧ Knows (home'.settings base) s' specifier) :
    Agree (fun _ _ => True) (fun _ _ => True)
      (ends (dependency? (home.settings base) (home.text way) specifier) s).1
      (ends (dependency? (home'.settings base) (home'.text way) specifier) s').1 := by
  unfold dependency?
  split
  · exact .ok trivial
  cases hkind : Specifier.kind specifier with
  | internal =>
    dsimp only
    have hresolve := resolve_at_homes h hway (hinside (isRelative_of_kind hkind))
    rw [ends.bind_eq, ends.bind_eq, ends.look_eq, ends.look_eq]
    revert hresolve
    generalize resolve s.tree specifier (home.text way) = outcome
    generalize resolve s'.tree specifier (home'.text way) = outcome'
    intro hresolve
    cases hresolve with
    | ok hsame => exact .ok trivial
    | error hkind => exact .error trivial
  | npm =>
    obtain ⟨⟨version, hknown⟩, ⟨version', hknown'⟩⟩ := hknows hkind
    dsimp only
    rw [ends.bind_pure_of_ok _ ((ends_version _ _ _).1.trans hknown),
      ends.bind_pure_of_ok _ ((ends_version _ _ _).1.trans hknown')]
    exact .ok trivial
  | registryExternal => exact .ok trivial

/-- Specifiers make dependencies at both homes or at none. -/
theorem dependencies_at_homes (h : SameProject home home' s.tree s'.tree) (hway : IsWay way)
    {specifiers : List String}
    (hinside : ∀ specifier ∈ specifiers, Specifier.isRelative specifier = true →
      IsInside home home' way specifier)
    (hknows : ∀ specifier ∈ specifiers, Specifier.kind specifier = .npm →
      Knows (home.settings base) s specifier ∧ Knows (home'.settings base) s' specifier) :
    Agree (fun _ _ => True) (fun _ _ => True)
      (ends (dependencies (home.settings base) (home.text way) specifiers) s).1
      (ends (dependencies (home'.settings base) (home'.text way) specifiers) s').1 := by
  have hsteady (home : Home) := @steady_dependency? (home.settings base)
    (SameLookups (home.settings base)) _ (home.text way)
  unfold dependencies
  rw [Steady.fst_bind (Steady.mapM (hsteady home)) fun _ => .pure _,
    Steady.fst_bind (Steady.mapM (hsteady home')) fun _ => .pure _, Steady.fst_mapM (hsteady home),
    Steady.fst_mapM (hsteady home')]
  have hall := @Agree.mapM _ _ _ _ _ _ (fun _ _ => True) (fun _ _ => True) _ _ _ _
    (List.forall₂_same.2 fun specifier hmem => dependency?_at_homes h hway (hinside specifier hmem)
      (hknows specifier hmem))
  exact hall.bind fun _ _ _ _ _ => .ok trivial

end Import

/-! ## The source of a component -/

namespace Discovery

theorem suggestedName_path (h : way ≠ []) (home : Home) :
    suggestedName (home.path way) = suggestedName ⟨1, way⟩ := by
  unfold suggestedName Path.stem
  rw [Home.name_path h]

/-- The ways at which the component of a story file is looked for. -/
def componentWays (way components : List String) (name : String) : List (List String) :=
  [way.dropLast, components].flatMap fun folder =>
    (Glob.distinct ([suggestedName ⟨1, way⟩, name].filter (!·.isEmpty))).flatMap fun name =>
      componentEndings.map fun ending => Home.goal folder (name ++ ending)

/-- The paths at which the component of a story file is looked for can be looked up from both homes. -/
def CandidatesFound (home home' : Home) (way components : List String) (name : String) : Prop :=
  ∀ folder ∈ [way.dropLast, components], ∀ text ∈ [suggestedName ⟨1, way⟩, name],
    ∀ ending ∈ componentEndings, home.Finds home' folder (text ++ ending)

instance (home home' : Home) (way components : List String) (name : String) :
    Decidable (CandidatesFound home home' way components name) :=
  inferInstanceAs (Decidable (∀ folder ∈ [way.dropLast, components],
    ∀ text ∈ [suggestedName ⟨1, way⟩, name], ∀ ending ∈ componentEndings,
      home.Finds home' folder (text ++ ending)))

variable {components : List String} {name : String}

theorem CandidatesFound.finds (h : CandidatesFound home home' way components name) {folder : List String}
    (hfolder : folder ∈ [way.dropLast, components]) {text ending : String}
    (htext : text ∈ Glob.distinct ([suggestedName ⟨1, way⟩, name].filter (!·.isEmpty)))
    (hending : ending ∈ componentEndings) : home.Finds home' folder (text ++ ending) :=
  h folder hfolder text (List.mem_of_mem_filter (Glob.mem_distinct.1 htext)) ending hending

theorem componentCandidates_text (hway : IsWay way)
    (h : CandidatesFound home home' way components name) (other : Home) :
    componentCandidates (other.text way) (some (other.path components)) [name] =
      (componentWays way components name).map other.text := by
  unfold componentCandidates componentWays
  dsimp only
  rw [Home.ofString_text hway.normal, Home.parent_path hway.filled,
    suggestedName_path hway.filled, List.map_flatMap]
  show ([way.dropLast, components].map other.path).flatMap _ = _
  rw [List.flatMap_map]
  refine List.flatMap_congr fun folder hfolder => ?_
  rw [List.map_flatMap]
  refine List.flatMap_congr fun text htext => ?_
  rw [List.map_map]
  exact List.map_congr_left fun ending hending =>
    (h.finds hfolder htext hending).normalize_child other

theorem component?_at_homes (h : SameProject home home' t t') (hway : IsWay way)
    (hfound : CandidatesFound home home' way components name) :
    Agree FileError.Alike (home.SameFile home')
      (component? t (home.text way) (some (home.path components)) [name])
      (component? t' (home'.text way) (some (home'.path components)) [name]) := by
  unfold component?
  rw [componentCandidates_text hway hfound, componentCandidates_text hway hfound]
  refine Import.firstFile?_at_homes h fun tried htried => ?_
  obtain ⟨folder, hfolder, htried⟩ := List.mem_flatMap.1 htried
  obtain ⟨text, htext, htried⟩ := List.mem_flatMap.1 htried
  obtain ⟨ending, hending, rfl⟩ := List.mem_map.1 htried
  exact ⟨Home.isNormal_goal _ _, (hfound.finds hfolder htext hending).usable⟩

end Discovery

namespace Analysis

/-- All that is looked up for the analysis of a story file stays inside the project, is no file, or is a
package whose lookup does not fail. -/
structure IsInside (home home' : Home) (base : Settings) (s s' : Session) (way : List String)
    (f : StoryFile) : Prop where
  imports : ∀ specifier ∈ f.componentPath :: f.dependencies, Specifier.isRelative specifier = true →
    Import.IsInside home home' way specifier
  elsewhere : Specifier.isRelative f.componentPath = false →
    s.tree.isFile (Path.ofString f.componentPath) = .ok false ∧
      s'.tree.isFile (Path.ofString f.componentPath) = .ok false
  candidates : Discovery.CandidatesFound home home' way base.componentsPath.segments f.componentName
  packages : ∀ specifier ∈ f.dependencies, Specifier.kind specifier = .npm →
    Import.Knows (home.settings base) s specifier ∧ Import.Knows (home'.settings base) s' specifier

variable {base : Settings} {s s' : Session} {f : StoryFile}

theorem named?_at_homes (h : SameProject home home' s.tree s'.tree) (hway : IsWay way)
    (hpath : f.path = home.text way) (hinside : IsInside home home' base s s' way f) :
    Agree FileError.Alike (home.SameFile home') (named? s.tree f)
      (named? s'.tree { f with path := home'.text way }) := by
  unfold named? imported
  dsimp only
  rw [hpath]
  split
  · exact .ok .none
  by_cases hrelative : Specifier.isRelative f.componentPath = true
  · rw [if_pos hrelative, if_pos hrelative]
    refine (Import.resolve_at_homes h hway (hinside.imports _ List.mem_cons_self hrelative)).bind
      fun path path' _ _ hsame => ?_
    cases hsame with
    | @some other hother huse =>
      exact @Import.firstFile?_at_homes _ _ _ _ h [other] fun way hmem =>
        List.mem_singleton.1 hmem ▸ ⟨hother.normal, huse⟩
  · obtain ⟨hnone, hnone'⟩ := hinside.elsewhere (by simpa using hrelative)
    rw [if_neg hrelative, if_neg hrelative]
    have hfirst {t : FileTree} (hnot : t.isFile (Path.ofString f.componentPath) = .ok false) :
        Import.firstFile? t [f.componentPath] = .ok none := by
      rw [Import.firstFile?, hnot]
      rfl
    show Agree _ _ (Import.firstFile? s.tree [f.componentPath])
      (Import.firstFile? s'.tree [f.componentPath])
    rw [hfirst hnone, hfirst hnone']
    exact .ok .none

/-- The source of a component is the same file at both homes. -/
theorem sourceFile?_at_homes (h : SameProject home home' s.tree s'.tree) (hway : IsWay way)
    (hpath : f.path = home.text way) (hinside : IsInside home home' base s s' way f) :
    Agree FileError.Alike (home.SameFile home') (sourceFile? s.tree (home.settings base) f)
      (sourceFile? s'.tree (home'.settings base) { f with path := home'.text way }) := by
  rw [sourceFile?_eq, sourceFile?_eq]
  refine (named?_at_homes h hway hpath hinside).bind fun found found' _ _ hsame => ?_
  cases hsame with
  | none =>
    dsimp only
    rw [hpath]
    exact Discovery.component?_at_homes h hway hinside.candidates
  | some hother huse => exact .ok (.some hother huse)

/-! ## Measuring -/

/-- What is made of the text of a file at both homes agrees if it does for one text, and for errors of one
kind. -/
theorem attempt_text_at_homes {α β : Type} {A : α → β → Prop} {f : Except Failure String → Run α}
    {g : Except Failure String → Run β} (h : SameProject home home' s.tree s'.tree)
    (huse : home.Usable home' way)
    (hok : ∀ text, Agree (fun _ _ => True) A (ends (f (.ok text)) s).1 (ends (g (.ok text)) s').1)
    (herror : ∀ e e' : FileError, e.Alike e' → Agree (fun _ _ => True) A
      (ends (f (.error (.file e))) s).1 (ends (g (.error (.file e'))) s').1) :
    Agree (fun _ _ => True) A (ends (Run.attempt (Run.text (home.path way)) >>= f) s).1
      (ends (Run.attempt (Run.text (home'.path way)) >>= g) s').1 := by
  rw [ends.bind_of_ok (ends.attempt_eq _ s), ends.bind_of_ok (ends.attempt_eq _ s'), Run.text,
    Run.text, ends.look_eq, ends.look_eq]
  have hread := h.readText huse
  revert hread
  generalize s.tree.readText (home.path way) = outcome
  generalize s'.tree.readText (home'.path way) = outcome'
  intro hread
  cases hread with
  | ok heq => exact heq ▸ hok _
  | error hkind => exact herror _ _ hkind

theorem unread?_file (e : FileError) :
    (Failure.file e).unread? = if e.isUnreadable then some e else none := rfl

theorem storyLines_at_homes (h : SameProject home home' s.tree s'.tree) (hway : IsWay way)
    (huse : home.Usable home' way) (hpath : f.path = home.text way) :
    Agree (fun _ _ => True) Eq (ends (storyLines Run.text f) s).1
      (ends (storyLines Run.text { f with path := home'.text way }) s').1 := by
  unfold storyLines
  rw [hpath, Home.ofString_text hway.normal, Home.ofString_text hway.normal]
  refine attempt_text_at_homes h huse (fun text => .ok rfl) fun e e' hkind => ?_
  dsimp only
  rw [unread?_file, unread?_file, hkind.isUnreadable]
  cases e'.isUnreadable with
  | true => exact .ok rfl
  | false => exact .error trivial

theorem sourceSize?_at_homes (h : SameProject home home' s.tree s'.tree) {source source' : Option String}
    (hsame : home.SameFile home' source source') :
    Agree (fun _ _ => True) Eq (ends (sourceSize? Run.text source) s).1
      (ends (sourceSize? Run.text source') s').1 := by
  cases hsame with
  | none => exact .ok rfl
  | some hother huse =>
    unfold sourceSize?
    dsimp only
    rw [Home.ofString_text hother.normal, Home.ofString_text hother.normal]
    refine attempt_text_at_homes h huse (fun text => .ok rfl) fun e e' hkind => ?_
    dsimp only
    rw [unread?_file, unread?_file, hkind.isUnreadable]
    cases e'.isUnreadable with
    | true => exact .ok rfl
    | false => exact .error trivial

/-- What measuring comes to is what its steps come to in the session in which it starts. -/
theorem fst_measured (f : StoryFile) (source : Option String) (s : Session) :
    (ends (measured Run.text f source) s).1 = (do
      let lines ← (ends (storyLines Run.text f) s).1
      match ← (ends (sourceSize? Run.text source) s).1 with
      | some (more, props) =>
        return ⟨2, lines + more, f.dependencies.length, props, f.stories.length⟩
      | none => return ⟨1, lines, f.dependencies.length, 0, f.stories.length⟩) := by
  have hsize : Steady SameTree (sourceSize? Run.text source) := steady_sourceSize? Steady.text source
  unfold measured
  rw [Steady.fst_bind (R := SameTree) (steady_storyLines Steady.text f) fun lines =>
    hsize.bind fun size => by cases size <;> exact .pure _]
  refine bind_congr fun lines => ?_
  rw [Steady.fst_bind hsize fun size => by cases size <;> exact .pure _]
  refine bind_congr fun size => ?_
  cases size <;> rfl

/-- A component is measured alike at both homes. -/
theorem measured_at_homes (h : SameProject home home' s.tree s'.tree) (hway : IsWay way)
    (huse : home.Usable home' way) (hpath : f.path = home.text way) {source source' : Option String}
    (hsame : home.SameFile home' source source') :
    Agree (fun _ _ => True) Eq (ends (measured Run.text f source) s).1
      (ends (measured Run.text { f with path := home'.text way } source') s').1 := by
  rw [fst_measured, fst_measured]
  refine (storyLines_at_homes h hway huse hpath).bind fun lines lines' _ _ hlines => ?_
  subst hlines
  refine (sourceSize?_at_homes h hsame).bind fun size size' _ _ hsize => ?_
  subst hsize
  cases size <;> exact .ok rfl

/-- The files of a component have the same paths below both homes. -/
theorem filesOf_at_homes (h : SameProject home home' s.tree s'.tree) (hway : IsWay way)
    (huse : home.Usable home' way) (hpath : f.path = home.text way) {source source' : Option String}
    (hsame : home.SameFile home' source source') :
    Agree FileError.Alike
      (fun files files' => files.map (fun file => Path.below (home.text []) file.path) =
        files'.map fun file => Path.below (home'.text []) file.path)
      (filesOf s.tree f source) (filesOf s'.tree { f with path := home'.text way } source') := by
  unfold filesOf
  rw [hpath, Home.ofString_text hway.normal, Home.ofString_text hway.normal]
  refine (h.size huse).bind fun size size' _ _ _ => ?_
  have hstory := (home.below_text hway.filled).trans (home'.below_text hway.filled).symm
  cases hsame with
  | none => exact .ok (congrArg (fun path => [path]) hstory)
  | some hother hotherUse =>
    dsimp only
    rw [Home.ofString_text hother.normal, Home.ofString_text hother.normal]
    refine (h.size hotherUse).bind fun more more' _ _ _ => ?_
    have hsource := (home.below_text hother.filled).trans (home'.below_text hother.filled).symm
    exact .ok (congrArg₂ (fun path other => [path, other]) hstory hsource)

/-! ## Analyses -/

/-- What counts for an item is the same: the type, the score and the number of files. -/
structure Alike (a a' : Analysis) : Prop where
  type : a.type = a'.type
  score : a.score = a'.score
  files : a.files.length = a'.files.length

/-- What an analysis comes to is what its steps come to in the session in which it starts. -/
theorem fst_ofStory (settings : Settings) (f : StoryFile) (s : Session) :
    (ends (ofStory settings Run.text f) s).1 = (do
      let source ← (sourceFile? s.tree settings f).mapError Failure.file
      let counts ← (ends (measured Run.text f source) s).1
      let score ← counts.score
      let dependencies ← (ends (Import.dependencies settings f.path f.dependencies) s).1
      let files ← (filesOf s.tree f source).mapError Failure.file
      let root := Path.normalize settings.root.toText
      return {
        name := f.componentName
        type := ItemType.suggested score (files.map fun file => Path.below root file.path)
        counts := counts
        score := score
        dependencies := dependencies
        files := files
        props := f.props
        stories := f.storyInfos
        quality := .assess f score f.storyInfos }) := by
  have hdependencies := @Import.steady_dependencies settings (Import.SameLookups settings) _ f.path
    f.dependencies
  unfold ofStory
  rw [Steady.fst_bind (R := Import.SameLookups settings) (Steady.look _) fun source =>
    (steady_measured Steady.text f source).bind fun _ => (Steady.ofExcept _).bind fun _ =>
      hdependencies.bind fun _ => (Steady.look _).bind fun _ => .pure _, ends.look_eq]
  refine bind_congr fun source => ?_
  rw [Steady.fst_bind (R := Import.SameLookups settings) (steady_measured Steady.text f source) fun _ =>
    (Steady.ofExcept _).bind fun _ => hdependencies.bind fun _ => (Steady.look _).bind fun _ => .pure _]
  refine bind_congr fun counts => ?_
  have hscore : (ends (Run.ofExcept counts.score) s).1 = counts.score := by
    cases counts.score <;> rfl
  rw [Steady.fst_bind (R := Import.SameLookups settings) (Steady.ofExcept _) fun _ =>
    hdependencies.bind fun _ => (Steady.look _).bind fun _ => .pure _, hscore]
  refine bind_congr fun score => ?_
  rw [Steady.fst_bind hdependencies fun _ => (Steady.look _).bind fun _ => .pure _]
  refine bind_congr fun dependencies => ?_
  rw [Steady.fst_bind (R := SameTree) (Steady.look _) fun _ => .pure _, ends.look_eq]
  rfl

/-- An analysis for which all that is looked up stays inside comes to the same at both homes, as far as
items are concerned. -/
theorem ofStory_at_homes (h : SameProject home home' s.tree s'.tree) (hway : IsWay way)
    (huse : home.Usable home' way) (hpath : f.path = home.text way)
    (hinside : IsInside home home' base s s' way f) :
    Agree (fun _ _ => True) Alike (ends (ofStory (home.settings base) Run.text f) s).1
      (ends (ofStory (home'.settings base) Run.text { f with path := home'.text way }) s').1 := by
  have hroot (home : Home) : Path.normalize (home.settings base).root.toText = home.text [] :=
    @Home.normalize_text home [] rfl
  rw [fst_ofStory, fst_ofStory, hroot, hroot]
  refine ((sourceFile?_at_homes h hway hpath hinside).mapError _ _).bind
    fun source source' _ _ hsource => ?_
  refine (measured_at_homes h hway huse hpath hsource).bind fun counts counts' _ _ hcounts => ?_
  subst hcounts
  cases counts.score with
  | error e => exact .error trivial
  | ok score =>
    have hdependencies := Import.dependencies_at_homes h hway
      (fun specifier hmem => hinside.imports specifier (List.mem_cons_of_mem _ hmem)) hinside.packages
    rw [← hpath] at hdependencies
    refine hdependencies.bind fun dependencies dependencies' _ _ _ => ?_
    refine ((filesOf_at_homes h hway huse hpath hsource).mapError _ _).bind
      fun files files' _ _ hfiles => ?_
    refine .ok ⟨?_, rfl, ?_⟩
    · exact congrArg (ItemType.suggested score) hfiles
    · simpa using congrArg List.length hfiles

/-- A story file for which all that is looked up stays inside gets the same analysis at both homes, as far
as items are concerned. -/
theorem inSession_at_homes (h : SameProject home home' s.tree s'.tree) (hway : IsWay way)
    (huse : home.Usable home' way) (hpath : f.path = home.text way)
    (hinside : IsInside home home' base s s' way f) :
    (inSession (home.settings base) s f).Alike
      (inSession (home'.settings base) s' { f with path := home'.text way }) := by
  have hagree := ofStory_at_homes h hway huse hpath hinside
  unfold inSession
  revert hagree
  generalize (ends (ofStory (home.settings base) Run.text f) s).1 = outcome
  generalize (ends (ofStory (home'.settings base) Run.text _) s').1 = outcome'
  intro hagree
  cases hagree with
  | ok halike => exact halike
  | error _ => exact ⟨rfl, rfl, rfl⟩

end Analysis

end StoryRegistry
