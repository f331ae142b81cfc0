import StoryRegistry.Proofs.Analysis.Home
import StoryRegistry.Proofs.Session.Repeating
import StoryRegistry.Proofs.Story.Outline
import Mathlib.Data.List.Infix

/-!
# Moving a project

The registry of a project does not depend on the folder in which the project lives, as long as all that
is looked at lies inside the project and the excluding patterns decide alike
(`Call.same_registry_of_relocation`). Only these patterns see the folders above the project.
-/

set_option autoImplicit false

namespace StoryRegistry

open FileTree (SameProject)
open StoryRegistry.Path (IsNormal IsWay)

variable {home home' : Home} {base : Settings} {s s' : Session} {way : List String}

/-! ## Story files -/

/-- The same story file below both homes. -/
inductive StoryFile.Moved (home home' : Home) : StoryFile → StoryFile → Prop where
  | mk {way : List String} {f : StoryFile} (hway : IsWay way) (hpath : f.path = home.text way) :
    Moved home home' f { f with path := home'.text way }

/-- What a text says as a story file does not depend on the home. -/
theorem StoryFile.ofSource_at_homes (home home' : Home) (hway : IsWay way) (source : String) :
    (ofSource (home'.text way) source).toOption =
      (ofSource (home.text way) source).toOption.map fun f => { f with path := home'.text way } := by
  have helements (other : Home) : Script.Module.hasElements (other.text way) =
      Script.Module.hasElements (Path.toText ⟨1, way⟩) := by
    unfold Script.Module.hasElements Path.suffix
    rw [Home.ofString_text hway.normal, Home.name_path hway.filled, hway.normal.ofString_toText]
  unfold ofSource Script.Module.ofFile
  rw [helements, helements]
  unfold ofOutline
  dsimp only
  rw [Home.normalize_text_of_isNormal hway.normal]
  split
  · rfl
  · split <;> rfl

namespace Stories

theorem place_text (h : IsNormal ⟨1, way⟩) (t : FileTree) (home : Home) :
    place t (home.text way) = home.path way := by
  unfold place Path.resolve Path.join
  rw [Home.ofString_text h, if_pos (home.isAbsolute_path way),
    Home.normal_path (Path.stays_of_not_mem (h.notAbove rfl) 0), h.settle_eq]
  rfl

theorem ne_nil_of_readText (h : s.tree.find (home.path []) = .ok (.folder home.place)) {source : String}
    (hread : s.tree.readText (home.path way) = .ok source) : way ≠ [] := by
  rintro rfl
  unfold FileTree.readText FileTree.file at hread
  rw [h] at hread
  cases hread

/-- A story file in a session is what the text of its file says. -/
theorem inSession?_eq_bind (s : Session) (path : String) :
    inSession? s path = (s.tree.readText (place s.tree path)).toOption.bind fun source =>
      (StoryFile.ofSource (place s.tree path).toText source).toOption := by
  have hsome {α ε : Type} {outcome : Except ε α} {a : α} :
      outcome.toOption = some a ↔ outcome = .ok a := by
    cases outcome <;> simp [Except.toOption]
  refine Option.ext fun f => ?_
  rw [inSession?_eq_some_iff, read_eq_ok_iff, Option.bind_eq_some_iff]
  simp only [hsome]

/-- A story file is read as the same at both homes. -/
theorem inSession?_at_homes (h : SameProject home home' s.tree s'.tree) (hnormal : IsNormal ⟨1, way⟩)
    (huse : home.Usable home' way) :
    (inSession? s (home.text way) = none ∧ inSession? s' (home'.text way) = none) ∨
      ∃ f, IsWay way ∧ f.path = home.text way ∧ inSession? s (home.text way) = some f ∧
        inSession? s' (home'.text way) = some { f with path := home'.text way } := by
  rw [inSession?_eq_bind, inSession?_eq_bind, place_text hnormal, place_text hnormal,
    Home.toText_path, Home.toText_path]
  have hread := h.readText huse
  cases hsource : s.tree.readText (home.path way) with
  | error e =>
    obtain ⟨e', he', -⟩ := hread.exists_error hsource
    rw [he']
    exact .inl ⟨rfl, rfl⟩
  | ok source =>
    have hway : IsWay way := ⟨ne_nil_of_readText h.there hsource, hnormal⟩
    have hmoved := StoryFile.ofSource_at_homes home home' hway source
    have hbind (f : String → Option StoryFile) :
        (Except.ok source : Except FileError String).toOption.bind f = f source := rfl
    rw [hread.eq_ok hsource, hbind, hbind]
    cases hmade : StoryFile.ofSource (home.text way) source with
    | error e =>
      rw [hmade] at hmoved
      exact .inl ⟨rfl, hmoved⟩
    | ok f =>
      rw [hmade] at hmoved
      refine .inr ⟨f, hway, ?_, rfl, hmoved⟩
      rw [(StoryFile.parts_of_ofOutline hmade).1, Home.normalize_text_of_isNormal hnormal]

end Stories

/-! ## Items -/

namespace Settings

variable {a a' : Analysis} {f : StoryFile}

theorem relative_text (home : Home) (h : IsWay way) :
    (home.settings base).relative (home.text way) = Path.toText ⟨0, way⟩ := by
  unfold relative
  rw [Home.normalize_text_of_isNormal h.normal]
  show Path.below (home.path []).normal.toText (home.text way) = _
  rw [Home.normal_path rfl]
  exact home.below_text h.filled

/-- A measure takes the same size of alike analyses. -/
theorem size_of_alike (h : a.Alike a') (m : Measure) (path : String) :
    m.size { f with path := path } (some a') = m.size f (some a) := by
  cases m with
  | fileCount =>
    have hempty : a'.files.isEmpty = a.files.isEmpty := by
      rw [Bool.eq_iff_iff, List.isEmpty_iff_length_eq_zero, List.isEmpty_iff_length_eq_zero, h.files]
    simp only [Measure.size, hempty, h.files]
  | complexity => simp only [Measure.size, h.score]
  | dependencies => rfl

theorem itemType_at_homes (hway : IsWay way) (hpath : f.path = home.text way) (h : a.Alike a') :
    (home'.settings base).itemType { f with path := home'.text way } (some a') =
      (home.settings base).itemType f (some a) := by
  have happlies (r : TypeRule) (path : String) :
      r.applies path { f with path := home'.text way } (some a') = r.applies path f (some a) := by
    unfold TypeRule.applies TypeRule.isMet
    simp only [size_of_alike h]
  unfold itemType
  simp only [hpath, relative_text home hway, relative_text home' hway, happlies, h.type]
  rfl

end Settings

namespace Assembly

variable {a a' : Analysis} {f : StoryFile}

/-- The outcomes are of one kind, and an item that is kept is the same. -/
inductive Outcome.Alike : Outcome → Outcome → Prop where
  | kept (item : Item) : Alike (.kept item) (.kept item)
  | unnamed : Alike .unnamed .unnamed
  | refused (cause cause' : Failure) : Alike (.refused cause) (.refused cause')
  | taken (name owner owner' : String) : Alike (.taken name owner) (.taken name owner')
  | broken (cause cause' : Failure) : Alike (.broken cause) (.broken cause')

theorem Outcome.Alike.item?_eq {o o' : Outcome} (h : o.Alike o') : o.item? = o'.item? := by
  cases h <;> rfl

theorem Outcome.Alike.isSome_cause? {o o' : Outcome} (h : o.Alike o') :
    o.cause?.isSome = o'.cause?.isSome := by
  cases h <;> rfl

/-- The same item is made of a story file at both homes. -/
theorem item_at_homes (hway : IsWay way) (hpath : f.path = home.text way) (h : a.Alike a') :
    Agree (fun e e' => e.isVerdict = e'.isVerdict) Eq (item (home.settings base) f (some a))
      (item (home'.settings base) { f with path := home'.text way } (some a')) := by
  have hdraft : draft (home'.settings base) { f with path := home'.text way } (some a') =
      draft (home.settings base) f (some a) := by
    unfold draft
    rw [Settings.itemType_at_homes hway hpath h]
    rfl
  unfold item
  rw [hdraft]
  dsimp only
  split
  · exact .ok rfl
  split
  · exact .error rfl
  split
  · exact .error rfl
  unfold Item.ofDocument
  split
  · exact .ok rfl
  · exact .error rfl

theorem outcome_at_homes (hway : IsWay way) (hpath : f.path = home.text way) (h : a.Alike a')
    {owners owners' : Table String} (howners : Table.names owners = Table.names owners') :
    (outcome (home.settings base) owners f (some a)).Alike
      (outcome (home'.settings base) owners' { f with path := home'.text way } (some a')) := by
  unfold outcome
  have hitem := @item_at_homes home home' base _ _ _ _ hway hpath h
  revert hitem
  generalize item (home.settings base) f (some a) = made
  generalize item (home'.settings base) _ (some a') = made'
  intro hitem
  cases hitem with
  | error hkind =>
    dsimp only
    rw [hkind]
    split
    · exact .refused _ _
    · exact .broken _ _
  | @ok item _ heq =>
    subst heq
    cases item with
    | none => exact .unnamed
    | some i =>
      dsimp only
      cases howner : Table.get? i.name owners with
      | none =>
        rw [Table.get?_eq_none_iff, howners, ← Table.get?_eq_none_iff] at howner
        rw [howner]
        exact .kept i
      | some owner =>
        have hmem : i.name ∈ Table.names owners := List.mem_map_of_mem (Table.mem_of_get? howner)
        obtain ⟨owner', howner'⟩ := Table.exists_get? (howners ▸ hmem)
        rw [howner']
        exact .taken _ _ _

/-- What becomes of story files is of one kind at both homes. The induction is on the story files; which
names are taken is the same before each of them. -/
theorem outcomes_at_homes {stories stories' : List StoryFile} {analyse analyse' : StoryFile → Analysis}
    (h : List.Forall₂ (fun f f' => StoryFile.Moved home home' f f' ∧ (analyse f).Alike (analyse' f'))
      stories stories') {owners owners' : Table String}
    (howners : Table.names owners = Table.names owners') :
    List.Forall₂ (fun result result' => result.2.Alike result'.2)
      (outcomes (home.settings base) owners stories (stories.map fun f => some (analyse f)))
      (outcomes (home'.settings base) owners' stories' (stories'.map fun f => some (analyse' f))) := by
  induction h generalizing owners owners' with
  | nil => exact .nil
  | cons hfirst _ ih =>
    obtain ⟨⟨hway, hpath⟩, halike⟩ := hfirst
    have hresult := @outcome_at_homes home home' base _ _ _ _ hway hpath halike _ _ howners
    rw [List.map_cons, List.map_cons, outcomes, outcomes]
    refine .cons hresult ?_
    simp only [List.head?_cons, Option.join_some, List.tail_cons]
    revert hresult
    generalize outcome (home.settings base) owners _ _ = result
    generalize outcome (home'.settings base) owners' _ _ = result'
    intro hresult
    cases hresult with
    | kept item =>
      refine ih ?_
      unfold Table.names at howners ⊢
      rw [List.map_append, List.map_append, howners]
      rfl
    | unnamed => exact ih howners
    | refused => exact ih howners
    | taken => exact ih howners
    | broken => exact .nil

section

variable {results results' : List (StoryFile × Outcome)}

theorem items_of_alike
    (h : List.Forall₂ (fun result result' => result.2.Alike result'.2) results results') :
    (results.filterMap fun (_, result) => result.item?) =
      results'.filterMap fun (_, result) => result.item? := by
  induction h with
  | nil => rfl
  | cons hfirst _ ih =>
    rw [List.filterMap_cons, List.filterMap_cons, ih]
    dsimp only
    rw [hfirst.item?_eq]

theorem isSome_cause_of_alike
    (h : List.Forall₂ (fun result result' => result.2.Alike result'.2) results results') :
    (results.findSome? fun (_, result) => result.cause?).isSome =
      (results'.findSome? fun (_, result) => result.cause?).isSome := by
  induction h with
  | nil => rfl
  | cons hfirst _ ih =>
    have hcauses := hfirst.isSome_cause?
    rw [List.findSome?_cons, List.findSome?_cons]
    dsimp only
    revert hcauses
    generalize Outcome.cause? _ = cause
    generalize Outcome.cause? _ = cause'
    intro hcauses
    cases cause with
    | none =>
      cases cause' with
      | none => exact ih
      | some _ => cases hcauses
    | some _ =>
      cases cause' with
      | none => cases hcauses
      | some _ => rfl

end

theorem registryDraft_at_homes (home home' : Home) (items : List Item) :
    registryDraft (home.settings base) items = registryDraft (home'.settings base) items := rfl

/-- The same registry is made of story files at both homes, or none at either. -/
theorem registry_at_homes {stories stories' : List StoryFile} {analyse analyse' : StoryFile → Analysis}
    (h : List.Forall₂ (fun f f' => StoryFile.Moved home home' f f' ∧ (analyse f).Alike (analyse' f'))
      stories stories') :
    Agree (fun _ _ => True) Eq
      (registry (home.settings base) stories (stories.map fun f => some (analyse f))).2
      (registry (home'.settings base) stories' (stories'.map fun f => some (analyse' f))).2 := by
  have houtcomes := @outcomes_at_homes home home' base _ _ _ _ h [] [] rfl
  unfold registry
  dsimp only
  revert houtcomes
  generalize outcomes (home.settings base) [] _ _ = results
  generalize outcomes (home'.settings base) [] _ _ = results'
  intro houtcomes
  rw [items_of_alike houtcomes]
  have hcauses := isSome_cause_of_alike houtcomes
  cases hcause : results.findSome? fun (_, result) => result.cause? with
  | none =>
    rw [hcause, Option.isSome_none, eq_comm, Option.isSome_eq_false_iff,
      Option.isNone_iff_eq_none] at hcauses
    rw [hcauses]
    dsimp only
    rw [registryDraft_at_homes]
    cases Registry.ofDocument _ with
    | ok r => exact .ok rfl
    | error e => exact .error trivial
  | some cause =>
    rw [hcause, Option.isSome_some, eq_comm, Option.isSome_iff_exists] at hcauses
    obtain ⟨cause', hcause'⟩ := hcauses
    rw [hcause']
    exact .error trivial

end Assembly

/-! ## Registries -/

/-- A project lives at both homes, and nothing that is looked up to make its registry leaves it. -/
structure Relocation (home home' : Home) (base : Settings) (s s' : Session) : Prop where
  project : SameProject home home' s.tree s'.tree
  discovery : Discovery.IsUsable home home' base s.tree
  excludes : Discovery.ExcludesAlike home home' base s.tree
  reads : ∀ paths, (ends (Discovery.storyFiles (home.settings base)) s).1 = .ok paths →
    ∀ way, IsNormal ⟨1, way⟩ → home.text way ∈ paths → home.Reaches way ∧ home'.Reaches way
  analyses : ∀ paths, (ends (Discovery.storyFiles (home.settings base)) s).1 = .ok paths →
    ∀ way f, IsNormal ⟨1, way⟩ → home.text way ∈ paths →
      Stories.inSession? s (home.text way) = some f → Analysis.IsInside home home' base s s' way f

namespace Relocation

/-- At both homes the same story files are read and get the same analyses, as far as items are
concerned. -/
theorem allInSession (h : Relocation home home' base s s') {paths : List String}
    (hpaths : (ends (Discovery.storyFiles (home.settings base)) s).1 = .ok paths)
    {ways : List (List String)} (hnormal : ∀ way ∈ ways, IsNormal ⟨1, way⟩)
    (hsub : ways.map home.text ⊆ paths) :
    List.Forall₂ (fun f f' => StoryFile.Moved home home' f f' ∧
        (Analysis.inSession (home.settings base) s f).Alike
          (Analysis.inSession (home'.settings base) s' f'))
      (Stories.allInSession s (ways.map home.text)) (Stories.allInSession s' (ways.map home'.text)) := by
  induction ways with
  | nil => exact .nil
  | cons way rest ih =>
    have hway := hnormal way List.mem_cons_self
    have hmem : home.text way ∈ paths := hsub List.mem_cons_self
    have hrest := ih (fun other hother => hnormal other (List.mem_cons_of_mem _ hother))
      fun path hpath => hsub (List.mem_cons_of_mem _ hpath)
    obtain ⟨hreaches, hreaches'⟩ := h.reads paths hpaths way hway hmem
    have huse : home.Usable home' way := .of_isNormal hway hreaches hreaches'
    unfold Stories.allInSession at hrest ⊢
    rw [List.map_cons, List.map_cons, List.filterMap_cons, List.filterMap_cons]
    rcases Stories.inSession?_at_homes h.project hway huse with
      ⟨hnone, hnone'⟩ | ⟨f, hbelow, hpath, hsome, hsome'⟩
    · rw [hnone, hnone']
      exact hrest
    · rw [hsome, hsome']
      exact .cons ⟨.mk hbelow hpath, Analysis.inSession_at_homes h.project hbelow huse hpath
        (h.analyses paths hpaths way f hway hmem hsome)⟩ hrest

/-- The registry of the story files that are found is the same at both homes. -/
theorem registryIn (h : Relocation home home' base s s') {paths : List String}
    (hpaths : (ends (Discovery.storyFiles (home.settings base)) s).1 = .ok paths) :
    ∃ paths', (ends (Discovery.storyFiles (home'.settings base)) s').1 = .ok paths' ∧
      Agree (fun _ _ => True) Eq
        (Pipeline.registryIn (home.settings base) s (Stories.allInSession s paths))
        (Pipeline.registryIn (home'.settings base) s' (Stories.allInSession s' paths')) := by
  obtain ⟨ways, rfl, hpaths', hnormal⟩ :=
    Discovery.storyFiles_at_homes h.project h.discovery h.excludes hpaths
  refine ⟨_, hpaths', ?_⟩
  exact Assembly.registry_at_homes (h.allInSession hpaths hnormal (List.Subset.refl _))

end Relocation

/-- A registry that a call makes of a project is that of the same project at any other home, and every
call there that returns a registry returns it. -/
theorem Call.same_registry_of_relocation {call : Call} {t : Session} {r : Registry}
    (h : Relocation home home' base s s')
    (hrun : ends (call.run (home.settings base)) s = (.ok (some r), t)) :
    (∃ paths, (ends (Discovery.storyFiles (home'.settings base)) s').1 = .ok paths ∧
      Pipeline.registryIn (home'.settings base) s' (Stories.allInSession s' paths) = .ok r) ∧
    ∀ (call' : Call) (t' : Session) (r' : Registry),
      ends (call'.run (home'.settings base)) s' = (.ok (some r'), t') → r' = r := by
  obtain ⟨paths, hpaths, hregistry⟩ := Call.registry_of_run hrun
  obtain ⟨paths', hpaths', hagree⟩ := h.registryIn hpaths
  have hregistry' := hagree.eq_ok hregistry
  refine ⟨⟨paths', hpaths', hregistry'⟩, fun call' t' r' hrun' => ?_⟩
  obtain ⟨found, hfound, hmade⟩ := Call.registry_of_run hrun'
  cases hpaths'.symm.trans hfound
  cases hregistry'.symm.trans hmade
  rfl

/-! ## A project at two homes -/

/-- A file tree in which there is nothing but a project below a home. -/
def Home.tree (home : Home) (folders : List (List String)) (files : List (List String × Stored)) :
    FileTree where
  here := []
  clock := 1
  folders := home.place.inits ++ folders.map (home.place ++ ·)
  files := files.map fun (way, content) => (home.place ++ way, content)

theorem Home.get?_tree (home : Home) (way : List String) (files : List (List String × Stored)) :
    Table.get? (home.place ++ way) (files.map fun (way, content) => (home.place ++ way, content)) =
      Table.get? way files := by
  induction files with
  | nil => rfl
  | cons entry rest ih =>
    rw [List.map_cons, Table.get?, Table.get?, ih]
    simp only [List.append_cancel_left_eq]

theorem Home.mem_folders_tree (home : Home) {way : List String} (folders : List (List String)) :
    home.place ++ way ∈ home.place.inits ++ folders.map (home.place ++ ·) ↔
      way = [] ∨ way ∈ folders := by
  rw [List.mem_append, List.mem_inits, List.mem_map_of_injective (List.append_right_injective _)]
  refine or_congr_left ⟨fun hprefix => ?_, fun hnil => ?_⟩
  · have hlength := hprefix.length_le
    rw [List.length_append] at hlength
    exact List.length_eq_zero_iff.1 (by omega)
  · rw [hnil, List.append_nil]

/-- A project is the same in two such trees. -/
theorem FileTree.SameProject.of_tree {folders : List (List String)}
    {files : List (List String × Stored)}
    (hthere : (home.tree folders files).find (home.path []) = .ok (.folder home.place))
    (hthere' : (home'.tree folders files).find (home'.path []) = .ok (.folder home'.place)) :
    SameProject home home' (home.tree folders files) (home'.tree folders files) where
  there := hthere
  there' := hthere'
  files way := congrArg (Option.map Stored.bytes)
    ((home.get?_tree way files).trans (home'.get?_tree way files).symm)
  folders _ := (home.mem_folders_tree folders).trans (home'.mem_folders_tree folders).symm

namespace Neighbours

theorem isNormal_of_settle {way : List String} (h : Path.settle (Path.pieces way) = way) :
    IsNormal ⟨1, way⟩ :=
  h ▸ Path.isNormal_settle way

/-- A home near the root. -/
def near : Home := ⟨["a"], by decide, isNormal_of_settle (by decide +kernel)⟩

/-- A home below folders whose names would mean something inside the project. -/
def far : Home := ⟨["lib", "ui"], by decide, isNormal_of_settle (by decide +kernel)⟩

/-- The settings of a project that keeps story files and components in one folder. -/
def plain : Settings :=
  { Settings.ofRoot ⟨1, []⟩ with
    storybookPath := ⟨1, ["s"]⟩
    componentsPath := ⟨1, ["s"]⟩
    storiesPatterns := ["*.ts"]
    excludePatterns := ["**/dist/**"]
    registryPath := ⟨1, ["r"]⟩ }

/-- A project with one component and its story file, below a home. -/
def project (home : Home) : Session where
  tree := home.tree [["s"], ["r"]]
    [(["s", "c.ts"], Stored.ofSource "import {C} from \"./C\";export default {component:C}" 1),
     (["s", "C.tsx"], Stored.ofSource "" 1)]

/-- The way to the story file. -/
def story : List String := ["s", "c.ts"]

theorem ends_storyFiles : (ends (Discovery.storyFiles (near.settings plain)) (project near)).1 =
    .ok [near.text story] :=
  eq_ok_of_any (by decide +kernel)

theorem eq_story {way : List String} (hway : IsNormal ⟨1, way⟩)
    (h : near.text way ∈ [near.text story]) : way = story :=
  Home.text_injective hway (isNormal_of_settle (by decide +kernel)) (List.mem_singleton.1 h)

theorem isInside {f : StoryFile} (h : Stories.inSession? (project near) (near.text story) = some f) :
    Analysis.IsInside near far plain (project near) (project far) story f := by
  have hparts : (Stories.inSession? (project near) (near.text story)).map
      (fun f => (f.componentPath, f.componentName, f.dependencies)) =
        some ("./C", "C", ["./C"]) := by decide +kernel
  rw [h] at hparts
  injection hparts with hparts
  injection hparts with hpath hparts
  injection hparts with hname hdependencies
  refine ⟨?_, ?_, ?_, ?_⟩
  · rw [hpath, hdependencies]
    decide +kernel
  · rw [hpath]
    exact fun hnot => absurd hnot (by decide)
  · rw [hname]
    decide +kernel
  · rw [hdependencies]
    exact fun specifier hmem hnpm => absurd hnpm (by rw [List.mem_singleton.1 hmem]; decide)

theorem relocation : Relocation near far plain (project near) (project far) where
  project := .of_tree (by decide +kernel) (by decide +kernel)
  discovery way hway := by
    have hall : ∀ p ∈ Discovery.looked (near.settings plain) (project near).tree,
        near.Usable far (p.segments.drop near.place.length) := by decide +kernel
    have huse := hall _ hway
    rwa [Home.segments_path, List.drop_left] at huse
  excludes found hfound way hnormal hway := by
    have hselected : Discovery.allSelected (project near).tree (near.settings plain).storybookPath
        plain.storiesPatterns = .ok [near.text story] := eq_ok_of_any (by decide +kernel)
    cases hselected.symm.trans hfound
    rw [eq_story hnormal hway]
    decide +kernel
  reads paths hpaths way hnormal hway := by
    cases ends_storyFiles.symm.trans hpaths
    rw [eq_story hnormal hway]
    decide +kernel
  analyses paths hpaths way f hnormal hway hf := by
    cases ends_storyFiles.symm.trans hpaths
    obtain rfl := eq_story hnormal hway
    exact isInside hf

/-- An export of the project returns a registry. -/
theorem exists_export {home : Home} {paths : List String}
    (hfound : (ends (Discovery.storyFiles (home.settings plain)) (project home)).1 = .ok paths)
    (hmade : ((ends (Pipeline.run (home.settings plain) paths) (project home)).1.toOption.any
      (OneChanged.lists ["c"])) = true)
    (htakes : (project home).tree.takes
      (Output.registryFile (home.settings plain).registryPath) = true) :
    ∃ r t, ends ((Call.exporting {}).run (home.settings plain)) (project home) = (.ok (some r), t) ∧
      r.items.map Item.name = ["c"] := by
  obtain ⟨product, hproduct, hlists⟩ := exists_ok_of_any hmade
  obtain ⟨hwritable, hnames⟩ := Bool.and_eq_true_iff.1 hlists
  obtain ⟨report, t, hrun, hreport⟩ := @Export.exists_report (home.settings plain) {} _ _ _
    hfound hproduct rfl rfl htakes hwritable
  refine ⟨product.registry, t, ?_, beq_iff_eq.1 hnames⟩
  show ends (Report.registry <$> Export.run _ _) _ = _
  rw [← bind_pure_comp, ends.bind_of_ok hrun, ends.pure_eq, hreport]

end Neighbours

open Neighbours in
/-- The project has the same registry near the root and below folders named like those of libraries,
hooks and interface primitives. -/
theorem same_registry_of_neighbours : ∃ r t t',
    ends ((Call.exporting {}).run (near.settings plain)) (project near) = (.ok (some r), t) ∧
      ends ((Call.exporting {}).run (far.settings plain)) (project far) = (.ok (some r), t') ∧
      r.items.map Item.name = ["c"] := by
  obtain ⟨r, t, hrun, hnames⟩ := exists_export ends_storyFiles (by decide +kernel) (by decide +kernel)
  obtain ⟨r', t', hrun', -⟩ := @exists_export far [far.text story] (eq_ok_of_any (by decide +kernel))
    (by decide +kernel) (by decide +kernel)
  obtain ⟨-, hsame⟩ := Call.same_registry_of_relocation relocation hrun
  obtain rfl := hsame _ _ _ hrun'
  exact ⟨_, t, t', hrun, hrun', hnames⟩

end StoryRegistry
