import Mathlib.Data.List.Pairwise
import Mathlib.Data.List.Perm.Basic
import StoryRegistry.Proofs.Story.Meta

/-!
# The order of statements

The statements of a story file can stand in any order, as long as each name is declared once, each name
is exported once, and each field of a story is assigned at most once (`Module.DeclaresOnce`), and the
meta is the single default export or the variable that it names (`ofSource_of_perm`).

A module is read into an outline, whose parts are collected separately. In another order of the statements
each part holds the same entries in another order. What is looked up by name is then the same
(`Table.get?_of_perm`), and the fields of a story can be set in any order because each is set once
(`Story.setFields_of_perm`).
-/

set_option autoImplicit false

namespace StoryRegistry

open StoryRegistry.Script

/-- Of a list with at most one item there is one order. -/
theorem eq_of_perm_of_short {α : Type} {items others : List α} (h : items.Perm others)
    (hshort : items.length ≤ 1) : others = items := by
  match items with
  | [] => exact h.nil_eq.symm
  | [a] => exact List.perm_singleton.1 h.symm

/-! ## Tables in another order -/

namespace Table

variable {κ α : Type} [DecidableEq κ]

/-- What is found in a table that holds each name once does not depend on the order of the entries. -/
theorem get?_of_perm {t t' : List (κ × α)} (h : t.Perm t') (hdistinct : (names t).Nodup)
    (name : κ) : get? name t' = get? name t := by
  have hdistinct' : (names t').Nodup := (h.map Prod.fst).nodup_iff.1 hdistinct
  cases hget : get? name t with
  | none =>
    rw [get?_eq_none_iff] at hget ⊢
    exact fun hmem => hget ((h.map Prod.fst).mem_iff.2 hmem)
  | some v => exact get?_of_mem hdistinct' (h.mem_iff.1 (mem_of_get? hget))

omit [DecidableEq κ] in
/-- Entries that are changed or left out keep their names in order. -/
theorem names_filterMap_sublist {β : Type} (f : κ × α → Option β) (t : List (κ × α)) :
    (names (t.filterMap fun e => (f e).map fun b => (e.1, b))).Sublist (names t) := by
  induction t with
  | nil => exact List.Sublist.refl []
  | cons head rest ih =>
    cases hf : f head with
    | none =>
      rw [List.filterMap_cons_none (by simp [hf])]
      exact ih.cons _
    | some b =>
      have hcons : (head :: rest).filterMap (fun e => (f e).map fun b => (e.1, b)) =
          (head.1, b) :: rest.filterMap fun e => (f e).map fun b => (e.1, b) :=
        List.filterMap_cons_some (by rw [hf]; rfl)
      rw [hcons]
      exact ih.cons_cons _

/-- Of a table made from entries, the part under some names is made from the entries under them. -/
theorem filter_ofList {β : Type} (keeps : String → Bool) (entries : List (String × β)) :
    (ofList entries).filter (fun e => keeps e.1) = ofList (entries.filter fun e => keeps e.1) := by
  have hset (name : String) (v : β) (t : Table β) : (set name v t).filter (fun e => keeps e.1) =
      if keeps name then set name v (t.filter fun e => keeps e.1)
      else t.filter fun e => keeps e.1 := by
    induction t with
    | nil => cases h : keeps name <;> simp [set, h]
    | cons head rest ih =>
      obtain ⟨key, old⟩ := head
      by_cases hkey : key = name
      · subst hkey
        cases h : keeps key <;> simp [set, h]
      · cases h : keeps key <;> cases h' : keeps name <;> simp_all [set]
  have hall (t : Table β) : (merge t entries).filter (fun e => keeps e.1) =
      merge (t.filter fun e => keeps e.1) (entries.filter fun e => keeps e.1) := by
    induction entries generalizing t with
    | nil => rfl
    | cons head rest ih =>
      have hstep : merge t (head :: rest) = merge (set head.1 head.2 t) rest := rfl
      rw [hstep, ih, hset]
      cases h : keeps head.1 <;> simp [merge, h]
  exact hall []

end Table

/-! ## Fields of stories -/

namespace Story

/-- What a field of a story can be set to. -/
inductive Slot where
  | name
  | args
  | parameters
  | decorators
  | render
  | play
  | tags
deriving DecidableEq

/-- What a field sets; both ways to name a story set its name. -/
def Slot.ofField? : String → Option Slot
  | "name" | "storyName" => some name
  | "args" => some args
  | "parameters" => some parameters
  | "decorators" => some decorators
  | "render" => some render
  | "play" => some play
  | "tags" => some tags
  | _ => none

/-- The story with one of its parts set. -/
def fill (story : Story) (value : Value) : Slot → Story
  | .name => { story with name := value.asString?.or story.name }
  | .args => { story with args := value.asMap? }
  | .parameters => { story with parameters := value.asMap? }
  | .decorators => { story with decorators := value }
  | .render => { story with render := value }
  | .play => { story with play := value }
  | .tags => { story with tags := value.asTexts? }

theorem setField_eq (story : Story) (field : String) (value : Value) :
    story.setField field value =
      match Slot.ofField? field with
      | some slot => story.fill value slot
      | none => story := by
  unfold setField Slot.ofField?
  split
  case h_9 => simp_all
  all_goals first | rfl | (cases value <;> rfl)

/-- Different parts of a story can be set in any order. -/
theorem fill_comm (story : Story) {a b : Slot} (h : a ≠ b) (v w : Value) :
    (story.fill v a).fill w b = (story.fill w b).fill v a := by
  cases a <;> cases b <;> first | exact absurd rfl h | rfl

/-- Setting a field that stories do not have changes nothing. -/
theorem setField_of_none {field : String} (h : Slot.ofField? field = none) (story : Story)
    (value : Value) : story.setField field value = story := by
  rw [setField_eq, h]

theorem setField_of_some {field : String} {slot : Slot} (h : Slot.ofField? field = some slot)
    (story : Story) (value : Value) : story.setField field value = story.fill value slot := by
  rw [setField_eq, h]

/-- Fields that set different parts can be set in any order. -/
theorem setField_comm (story : Story) {field other : String}
    (h : Slot.ofField? field ≠ Slot.ofField? other) (v w : Value) :
    (story.setField field v).setField other w = (story.setField other w).setField field v := by
  cases ha : Slot.ofField? field with
  | none => rw [setField_of_none ha, setField_of_none ha]
  | some a =>
    cases hb : Slot.ofField? other with
    | none => rw [setField_of_none hb, setField_of_none hb]
    | some b =>
      have hne : a ≠ b := fun heq => h (by rw [ha, hb, heq])
      rw [setField_of_some hb, setField_of_some ha, setField_of_some ha, setField_of_some hb]
      exact fill_comm story hne v w

/-- The fields do not set one part of a story. -/
def Apart {α : Type} (a b : String × α) : Prop :=
  ∀ slot, Slot.ofField? a.1 = some slot → Slot.ofField? b.1 ≠ some slot

instance {α : Type} : Std.Symm (@Apart α) := ⟨fun _ _ hab slot hb ha => hab slot ha hb⟩

/-- Fields that do not set one part of a story can be set in any order. -/
theorem setField_comm_of_apart {a b : String × Value} (h : Apart a b) (story : Story) :
    (story.setField a.1 a.2).setField b.1 b.2 = (story.setField b.1 b.2).setField a.1 a.2 := by
  cases hslot : Slot.ofField? a.1 with
  | none => simp only [setField_of_none hslot]
  | some slot => exact setField_comm story (by rw [hslot]; exact (h slot hslot).symm) a.2 b.2

/-- The parts of a story that fields set. -/
def slots {α : Type} (fields : List (String × α)) : List Slot :=
  fields.filterMap fun e => Slot.ofField? e.1

/-- Only fields that set something matter. -/
theorem setFields_filter (story : Story) (fields : List (String × Value)) :
    story.setFields (fields.filter fun e => (Slot.ofField? e.1).isSome) = story.setFields fields := by
  unfold setFields
  induction fields generalizing story with
  | nil => rfl
  | cons head rest ih =>
    obtain ⟨field, value⟩ := head
    cases hslot : Slot.ofField? field with
    | none => simp [hslot, ih, setField_of_none hslot]
    | some slot => simp [hslot, ih]

theorem names_nodup_of_slots {α : Type} {fields : List (String × α)} (h : (slots fields).Nodup) :
    (Table.names (fields.filter fun e => (Slot.ofField? e.1).isSome)).Nodup := by
  induction fields with
  | nil => exact List.nodup_nil
  | cons head rest ih =>
    obtain ⟨field, value⟩ := head
    cases hslot : Slot.ofField? field with
    | none =>
      rw [List.filter_cons_of_neg (by simp [hslot])]
      exact ih (by simpa [slots, hslot] using h)
    | some slot =>
      have hcons : slots ((field, value) :: rest) = slot :: slots rest := by simp [slots, hslot]
      rw [hcons, List.nodup_cons] at h
      rw [List.filter_cons_of_pos (by simp [hslot])]
      refine List.nodup_cons.2 ⟨fun hmem => h.1 ?_, ih h.2⟩
      obtain ⟨e, he, heq⟩ := List.mem_map.1 hmem
      exact List.mem_filterMap.2 ⟨e, (List.mem_filter.1 he).1, by rw [heq, hslot]⟩

/-- Fields that set each part at most once can be set in any order. -/
theorem setFields_of_perm (story : Story) {fields others : List (String × Value)}
    (h : fields.Perm others) (hslots : (slots fields).Nodup) :
    story.setFields others = story.setFields fields := by
  have hapart : fields.Pairwise Apart := by
    refine (List.pairwise_filterMap.1 hslots).imp fun {a b} hab slot ha hb => ?_
    exact hab slot ha slot hb rfl
  refine (h.foldl_eq' (fun a ha b hb story => ?_) story).symm
  by_cases heq : a = b
  · rw [heq]
  · exact setField_comm_of_apart (hapart.forall ha hb heq) story

end Story

/-! ## Assigned fields -/

namespace Outline

/-- The fields that are assigned to a variable, in order. -/
def fieldsOf (name : String) (assigned : List (String × String × Expr)) : List (String × Expr) :=
  assigned.filterMap fun a => if a.1 = name then some a.2 else none

/-- The fields of a variable are set one after another. -/
theorem get?_foldl_assign (name : String) (assigned : List (String × String × Expr))
    (t : Table (Table Expr)) :
    (Table.get? name (assigned.foldl assign t)).getD [] =
      Table.merge ((Table.get? name t).getD []) (fieldsOf name assigned) := by
  induction assigned generalizing t with
  | nil => rfl
  | cons a rest ih =>
    rw [List.foldl_cons, ih]
    unfold assign
    by_cases heq : a.1 = name
    · rw [heq, Table.get?_set_self]
      simp [fieldsOf, heq, Table.merge]
    · rw [Table.get?_set_of_ne (Ne.symm heq)]
      simp [fieldsOf, heq]

/-- The values assigned to the fields of a variable of a module. -/
theorem assigned_ofModule (m : Module) (name : String) :
    (ofModule m).assigned name = Table.mapEntries Expr.value
      (Table.ofList (fieldsOf name (m.contributed Form.assignments))) := by
  unfold assigned
  rw [ofModule_eq, get?_foldl_assign]
  rfl

/-- Where fields are assigned at most once, setting them as they were collected and as they were
assigned comes to the same. -/
theorem setFields_assigned {m : Module} {name : String}
    (hslots : (Story.slots (fieldsOf name (m.contributed Form.assignments))).Nodup)
    (story : Story) : story.setFields ((ofModule m).assigned name) =
      story.setFields
        (Table.mapEntries Expr.value (fieldsOf name (m.contributed Form.assignments))) := by
  have hfilter (fields : List (String × Expr)) :
      (Table.mapEntries Expr.value fields).filter (fun e => (Story.Slot.ofField? e.1).isSome) =
        Table.mapEntries Expr.value (fields.filter fun e => (Story.Slot.ofField? e.1).isSome) := by
    simp [Table.mapEntries, List.filter_map, Function.comp_def]
  rw [← Story.setFields_filter, ← Story.setFields_filter story (Table.mapEntries _ _),
    assigned_ofModule, hfilter, hfilter,
    Table.filter_ofList (fun field => (Story.Slot.ofField? field).isSome),
    Table.ofList_eq_self (Story.names_nodup_of_slots hslots)]

end Outline

/-! ## Modules that declare each name once -/

namespace Script.Module

theorem contributed_perm {m m' : Module} (h : m.Perm m') {β : Type} (part : Form → List β) :
    (m.contributed part).Perm (m'.contributed part) :=
  h.flatMap_right _

/-- Each variable and each function is declared once, each name is exported once and there is one default
export, and each field of a story is assigned at most once, a story's name being one field. -/
structure DeclaresOnce (m : Module) : Prop where
  bound : (Table.names (m.contributed Form.bound)).Nodup
  functions : (Table.names (m.contributed Form.functions)).Nodup
  exported : (Table.names (m.contributed Form.exported)).Nodup
  default : (m.contributed Form.defaultValues).length + (m.contributed Form.defaultNames).length = 1
  fields : ∀ entry ∈ m.contributed Form.exported,
    (Story.slots (Outline.fieldsOf entry.2 (m.contributed Form.assignments))).Nodup

end Script.Module

namespace Outline

/-- The default export is an object, or it names a variable that holds one. -/
def FindsMeta (o : Outline) : Prop :=
  (o.defaultValue.bind Expr.objectEntries?).isSome = true ∨
    (o.referredName?.bind o.objectIn?).isSome = true

instance (o : Outline) : Decidable o.FindsMeta := inferInstanceAs (Decidable (_ ∨ _))

/-- The outlines have the same variables, exports, default and stories, exports in any order. -/
structure Agrees (o o' : Outline) : Prop where
  bindings : ∀ name, Table.get? name o'.bindings = Table.get? name o.bindings
  exported : o.exported.Perm o'.exported
  defaultValue : o'.defaultValue = o.defaultValue
  defaultName : o'.defaultName = o.defaultName
  stories : ∀ entry ∈ o.exported, o'.story? entry.2 = o.story? entry.2

/-- What is declared once is found under its name, in whatever order. -/
theorem get?_foldl_declare_of_perm {α : Type} {declared others : List (String × α)}
    (h : declared.Perm others) (hdistinct : (Table.names declared).Nodup) (name : String) :
    Table.get? name (others.foldl declare []) = Table.get? name (declared.foldl declare []) := by
  rw [get?_foldl_declare, get?_foldl_declare, Table.get?_of_perm h hdistinct]

/-- A module that declares each name once has the same outline in any order of its statements. -/
theorem agrees_of_perm {m m' : Module} (h : m.Perm m') (honce : m.DeclaresOnce) :
    (ofModule m).Agrees (ofModule m') := by
  have hbindings (name : String) : Table.get? name (ofModule m').bindings =
      Table.get? name (ofModule m).bindings := by
    rw [ofModule_eq, ofModule_eq]
    exact get?_foldl_declare_of_perm (Module.contributed_perm h _) honce.bound name
  have hfunctions (name : String) : Table.get? name (ofModule m').functions =
      Table.get? name (ofModule m).functions := by
    rw [ofModule_eq, ofModule_eq]
    exact get?_foldl_declare_of_perm (Module.contributed_perm h _) honce.functions name
  have hvalues := Module.contributed_perm h Form.defaultValues
  have hnames := Module.contributed_perm h Form.defaultNames
  have hone := honce.default
  refine ⟨hbindings, ?_, ?_, ?_, fun entry hentry => ?_⟩
  · rw [ofModule_eq, ofModule_eq]
    exact Module.contributed_perm h _
  · rw [ofModule_eq, ofModule_eq]
    dsimp only
    rw [eq_of_perm_of_short hvalues (by omega)]
  · rw [ofModule_eq, ofModule_eq]
    dsimp only
    rw [eq_of_perm_of_short hnames (by omega)]
  · rw [ofModule_eq] at hentry
    have hslots := honce.fields entry hentry
    have hassignments := Module.contributed_perm h Form.assignments
    have hfields : (fieldsOf entry.2 (m.contributed Form.assignments)).Perm
        (fieldsOf entry.2 (m'.contributed Form.assignments)) := hassignments.filterMap _
    have hslots' : (Story.slots (fieldsOf entry.2 (m'.contributed Form.assignments))).Nodup :=
      (hfields.filterMap _).nodup_iff.1 hslots
    unfold story? initialStory?
    rw [hbindings, hfunctions]
    congr 1
    funext story
    rw [setFields_assigned hslots, setFields_assigned hslots']
    refine Story.setFields_of_perm story (hfields.map _) ?_
    have hsame : Story.slots
        (Table.mapEntries Expr.value (fieldsOf entry.2 (m.contributed Form.assignments))) =
          Story.slots (fieldsOf entry.2 (m.contributed Form.assignments)) := by
      simp [Story.slots, Table.mapEntries, List.filterMap_map]
    exact hsame ▸ hslots

variable {o o' : Outline}

/-- The meta is the object that is exported as the default, or the one in the variable that is named. -/
theorem meta?_of_findsMeta (h : o.FindsMeta) : ∃ entries held,
    o.meta? = some (entries, held) ∧
      (o.defaultValue.bind Expr.objectEntries? = some entries ∧ held = none ∨
        o.defaultValue.bind Expr.objectEntries? = none ∧ ∃ name, o.referredName? = some name ∧
          o.objectIn? name = some entries ∧ held = some name) := by
  cases hvalue : o.defaultValue.bind Expr.objectEntries? with
  | some entries =>
    refine ⟨entries, none, ?_, .inl ⟨rfl, rfl⟩⟩
    obtain ⟨e, he, -⟩ := Option.bind_eq_some_iff.1 hvalue
    have hdefault : o.hasDefault = true := by simp [hasDefault, he]
    simp [meta?, hdefault, hvalue]
  | none =>
    have hreferred := h.resolve_left (by simp [hvalue])
    obtain ⟨entries, hentries⟩ := Option.isSome_iff_exists.1 hreferred
    obtain ⟨name, hname, hobject⟩ := Option.bind_eq_some_iff.1 hentries
    refine ⟨entries, some name, ?_, .inr ⟨rfl, name, hname, hobject, rfl⟩⟩
    have hdefault : o.hasDefault = true := by
      unfold hasDefault
      unfold referredName? at hname
      cases hboth : o.defaultValue with
      | some e => rfl
      | none =>
        rw [hboth] at hname
        simp [show o.defaultName = some name from hname]
    simp [meta?, hdefault, hvalue, hname, hobject]

/-- Outlines that agree find the same meta. -/
theorem Agrees.meta?_eq (h : o.Agrees o') (hmeta : o.FindsMeta) : o'.meta? = o.meta? := by
  have hobject (name : String) : o'.objectIn? name = o.objectIn? name := by
    rw [objectIn?, h.bindings, objectIn?]
  have hreferred : o'.referredName? = o.referredName? := by
    rw [referredName?, h.defaultValue, h.defaultName, referredName?]
  have hmeta' : o'.FindsMeta := by
    unfold FindsMeta at *
    rwa [h.defaultValue, hreferred, funext hobject]
  obtain ⟨entries, held, hfound, hcase⟩ := meta?_of_findsMeta hmeta
  obtain ⟨entries', held', hfound', hcase'⟩ := meta?_of_findsMeta hmeta'
  rw [hfound, hfound']
  rw [h.defaultValue, hreferred] at hcase'
  simp only [hobject] at hcase'
  obtain ⟨hvalue, rfl⟩ | ⟨hvalue, name, hname, hentries, rfl⟩ := hcase <;>
    obtain ⟨hvalue', rfl⟩ | ⟨hvalue', name', hname', hentries', rfl⟩ := hcase' <;> simp_all

/-- Outlines that agree have the same stories, in any order. -/
theorem Agrees.get?_stories (h : o.Agrees o') (hdistinct : (Table.names o.exported).Nodup)
    (held : Option String) (name : String) :
    Table.get? name (o'.stories held) = Table.get? name (o.stories held) := by
  have hsame : o'.listed held = (o'.exported.filter fun entry => held != some entry.2).filterMap
      fun entry => (o.story? entry.2).map fun story => (entry.1, story) := by
    refine List.filterMap_congr fun entry hentry => ?_
    rw [h.stories entry (h.exported.mem_iff.2 (List.mem_filter.1 hentry).1)]
  have hperm : (o.listed held).Perm (o'.listed held) := by
    rw [hsame]
    exact (h.exported.filter _).filterMap _
  have hnames : (Table.names (o.listed held)).Nodup := by
    have hsub := Table.names_filterMap_sublist (fun entry => o.story? entry.2)
      (o.exported.filter fun entry => held != some entry.2)
    exact hdistinct.sublist (hsub.trans (List.filter_sublist.map Prod.fst))
  rw [stories_eq, stories_eq, Table.ofList_eq_self hnames,
    Table.ofList_eq_self ((hperm.map Prod.fst).nodup_iff.1 hnames), Table.get?_of_perm hperm hnames]

end Outline

/-! ## Story files -/

namespace StoryFile

/-- The story files say the same, stories and imports in any order. The path under which the component is
imported is guessed from the first imports, and is left out. -/
structure Agrees (f g : StoryFile) : Prop where
  path : g.path = f.path
  metadata : g.metadata = f.metadata
  componentName : g.componentName = f.componentName
  stories : ∀ name, Table.get? name g.stories = Table.get? name f.stories
  imports : f.imports.Perm g.imports
  dependencies : f.dependencies.Perm g.dependencies

/-- Both outcomes are story files that say the same, or both are the same failure. -/
inductive SameOutcome : Except Failure StoryFile → Except Failure StoryFile → Prop where
  | read {f g : StoryFile} (h : f.Agrees g) : SameOutcome (.ok f) (.ok g)
  | failed (e : Failure) : SameOutcome (.error e) (.error e)

theorem ofModule_of_perm (path : String) {m m' : Module} (horder : m.Perm m')
    (honce : m.DeclaresOnce) (hmeta : (Outline.ofModule m).FindsMeta) :
    SameOutcome (ofModule path m) (ofModule path m') ∧
      ∀ e, ofModule path m = .error e → e = .badNumber := by
  have hagree := Outline.agrees_of_perm horder honce
  have hdistinct : (Table.names (Outline.ofModule m).exported).Nodup := by
    rw [Outline.ofModule_eq]
    exact honce.exported
  have himports : m.imports.Perm m'.imports := horder.flatMap_right _
  obtain ⟨entries, held, hfound, -⟩ := Outline.meta?_of_findsMeta hmeta
  unfold ofModule ofOutline
  rw [hagree.meta?_eq hmeta, hfound]
  dsimp only
  split
  · exact ⟨.failed _, fun e he => (Except.error.inj he).symm⟩
  · refine ⟨.read ⟨rfl, rfl, rfl, hagree.get?_stories hdistinct held, himports,
      himports.filter _⟩, fun e he => ?_⟩
    cases he

/-- Of two texts with the same statements in different orders, where each name is declared once, each name
is exported once, each field of a story is assigned at most once, and the single default export is an
object or names a variable that holds one, both are read as story files that say the same. Both fail only
if the component holds an integer that is too long to be shown. -/
theorem ofSource_of_perm {path source other : String}
    (horder : (Module.ofFile path source).Perm (Module.ofFile path other))
    (honce : (Module.ofFile path source).DeclaresOnce)
    (hmeta : (Outline.ofModule (Module.ofFile path source)).FindsMeta) :
    SameOutcome (ofSource path source) (ofSource path other) ∧
      ∀ e, ofSource path source = .error e → e = .badNumber :=
  ofModule_of_perm path horder honce hmeta

end StoryFile

/-! ## A story file in two orders -/

/-- A story file whose exports and assignments come after what they name. -/
def forwardStory : String :=
  "const m=\x7bcomponent:A\x7d;const s=\x7b\x7d;s.args=\x7b\x7d;export\x7bs as S\x7d;export default m"

/-- The same statements with exports and assignments before what they name. -/
def backwardStory : String :=
  "export default m;export\x7bs as S\x7d;s.args=\x7b\x7d;const s=\x7b\x7d;const m=\x7bcomponent:A\x7d"

/-- Both texts are read as story files that say the same. -/
theorem StoryFile.sameOutcome_backwardStory :
    SameOutcome (ofSource "a.ts" forwardStory) (ofSource "a.ts" backwardStory) ∧
      (ofSource "a.ts" forwardStory).toOption.map (fun f => Table.names f.stories) = some ["S"] := by
  let statements : Module :=
    [⟨.bindings false [("m", .object "\x7bcomponent:A\x7d" [("component", .name "A")])], []⟩,
      ⟨.bindings false [("s", .object "\x7b\x7d" [])], []⟩,
      ⟨.assignment "s" "args" (.object "\x7b\x7d" []), []⟩,
      ⟨.exports [("S", "s")], []⟩,
      ⟨.defaultExport (.name "m"), []⟩]
  have hforward : Module.ofFile "a.ts" forwardStory = statements := by decide +kernel
  have hbackward : Module.ofFile "a.ts" backwardStory = statements.reverse := by decide +kernel
  have hsame := @ofSource_of_perm "a.ts" forwardStory backwardStory
    (by rw [hforward, hbackward]; exact (List.reverse_perm _).symm)
    (by rw [hforward]; exact ⟨by decide, by decide, by decide, by decide, by decide⟩)
    (by rw [hforward]; decide)
  refine ⟨hsame.1, ?_⟩
  have hsource : ofSource "a.ts" forwardStory = ofModule "a.ts" statements :=
    congrArg (ofModule "a.ts") hforward
  rw [hsource]
  decide

end StoryRegistry
