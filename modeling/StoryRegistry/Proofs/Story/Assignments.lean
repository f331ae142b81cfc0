import StoryRegistry.Proofs.Story.Order

/-!
# Executing assignments

The assignments to the fields of a story are collected first, each field at the place of its first
assignment and with its last value, and are then taken in one after another. For the parts of a
story that one field sets that comes to executing the assignments in their order, so that the last
one wins (`Story.unnamed_setFields_ofList`). Two fields set the name. The last value of the one that
was assigned later first decides (`Story.name_of_decidesName`), and it is the last of all unless the
other field is assigned once more (`Story.setFields_ofList_of_namedInTurn`).
-/

set_option autoImplicit false

namespace StoryRegistry

open StoryRegistry.Script

/-! ## Tables made from entries -/

namespace Table

variable {α : Type}

/-- The first name stays the first. -/
theorem exists_ofList_cons (first : String × α) (rest : List (String × α)) :
    ∃ v more, ofList (first :: rest) = (first.1, v) :: more := by
  induction rest using List.reverseRecOn with
  | nil => exact ⟨first.2, [], rfl⟩
  | append_singleton front last ih =>
    obtain ⟨v, more, hfront⟩ := ih
    rw [← List.cons_append, ofList_concat, hfront, set]
    split
    · exact ⟨last.2, more, rfl⟩
    · exact ⟨v, set last.1 last.2 more, rfl⟩

/-- A table with a single name, held once, has a single entry. -/
theorem exists_eq_singleton {name : String} {t : Table α} (hdistinct : (names t).Nodup)
    (hmem : name ∈ names t) (h : ∀ other ∈ names t, other = name) : ∃ v, t = [(name, v)] := by
  match t with
  | [] => cases hmem
  | [(key, v)] => exact ⟨v, by rw [h key List.mem_cons_self]⟩
  | (key, v) :: (key', v') :: rest =>
    have hkey := h key List.mem_cons_self
    have hkey' := h key' (List.mem_cons_of_mem _ List.mem_cons_self)
    exact absurd (by rw [hkey, hkey']; exact List.mem_cons_self) (List.nodup_cons.1 hdistinct).1

end Table

/-! ## Parts that one field sets -/

namespace Story

/-- The field sets the name of a story. -/
def IsNaming (field : String) : Prop := Slot.ofField? field = some .name

instance (field : String) : Decidable (IsNaming field) :=
  inferInstanceAs (Decidable (Slot.ofField? field = some .name))

/-- The field after which a part of a story is called. -/
def Slot.field : Slot → String
  | name => "name"
  | args => "args"
  | parameters => "parameters"
  | decorators => "decorators"
  | render => "render"
  | play => "play"
  | tags => "tags"

/-- A part other than the name is set by one field. -/
theorem Slot.field_of_ofField? {field : String} {slot : Slot} (h : ofField? field = some slot)
    (hne : slot ≠ name) : field = slot.field := by
  unfold ofField? at h
  split at h <;> cases h <;> first | rfl | exact absurd rfl hne

theorem isNaming_iff {field : String} : IsNaming field ↔ field = "name" ∨ field = "storyName" := by
  unfold IsNaming Slot.ofField?
  constructor
  · intro h
    split at h <;> cases h
    · exact Or.inl rfl
    · exact Or.inr rfl
  · rintro (rfl | rfl) <;> rfl

/-- Different fields set different parts, but for the two that set the name. -/
theorem apart_of_ne {α : Type} {a b : String × α} (hne : a.1 ≠ b.1) (hnaming : ¬IsNaming a.1) :
    Apart a b := by
  intro slot ha hb
  have hslot : slot ≠ .name := by
    rintro rfl
    exact hnaming ha
  exact hne ((Slot.field_of_ofField? ha hslot).trans (Slot.field_of_ofField? hb hslot).symm)

variable (story : Story) (fields : List (String × Value))

theorem setFields_cons (head : String × Value) (rest : List (String × Value)) :
    story.setFields (head :: rest) = (story.setField head.1 head.2).setFields rest := rfl

theorem setFields_append (more : List (String × Value)) :
    story.setFields (fields ++ more) = (story.setFields fields).setFields more :=
  List.foldl_append

/-- A field can as well be set after others that set other parts. -/
theorem setFields_setField {entry : String × Value} (h : ∀ other ∈ fields, Apart entry other) :
    (story.setField entry.1 entry.2).setFields fields =
      (story.setFields fields).setField entry.1 entry.2 := by
  induction fields generalizing story with
  | nil => rfl
  | cons head rest ih =>
    obtain ⟨hhead, hrest⟩ := List.forall_mem_cons.1 h
    rw [setFields_cons, setFields_cons, setField_comm_of_apart hhead, ih _ hrest]

/-- Of two values for a part that one field sets the later one counts. -/
theorem setField_setField {field : String} (h : ¬IsNaming field) (v w : Value) :
    (story.setField field v).setField field w = story.setField field w := by
  cases hslot : Slot.ofField? field with
  | none => simp only [setField_of_none hslot]
  | some slot =>
    simp only [setField_of_some hslot]
    cases slot with
    | name => exact absurd hslot h
    | _ => rfl

/-- Setting a field once more changes nothing. -/
theorem setField_again (field : String) (v : Value) :
    (story.setField field v).setField field v = story.setField field v := by
  cases hslot : Slot.ofField? field with
  | none => simp only [setField_of_none hslot]
  | some slot =>
    simp only [setField_of_some hslot]
    cases slot with
    | name => cases v <;> rfl
    | _ => rfl

/-- The last of the assignments that set a part of a story holds afterwards. -/
theorem setField_setFields_of_last {front back : List (String × Value)} {entry : String × Value}
    (h : ∀ later ∈ back, Apart entry later) :
    (story.setFields (front ++ entry :: back)).setField entry.1 entry.2 =
      story.setFields (front ++ entry :: back) := by
  have hlast : story.setFields (front ++ entry :: back) =
      ((story.setFields front).setFields back).setField entry.1 entry.2 := by
    rw [← setFields_setField _ _ h, setFields_append, setFields_cons]
  rw [hlast, setField_again]

/-- Setting a field in a table of fields comes to setting it after them. -/
theorem setFields_set {field : String} (h : ¬IsNaming field) (v : Value) {t : Table Value}
    (hdistinct : (Table.names t).Nodup) :
    story.setFields (Table.set field v t) = (story.setFields t).setField field v := by
  induction t generalizing story with
  | nil => rfl
  | cons head rest ih =>
    obtain ⟨key, old⟩ := head
    obtain ⟨hnew, hrest⟩ := List.nodup_cons.1 hdistinct
    rw [Table.set]
    by_cases hkey : key = field
    · subst hkey
      have hothers : ∀ other ∈ rest, Apart (key, v) other := fun other hother =>
        apart_of_ne (fun heq => hnew (heq ▸ List.mem_map_of_mem hother)) h
      have hleft := setFields_setField story rest hothers
      have hright := setFields_setField (story.setField key old) rest hothers
      rw [setField_setField story h] at hright
      rw [if_pos rfl]
      exact hright
    · rw [if_neg hkey]
      exact ih (story.setField key old) hrest

/-- Where no field sets the name, setting them as they were collected and as they were assigned comes
to the same. -/
theorem setFields_ofList (h : ∀ entry ∈ fields, ¬IsNaming entry.1) :
    story.setFields (Table.ofList fields) = story.setFields fields := by
  induction fields using List.reverseRecOn with
  | nil => rfl
  | append_singleton front last ih =>
    obtain ⟨hfront, hlast⟩ := List.forall_mem_append.1 h
    rw [Table.ofList_concat, setFields_set story (hlast last List.mem_cons_self) last.2
      (Table.nodup_names_ofList front), ih hfront, setFields_append]
    rfl

/-! ## The name and the other parts -/

/-- The story without its name. -/
def unnamed : Story := { story with name := none }

theorem eq_of_unnamed {story story' : Story} (hparts : story.unnamed = story'.unnamed)
    (hname : story.name = story'.name) : story = story' := by
  cases story
  cases story'
  simp_all [unnamed]

theorem unnamed_setField {field : String} (h : ¬IsNaming field) (v : Value) :
    (story.setField field v).unnamed = story.unnamed.setField field v ∧
      (story.setField field v).name = story.name := by
  cases hslot : Slot.ofField? field with
  | none =>
    simp only [setField_of_none hslot]
    exact ⟨trivial, trivial⟩
  | some slot =>
    simp only [setField_of_some hslot]
    cases slot with
    | name => exact absurd hslot h
    | _ => exact ⟨rfl, rfl⟩

theorem setField_of_isNaming {field : String} (h : IsNaming field) (v : Value) :
    story.setField field v = { story with name := v.asString?.or story.name } :=
  setField_of_some h story v

/-- The assignments to the fields that name a story. -/
def namings {α : Type} (fields : List (String × α)) : List (String × α) :=
  fields.filter fun entry => decide (IsNaming entry.1)

/-- The parts other than the name depend on the other fields only. -/
theorem unnamed_setFields : (story.setFields fields).unnamed =
    story.unnamed.setFields (fields.filter fun entry => !decide (IsNaming entry.1)) := by
  induction fields generalizing story with
  | nil => rfl
  | cons head rest ih =>
    rw [setFields_cons, ih]
    by_cases h : IsNaming head.1
    · rw [List.filter_cons_of_neg (by simp [h]), setField_of_isNaming story h]
      rfl
    · rw [List.filter_cons_of_pos (by simp [h]), (unnamed_setField story h head.2).1]
      rfl

/-- The name depends on the fields that set it only. -/
theorem name_setFields : (story.setFields fields).name =
    (namings fields).foldl (fun name entry => entry.2.asString?.or name) story.name := by
  induction fields generalizing story with
  | nil => rfl
  | cons head rest ih =>
    rw [setFields_cons, ih]
    by_cases h : IsNaming head.1
    · rw [namings, namings, List.filter_cons_of_pos (by simpa using h),
        setField_of_isNaming story h]
      rfl
    · rw [namings, namings, List.filter_cons_of_neg (by simpa using h),
        (unnamed_setField story h head.2).2]

/-- The parts other than the name are what executing the assignments makes them. -/
theorem unnamed_setFields_ofList :
    (story.setFields (Table.ofList fields)).unnamed = (story.setFields fields).unnamed := by
  rw [unnamed_setFields, unnamed_setFields,
    Table.filter_ofList (fun field => !decide (IsNaming field))]
  refine setFields_ofList _ _ fun entry hentry => ?_
  simpa using (List.mem_filter.1 hentry).2

theorem namings_ofList : namings (Table.ofList fields) = Table.ofList (namings fields) :=
  Table.filter_ofList (fun field => decide (IsNaming field)) fields

/-- The assignment is the last one to the field that was assigned later first, of those that name a
story, or to the only one that was assigned. -/
def DecidesName (entry : String × Value) : Prop :=
  ∃ front back, namings fields = front ++ entry :: back ∧
    (∀ first ∈ front.head?, first.1 ≠ entry.1 ∨ ∀ other ∈ front, other.1 = entry.1) ∧
    ∀ later ∈ back, later.1 ≠ entry.1 ∧ later.1 ∈ Table.names front

/-- If a story is given a name, the name that it is given last is a text, and decides. -/
def NamedInTurn : Prop :=
  ∀ last ∈ (namings fields).getLast?, DecidesName fields last ∧ last.2.asString?.isSome = true

variable {story fields}

theorem eq_of_isNaming {a b c : String} (ha : IsNaming a) (hb : IsNaming b) (hc : IsNaming c)
    (hab : a ≠ b) (hac : a ≠ c) : b = c := by
  rw [isNaming_iff] at ha hb hc
  rcases ha with rfl | rfl <;> rcases hb with rfl | rfl <;> rcases hc with rfl | rfl <;>
    first | rfl | exact absurd rfl hab | exact absurd rfl hac

/-- Of naming fields, the one that was assigned later first stands last when they are collected. -/
theorem exists_ofList_concat {front : List (String × Value)} {entry : String × Value}
    (hall : ∀ other ∈ front ++ [entry], IsNaming other.1)
    (h : ∀ first ∈ front.head?, first.1 ≠ entry.1 ∨ ∀ other ∈ front, other.1 = entry.1) :
    ∃ before, Table.ofList (front ++ [entry]) = before ++ [entry] := by
  obtain ⟨hfront, hentry⟩ := List.forall_mem_append.1 hall
  rw [Table.ofList_concat]
  by_cases hmem : entry.1 ∈ Table.names (Table.ofList front)
  · match front with
    | [] => cases hmem
    | first :: rest =>
      have hread {other : String} (hother : other ∈ Table.names (Table.ofList (first :: rest))) :
          ∃ e ∈ first :: rest, e.1 = other := by
        rw [Table.names_ofList, List.mem_eraseDups] at hother
        exact List.mem_map.1 hother
      have hdistinct := Table.nodup_names_ofList (first :: rest)
      rcases h first rfl with hne | hsame
      · -- the other field comes first, and this one is the only one behind it
        obtain ⟨v, more, hcollected⟩ := Table.exists_ofList_cons first rest
        rw [hcollected] at hmem hdistinct hread ⊢
        obtain ⟨hnew, hmore⟩ := List.nodup_cons.1 hdistinct
        have hthere : entry.1 ∈ Table.names more :=
          (List.mem_cons.1 hmem).resolve_left (Ne.symm hne)
        obtain ⟨w, rfl⟩ := Table.exists_eq_singleton hmore hthere fun other hother => by
          obtain ⟨e, he, rfl⟩ := hread (List.mem_cons_of_mem _ hother)
          exact eq_of_isNaming (hfront first List.mem_cons_self) (hfront e he)
            (hentry entry List.mem_cons_self) (fun heq => hnew (heq ▸ hother)) hne
        exact ⟨[(first.1, v)], by simp [Table.set, hne]⟩
      · obtain ⟨w, hsingle⟩ := Table.exists_eq_singleton hdistinct hmem fun other hother => by
          obtain ⟨e, he, rfl⟩ := hread hother
          exact hsame e he
        exact ⟨[], by simp [hsingle, Table.set]⟩
  · exact ⟨_, Table.set_of_not_mem hmem entry.2⟩

/-- It stays last when the other one is assigned again. -/
theorem exists_ofList_append {front back : List (String × Value)} {entry : String × Value}
    (hall : ∀ other ∈ front ++ [entry], IsNaming other.1)
    (h : ∀ first ∈ front.head?, first.1 ≠ entry.1 ∨ ∀ other ∈ front, other.1 = entry.1)
    (hback : ∀ later ∈ back, later.1 ≠ entry.1 ∧ later.1 ∈ Table.names front) :
    ∃ before, Table.ofList (front ++ entry :: back) = before ++ [entry] := by
  induction back using List.reverseRecOn with
  | nil => exact exists_ofList_concat hall h
  | append_singleton rest later ih =>
    obtain ⟨hrest, hlater⟩ := List.forall_mem_append.1 hback
    obtain ⟨hne, hmem⟩ := hlater later List.mem_cons_self
    obtain ⟨before, hbefore⟩ := ih hrest
    have hthere : later.1 ∈ Table.names before := by
      have hcollected : later.1 ∈ Table.names (Table.ofList (front ++ entry :: rest)) := by
        rw [Table.names_ofList, List.mem_eraseDups, Table.names, List.map_append]
        exact List.mem_append_left _ hmem
      rw [hbefore, Table.names, List.map_append] at hcollected
      exact (List.mem_append.1 hcollected).resolve_right (by simpa using hne)
    refine ⟨Table.set later.1 later.2 before, ?_⟩
    rw [← List.cons_append, ← List.append_assoc, Table.ofList_concat, hbefore,
      Table.set_append_of_mem hthere]

/-- The name that decides is the one that the story gets. -/
theorem name_of_decidesName {entry : String × Value} (h : DecidesName fields entry) {text : String}
    (htext : entry.2.asString? = some text) :
    (story.setFields (Table.ofList fields)).name = some text := by
  obtain ⟨front, back, hfields, hfront, hback⟩ := h
  have hall : ∀ other ∈ front ++ [entry], IsNaming other.1 := by
    intro other hother
    have hmem : other ∈ namings fields := by
      rw [hfields, List.append_cons]
      exact List.mem_append_left _ hother
    simpa using (List.mem_filter.1 hmem).2
  obtain ⟨before, hbefore⟩ := exists_ofList_append hall hfront hback
  rw [name_setFields, namings_ofList, hfields, hbefore, List.foldl_append, List.foldl_cons,
    List.foldl_nil, htext, Option.some_or]

/-- Where names are given in turn, the story gets the name that it is given last. -/
theorem setFields_ofList_of_namedInTurn (h : NamedInTurn fields) :
    story.setFields (Table.ofList fields) = story.setFields fields := by
  refine eq_of_unnamed (unnamed_setFields_ofList story fields) ?_
  rcases List.eq_nil_or_concat (namings fields) with hnone | ⟨front, last, hlast⟩
  · rw [name_setFields, name_setFields, namings_ofList, hnone]
    rfl
  · obtain ⟨hdecides, htext⟩ := h last (by simp [hlast])
    obtain ⟨text, htext⟩ := Option.isSome_iff_exists.1 htext
    rw [name_of_decidesName hdecides htext, name_setFields, hlast, List.concat_eq_append,
      List.foldl_append, List.foldl_cons, List.foldl_nil, htext, Option.some_or]

end Story

/-! ## Executing modules -/

/-- The story after the statement is executed, as far as it assigns a field of the variable. -/
def Script.Form.execute (name : String) (story : Story) : Form → Story
  | .assignment target field value =>
    if target = name then story.setField field value.value else story
  | _ => story

namespace Script.Module

/-- The story after the statements of the module are executed one after another. -/
def execute (m : Module) (name : String) (story : Story) : Story :=
  m.foldl (fun story s => s.form.execute name story) story

/-- The values that the module assigns to the fields of the variable, in its order. -/
def assignedTo (m : Module) (name : String) : List (String × Value) :=
  Table.mapEntries Expr.value (Outline.fieldsOf name (m.contributed Form.assignments))

/-- Executing a module sets the fields that it assigns. -/
theorem execute_eq (m : Module) (name : String) (story : Story) :
    m.execute name story = story.setFields (m.assignedTo name) := by
  unfold execute
  induction m generalizing story with
  | nil => rfl
  | cons s rest ih =>
    have hsplit : assignedTo (s :: rest) name =
        Table.mapEntries Expr.value (Outline.fieldsOf name s.form.assignments) ++
          assignedTo rest name := by
      simp [assignedTo, Outline.fieldsOf, Table.mapEntries]
    rw [List.foldl_cons, ih, hsplit, Story.setFields_append]
    congr 1
    cases s.form with
    | assignment target field value =>
      by_cases h : target = name <;>
        simp [Form.execute, Form.assignments, Outline.fieldsOf, Table.mapEntries, Story.setFields, h]
    | _ => rfl

end Script.Module

/-- A story is its initial value with the assigned fields as they were collected. -/
theorem Outline.exists_of_story? {m : Module} {name : String} {story : Story}
    (h : (ofModule m).story? name = some story) :
    ∃ initial, (ofModule m).initialStory? name = some initial ∧
      story = initial.setFields (Table.ofList (m.assignedTo name)) := by
  obtain ⟨initial, hinitial, rfl⟩ := Option.map_eq_some_iff.1 h
  refine ⟨initial, hinitial, ?_⟩
  rw [assigned_ofModule, ← Table.ofList_mapEntries]
  rfl

namespace StoryFile

/-- A story of a file that was read is behind an export of a variable. But for its name it is what
the initial value becomes when the statements of the file are executed one after another, and where
its names are given in turn it is exactly that. Otherwise it has the name that decides, if that is a
text. The last assignment that sets a part of the story holds. -/
theorem stories_executed {path source : String} {f : StoryFile} (h : ofSource path source = .ok f)
    {exported : String} {story : Story} (hstory : (exported, story) ∈ f.stories) :
    ∃ name initial, (exported, name) ∈ (Module.ofFile path source).contributed Form.exported ∧
      (Outline.ofModule (Module.ofFile path source)).initialStory? name = some initial ∧
      story.unnamed = ((Module.ofFile path source).execute name initial).unnamed ∧
      (Story.NamedInTurn ((Module.ofFile path source).assignedTo name) →
        story = (Module.ofFile path source).execute name initial) ∧
      (∀ entry text, Story.DecidesName ((Module.ofFile path source).assignedTo name) entry →
        entry.2.asString? = some text → story.name = some text) ∧
      ∀ front entry back,
        (Module.ofFile path source).assignedTo name = front ++ entry :: back →
        (∀ later ∈ back, Story.Apart entry later) →
        (Story.IsNaming entry.1 →
          Story.NamedInTurn ((Module.ofFile path source).assignedTo name)) →
        story.setField entry.1 entry.2 = story := by
  obtain ⟨-, entries, held, -, -, hstories⟩ := parts_of_ofOutline h
  rw [hstories] at hstory
  generalize Module.ofFile path source = m at hstory
  obtain ⟨name, hexported, -, hmade⟩ := Outline.exists_of_mem_stories hstory
  rw [Outline.ofModule_eq] at hexported
  obtain ⟨initial, hinitial, rfl⟩ := Outline.exists_of_story? hmade
  have hparts := Story.unnamed_setFields_ofList initial (m.assignedTo name)
  have hinTurn (hturn : Story.NamedInTurn (m.assignedTo name)) :
      initial.setFields (Table.ofList (m.assignedTo name)) =
        initial.setFields (m.assignedTo name) :=
    Story.setFields_ofList_of_namedInTurn hturn
  refine ⟨name, initial, hexported, hinitial, ?_, ?_, fun entry text hdecides htext =>
    Story.name_of_decidesName hdecides htext, fun front entry back hfields hlast hnaming => ?_⟩
  · rw [Module.execute_eq, hparts]
  · rw [Module.execute_eq]
    exact hinTurn
  · have hexecuted : (initial.setFields (m.assignedTo name)).setField entry.1 entry.2 =
        initial.setFields (m.assignedTo name) := by
      rw [hfields]
      exact Story.setField_setFields_of_last initial hlast
    by_cases hname : Story.IsNaming entry.1
    · rw [hinTurn (hnaming hname), hexecuted]
    · obtain ⟨hunnamed, hsame⟩ := Story.unnamed_setField
        (initial.setFields (Table.ofList (m.assignedTo name))) hname entry.2
      refine Story.eq_of_unnamed ?_ hsame
      rw [hunnamed, hparts, ← (Story.unnamed_setField _ hname entry.2).1, hexecuted]

/-! ## Two stories that are named twice -/

/-- A story that is named by one field and then by the other, and whose args are assigned twice. -/
def renamedStory : String :=
  "export default\x7bcomponent:A\x7d;const s=\x7b\x7d;s.name='x';s.args=\x7b\x7d;" ++
    "s.storyName='y';s.args=\x7ba:1\x7d;export\x7bs as S\x7d"

/-- The story has the name and the args that it is given last. -/
theorem stories_renamedStory : ∃ f story, ofSource "a.ts" renamedStory = .ok f ∧
    ("S", story) ∈ f.stories ∧ story.name = some "y" ∧ story.args = some [("a", .int 1)] := by
  let statements : Module :=
    [⟨.defaultExport (.object "\x7bcomponent:A\x7d" [("component", .name "A")]), []⟩,
      ⟨.bindings false [("s", .object "\x7b\x7d" [])], []⟩,
      ⟨.assignment "s" "name" (.string "'x'" [.raw ['x']]), []⟩,
      ⟨.assignment "s" "args" (.object "\x7b\x7d" []), []⟩,
      ⟨.assignment "s" "storyName" (.string "'y'" [.raw ['y']]), []⟩,
      ⟨.assignment "s" "args" (.object "\x7ba:1\x7d" [("a", .number "1")]), []⟩,
      ⟨.exports [("S", "s")], []⟩]
  have hmodule : Module.ofFile "a.ts" renamedStory = statements := by decide +kernel
  have hsource : ofSource "a.ts" renamedStory = ofModule "a.ts" statements :=
    congrArg (ofModule "a.ts") hmodule
  have hchecked : (ofModule "a.ts" statements).toOption.any (fun f =>
      Table.names f.stories == ["S"]) = true := by decide +kernel
  obtain ⟨f, hread, hstories⟩ := exists_ok_of_any hchecked
  rw [← hsource] at hread
  obtain ⟨⟨exported, story⟩, hstory, rfl⟩ := List.mem_map.1
    (show "S" ∈ Table.names f.stories from beq_iff_eq.1 hstories ▸ List.mem_cons_self)
  obtain ⟨name, initial, hexported, -, -, hturn, -, -⟩ := stories_executed hread hstory
  rw [hmodule] at hexported hturn
  have hexports : statements.contributed Form.exported = [("S", "s")] := by decide
  rw [hexports] at hexported
  obtain rfl : name = "s" := (Prod.mk.inj (List.mem_singleton.1 hexported)).2
  have hassigned : statements.assignedTo "s" =
      [("name", .string "x"), ("args", .map []), ("storyName", .string "y"),
        ("args", .map [("a", .int 1)])] := by
    rfl
  have hexecuted := hturn (by
    rw [hassigned]
    rintro last hlast
    cases hlast
    exact ⟨⟨[("name", .string "x")], [], rfl, by decide, by decide⟩, rfl⟩)
  rw [Module.execute_eq, hassigned] at hexecuted
  refine ⟨f, story, hread, hstory, ?_, ?_⟩
  · rw [hexecuted]
    rfl
  · rw [hexecuted]
    rfl

/-- A story that gets its last name by the field that named it first. -/
def returnedStory : String :=
  "export default\x7bcomponent:A\x7d;const s=\x7b\x7d;s.name='x';s.storyName='y';s.name='z';" ++
    "export\x7bs as S\x7d"

/-- The story does not have the name that it is given last. -/
theorem stories_returnedStory : ∃ f story, ofSource "a.ts" returnedStory = .ok f ∧
    ("S", story) ∈ f.stories ∧ story.name = some "y" ∧
      ∀ initial, ((Module.ofFile "a.ts" returnedStory).execute "s" initial).name = some "z" := by
  let statements : Module :=
    [⟨.defaultExport (.object "\x7bcomponent:A\x7d" [("component", .name "A")]), []⟩,
      ⟨.bindings false [("s", .object "\x7b\x7d" [])], []⟩,
      ⟨.assignment "s" "name" (.string "'x'" [.raw ['x']]), []⟩,
      ⟨.assignment "s" "storyName" (.string "'y'" [.raw ['y']]), []⟩,
      ⟨.assignment "s" "name" (.string "'z'" [.raw ['z']]), []⟩,
      ⟨.exports [("S", "s")], []⟩]
  have hmodule : Module.ofFile "a.ts" returnedStory = statements := by decide +kernel
  have hsource : ofSource "a.ts" returnedStory = ofModule "a.ts" statements :=
    congrArg (ofModule "a.ts") hmodule
  have hchecked : (ofModule "a.ts" statements).toOption.any (fun f =>
      f.stories.map (fun e => (e.1, e.2.name)) == [("S", some "y")]) = true := by decide +kernel
  obtain ⟨f, hread, hstories⟩ := exists_ok_of_any hchecked
  obtain ⟨⟨exported, story⟩, hstory, heq⟩ := List.mem_map.1
    (show ("S", some "y") ∈ f.stories.map (fun e => (e.1, e.2.name)) from
      beq_iff_eq.1 hstories ▸ List.mem_cons_self)
  obtain ⟨rfl, hname⟩ := Prod.mk.inj heq
  refine ⟨f, story, hsource.trans hread, hstory, hname, fun initial => ?_⟩
  rw [hmodule, Module.execute_eq]
  rfl

end StoryFile

end StoryRegistry
