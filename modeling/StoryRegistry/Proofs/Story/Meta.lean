import StoryRegistry.Proofs.Script.Equality
import StoryRegistry.Proofs.Step
import StoryRegistry.Proofs.Story.Outline

/-!
# Ways to export the meta

The meta of a story file is an object that can be exported as the default directly, or through a
variable that is exported as the default in a statement of its own. The object, the name of the
variable and the initial values of stories can stand inside wrappers (`Expr.Wraps`).

Wrappers do not matter because an outline is only asked for what is inside them
(`ofOutline_peeled`), so that two modules come to the same if they do without wrappers. Without
wrappers, the outlines of the direct form and of the form with a variable differ in that variable
and in the default only; both forms find the same entries, and the variable is passed over among the
stories (`ofOutline_variable`).
-/

set_option autoImplicit false

namespace StoryRegistry

open StoryRegistry.Script

/-! ## Wrappers -/

namespace Script

/-- The expression `e` is `inner` inside any number of wrappers. -/
inductive Expr.Wraps (inner : Expr) : Expr → Prop where
  | refl : Wraps inner inner
  | wrap {e : Expr} (text : String) (h : Wraps inner e) : Wraps inner (.wrapped text e)

theorem Expr.Wraps.peel_eq {inner e : Expr} (h : Wraps inner e) : e.peel = inner.peel := by
  induction h with
  | refl => rfl
  | wrap text h ih => exact ih

@[simp] theorem Expr.peel_peel (e : Expr) : e.peel.peel = e.peel := by
  induction e using Expr.peel.induct with
  | case1 text inner ih => exact ih
  | case2 e hplain =>
    have hself : e.peel = e := by
      rw [Expr.peel]
      exact hplain
    rw [hself, hself]

/-- The statement with wrappers around initial values and around the default. -/
inductive Form.Wraps : Form → Form → Prop where
  | bindings (exported : Bool) {declared wrapped : List (String × Expr)}
      (h : List.Forall₂ (fun a b => a.1 = b.1 ∧ a.2.Wraps b.2) declared wrapped) :
      Wraps (.bindings exported declared) (.bindings exported wrapped)
  | defaultExport {inner e : Expr} (h : inner.Wraps e) :
      Wraps (.defaultExport inner) (.defaultExport e)
  | same (form : Form) : Wraps form form

/-- The module with wrappers that hold no imports. -/
def Module.Wraps (m wrapped : Module) : Prop :=
  List.Forall₂ (fun s t => s.imports = t.imports ∧ s.form.Wraps t.form) m wrapped

/-- The statement without wrappers around initial values and around the default. -/
def Form.peeled : Form → Form
  | .bindings exported declared => .bindings exported (Table.mapEntries Expr.peel declared)
  | .defaultExport e => .defaultExport e.peel
  | form => form

def Module.peeled (m : Module) : Module := m.map fun s => { s with form := s.form.peeled }

theorem Form.Wraps.peeled_eq {form wrapped : Form} (h : form.Wraps wrapped) :
    wrapped.peeled = form.peeled := by
  cases h with
  | bindings exported h =>
    have hentries : ∀ {declared wrapped : List (String × Expr)},
        List.Forall₂ (fun a b => a.1 = b.1 ∧ a.2.Wraps b.2) declared wrapped →
          Table.mapEntries Expr.peel wrapped = Table.mapEntries Expr.peel declared := by
      intro declared wrapped h
      induction h with
      | nil => rfl
      | cons hhead _ ih =>
        simp only [Table.mapEntries, List.map_cons] at ih ⊢
        rw [ih, hhead.1, hhead.2.peel_eq]
    simp only [Form.peeled, hentries h]
  | defaultExport h => simp only [Form.peeled, h.peel_eq]
  | same form => rfl

theorem Module.Wraps.peeled_eq {m wrapped : Module} (h : m.Wraps wrapped) :
    wrapped.peeled = m.peeled := by
  induction h with
  | nil => rfl
  | cons hhead _ ih =>
    simp only [Module.peeled, List.map_cons] at ih ⊢
    rw [ih, hhead.2.peeled_eq, hhead.1]

theorem Module.Wraps.imports_eq {m wrapped : Module} (h : m.Wraps wrapped) :
    wrapped.imports = m.imports := by
  induction h with
  | nil => rfl
  | cons hhead _ ih =>
    simp only [Module.imports, List.flatMap_cons] at ih ⊢
    rw [ih, hhead.1]

end Script

/-! ## Outlines without wrappers -/

theorem Script.Expr.objectEntries?_peel (e : Expr) : e.peel.objectEntries? = e.objectEntries? := by
  simp only [Expr.objectEntries?, Expr.peel_peel]

namespace Outline

/-- The outline without wrappers around initial values and around the default. -/
def peeled (o : Outline) : Outline :=
  { o with
    bindings := Table.mapEntries Expr.peel o.bindings
    defaultValue := o.defaultValue.map Expr.peel }

theorem objectIn?_peeled (o : Outline) (name : String) :
    o.peeled.objectIn? name = o.objectIn? name := by
  simp only [objectIn?, peeled, Table.get?_mapEntries, Option.bind_map]
  congr 1
  funext e
  exact e.objectEntries?_peel

theorem likelyMeta?_peeled (o : Outline) : o.peeled.likelyMeta? = o.likelyMeta? := by
  simp only [likelyMeta?, peeled, Table.mapEntries, List.findSome?_map, Function.comp_def,
    Expr.objectEntries?_peel]

theorem meta?_peeled (o : Outline) : o.peeled.meta? = o.meta? := by
  have hdefault : o.peeled.hasDefault = o.hasDefault := by
    simp only [hasDefault, peeled, Option.isSome_map]
  have hvalue : o.peeled.defaultValue.bind Expr.objectEntries? =
      o.defaultValue.bind Expr.objectEntries? := by
    simp only [peeled, Option.bind_map]
    congr 1
    funext e
    exact e.objectEntries?_peel
  have hname : o.peeled.referredName? = o.referredName? := by
    simp only [referredName?, peeled]
    cases o.defaultValue with
    | none => rfl
    | some e => simp only [Option.map_some, Expr.peel_peel]
  simp only [meta?, hdefault, hvalue, hname, objectIn?_peeled, likelyMeta?_peeled]

theorem story?_peeled (o : Outline) (name : String) : o.peeled.story? name = o.story? name := by
  have hpeel : (Table.get? name o.peeled.bindings).map Expr.peel =
      (Table.get? name o.bindings).map Expr.peel := by
    simp only [peeled, Table.get?_mapEntries, Option.map_map]
    congr 1
    funext e
    exact e.peel_peel
  simp only [story?, initialStory?, hpeel]
  rfl

theorem stories_peeled (o : Outline) (held : Option String) :
    o.peeled.stories held = o.stories held := by
  simp only [stories, story?_peeled]
  rfl

theorem foldl_declare_mapEntries {α β : Type} (f : α → β) (entries t : Table α) :
    (Table.mapEntries f entries).foldl declare (Table.mapEntries f t) =
      Table.mapEntries f (entries.foldl declare t) := by
  induction entries generalizing t with
  | nil => rfl
  | cons head rest ih =>
    have hstep : declare (Table.mapEntries f t) (head.1, f head.2) =
        Table.mapEntries f (declare t head) := by
      have hhas : Table.has head.1 (Table.mapEntries f t) = Table.has head.1 t := by
        rw [Table.has, Table.get?_mapEntries, Option.isSome_map, Table.has]
      unfold declare Table.setNew
      rw [hhas]
      cases Table.has head.1 t with
      | true => rfl
      | false => simp [Table.mapEntries]
    have hcons : Table.mapEntries f (head :: rest) = (head.1, f head.2) :: Table.mapEntries f rest :=
      rfl
    rw [hcons, List.foldl_cons, hstep, ih, List.foldl_cons]

theorem add_peeled (o : Outline) (form : Form) :
    o.peeled.add form.peeled = (o.add form).peeled := by
  rw [add_eq, add_eq]
  cases form with
  | bindings exported declared =>
    have hnames : (Form.bindings exported (Table.mapEntries Expr.peel declared)).exported =
        (Form.bindings exported declared).exported := by
      cases exported
      · rfl
      · simp [Form.exported, Table.mapEntries]
    simp only [Form.peeled, hnames]
    simp only [peeled, Form.bound, foldl_declare_mapEntries]
    rfl
  | defaultExport e => rfl
  | _ => rfl

/-- The outline of a module without wrappers is its outline without wrappers. -/
theorem ofModule_peeled (m : Module) : ofModule m.peeled = (ofModule m).peeled := by
  have hall (o : Outline) : m.peeled.foldl (fun o s => o.add s.form) o.peeled =
      (m.foldl (fun o s => o.add s.form) o).peeled := by
    induction m generalizing o with
    | nil => rfl
    | cons s rest ih =>
      have hcons : Module.peeled (s :: rest) =
          { s with form := s.form.peeled } :: Module.peeled rest := rfl
      rw [hcons, List.foldl_cons, List.foldl_cons, add_peeled, ih]
  exact hall {}

end Outline

namespace StoryFile

/-- The story file of a module. -/
def ofModule (path : String) (m : Module) : Except Failure StoryFile :=
  ofOutline path m.imports (Outline.ofModule m)

/-- Wrappers do not matter for the story file of an outline. -/
theorem ofOutline_peeled (path : String) (imports : List String) (o : Outline) :
    ofOutline path imports o.peeled = ofOutline path imports o := by
  simp only [ofOutline, Outline.meta?_peeled, Outline.stories_peeled]

/-- A module comes to the same with wrappers around initial values and around the default. -/
theorem ofModule_of_wraps (path : String) {m wrapped : Module} (h : m.Wraps wrapped) :
    ofModule path wrapped = ofModule path m := by
  unfold ofModule
  rw [← ofOutline_peeled, ← ofOutline_peeled path m.imports, ← Outline.ofModule_peeled,
    ← Outline.ofModule_peeled, h.peeled_eq, h.imports_eq]

end StoryFile

/-! ## The variable that holds the meta -/

/-- The names that a statement brings up: those it declares, assigns to or exports. -/
def Script.Form.names : Form → List String
  | .bindings _ declared => Table.names declared
  | .function _ name _ => [name]
  | .assignment target _ _ => [target]
  | .exports names => names.flatMap fun (exported, name) => [exported, name]
  | _ => []

/-- The statement exports the variable `name` as the default, and nothing else. -/
inductive Script.Form.IsDefaultOf (name : String) : Form → Prop where
  | value : IsDefaultOf name (.defaultExport (.name name))
  | listed : IsDefaultOf name (.exports [("default", name)])

namespace Outline

variable {name : String} {text : String} {members : List (String × Expr)}

theorem names_of_bound {form : Form} (h : name ∉ form.names) : name ∉ Table.names form.bound := by
  cases form with
  | bindings exported declared => exact h
  | _ => exact List.not_mem_nil

theorem names_of_exported {form : Form} (h : name ∉ form.names) :
    ∀ entry ∈ form.exported, entry.1 ≠ name ∧ entry.2 ≠ name := by
  intro entry hentry
  cases form with
  | bindings exported declared =>
    cases exported with
    | false => cases hentry
    | true =>
      obtain ⟨declaration, hdeclared, rfl⟩ := List.mem_map.1 hentry
      have hne : declaration.1 ≠ name := fun heq => h (heq ▸ List.mem_map_of_mem hdeclared)
      exact ⟨hne, hne⟩
  | function exported declared source =>
    cases exported with
    | false => cases hentry
    | true =>
      rw [List.mem_singleton.1 hentry]
      have hne : declared ≠ name := fun heq => h (heq ▸ List.mem_singleton.2 rfl)
      exact ⟨hne, hne⟩
  | exports listed =>
    have hlisted := (List.mem_filter.1 hentry).1
    constructor
    · rintro rfl
      exact h (List.mem_flatMap.2 ⟨entry, hlisted, List.mem_cons_self⟩)
    · rintro rfl
      exact h (List.mem_flatMap.2 ⟨entry, hlisted, List.mem_cons_of_mem _ List.mem_cons_self⟩)
  | _ => cases hentry

/-- The outline `o` is like `direct`, where an object is exported as the default, but for the
variable `name`: it holds the object and is exported as the default instead. -/
structure HoldsMeta (name : String) (text : String) (members : List (String × Expr))
    (direct o : Outline) : Prop where
  value : direct.defaultValue = some (.object text members)
  own : Table.get? name o.bindings = some (.object text members)
  noObject : o.defaultValue.bind Expr.objectEntries? = none
  hasDefault : o.hasDefault = true
  refers : o.referredName? = some name
  others : ∀ other, other ≠ name →
    Table.get? other o.bindings = Table.get? other direct.bindings
  functions : o.functions = direct.functions
  assignments : o.assignments = direct.assignments
  exported : (o.exported.filter fun entry => some name != some entry.2) = direct.exported

namespace HoldsMeta

variable {direct o : Outline}

/-- Both outlines give the entries of the object. -/
theorem meta?_eq (h : HoldsMeta name text members direct o) : ∃ entries,
    direct.meta? = some (entries, none) ∧ o.meta? = some (entries, some name) := by
  have hobject : (Expr.object text members).objectEntries? =
      some (Table.ofList (Expr.entries members)) := by
    simp [Expr.objectEntries?, Expr.peel, Expr.value, Value.asMap?]
  refine ⟨Table.ofList (Expr.entries members), ?_, ?_⟩
  · unfold meta? Outline.hasDefault
    rw [h.value]
    simp [hobject]
  · unfold meta?
    rw [h.hasDefault, h.noObject, h.refers]
    simp [objectIn?, h.own, hobject]

/-- Away from the variable, both outlines have the same stories. -/
theorem story?_eq (h : HoldsMeta name text members direct o) {other : String}
    (hne : other ≠ name) : o.story? other = direct.story? other := by
  unfold story? initialStory? assigned
  rw [h.others other hne, h.functions, h.assignments]

/-- The variable is passed over among the stories. -/
theorem stories_eq (h : HoldsMeta name text members direct o) :
    o.stories (some name) = direct.stories none := by
  rw [Outline.stories_eq, Outline.stories_eq]
  have hall : (direct.exported.filter fun entry => none != some entry.2) = direct.exported :=
    List.filter_eq_self.2 fun _ _ => rfl
  unfold listed
  rw [h.exported, hall]
  congr 1
  apply List.filterMap_congr
  intro entry hentry
  rw [← h.exported] at hentry
  have hne : entry.2 ≠ name := by
    intro heq
    have hkept := (List.mem_filter.1 hentry).2
    simp [heq] at hkept
  rw [h.story?_eq hne]

/-- Both outlines come to the same story file. -/
theorem ofOutline_eq (h : HoldsMeta name text members direct o) (path : String)
    (imports : List String) :
    StoryFile.ofOutline path imports o = StoryFile.ofOutline path imports direct := by
  obtain ⟨entries, hdirect, hheld⟩ := h.meta?_eq
  unfold StoryFile.ofOutline
  rw [hdirect, hheld]
  simp only [h.stories_eq]

end HoldsMeta

/-! ## Modules -/

variable {before after first second : Module} {imports : List String} {exported : Bool}
  {d : Form}

/-- A statement that contributes nothing does not matter, wherever it stands. -/
theorem contributed_added {β : Type} {part : Form → List β} (hd : part d = [])
    (hsplit : first ++ second =
      before ++ ⟨.bindings exported [(name, .object text members)], imports⟩ :: after) :
    Module.contributed (first ++ ⟨d, []⟩ :: second) part =
      before.contributed part ++
        (part (.bindings exported [(name, .object text members)]) ++ after.contributed part) := by
  calc Module.contributed (first ++ ⟨d, []⟩ :: second) part
      = Module.contributed (first ++ second) part := by simp [hd]
    _ = _ := by simp [hsplit]

/-- Where no other statement has a default, the default is that of the statement told apart. -/
theorem default_ofModule {s : Statement}
    (hothers : ∀ t ∈ first ++ second, t.form.defaultValues = [] ∧ t.form.defaultNames = []) :
    (ofModule (first ++ s :: second)).defaultValue = s.form.defaultValues.foldl later none ∧
      (ofModule (first ++ s :: second)).defaultName = s.form.defaultNames.foldl later none := by
  have hfirst := Module.contributed_eq_nil Form.defaultValues fun t ht =>
    (hothers t (List.mem_append_left second ht)).1
  have hsecond := Module.contributed_eq_nil Form.defaultValues fun t ht =>
    (hothers t (List.mem_append_right first ht)).1
  have hfirst' := Module.contributed_eq_nil Form.defaultNames fun t ht =>
    (hothers t (List.mem_append_left second ht)).2
  have hsecond' := Module.contributed_eq_nil Form.defaultNames fun t ht =>
    (hothers t (List.mem_append_right first ht)).2
  rw [ofModule_eq]
  simp [hfirst, hsecond, hfirst', hsecond']

/-- An object in a variable that is exported as the default is held by that variable, compared with
the module that exports the object itself. -/
theorem holdsMeta_ofModule (hd : d.IsDefaultOf name)
    (hsplit : first ++ second =
      before ++ ⟨.bindings exported [(name, .object text members)], imports⟩ :: after)
    (hdefault : ∀ s ∈ before ++ after, s.form.defaultValues = [] ∧ s.form.defaultNames = [])
    (hfresh : ∀ s ∈ before ++ after, name ∉ s.form.names) :
    HoldsMeta name text members
      (ofModule (before ++ ⟨.defaultExport (.object text members), imports⟩ :: after))
      (ofModule (first ++ ⟨d, []⟩ :: second)) := by
  have hnodeclared : d.bound = [] ∧ d.functions = [] ∧ d.assignments = [] ∧ d.exported = [] := by
    cases hd <;> exact ⟨rfl, rfl, rfl, rfl⟩
  obtain ⟨hbound, hfunctions, hassignments, hexported⟩ := hnodeclared
  have hheld := ofModule_eq (first ++ ⟨d, []⟩ :: second)
  have hdirect := ofModule_eq
    (before ++ ⟨.defaultExport (.object text members), imports⟩ :: after)
  have hbefore : ∀ s ∈ before, s ∈ before ++ after := fun s hs => List.mem_append_left _ hs
  have hafter : ∀ s ∈ after, s ∈ before ++ after := fun s hs => List.mem_append_right _ hs
  have hothers : ∀ s ∈ first ++ second, s.form.defaultValues = [] ∧ s.form.defaultNames = [] := by
    intro s hs
    rw [hsplit] at hs
    rcases List.mem_append.1 hs with hs | hs
    · exact hdefault s (hbefore s hs)
    · rcases List.mem_cons.1 hs with rfl | hs
      · exact ⟨rfl, rfl⟩
      · exact hdefault s (hafter s hs)
  obtain ⟨hvalue, hlisted⟩ := default_ofModule (s := ⟨d, []⟩) hothers
  refine ⟨?_, ?_, ?_, ?_, ?_, ?_, ?_, ?_, ?_⟩
  · exact (default_ofModule hdefault).1
  · have hnone : Table.get? name (before.contributed Form.bound) = none := by
      apply Table.get?_eq_none_iff.2
      intro hmem
      obtain ⟨entry, hentry, rfl⟩ := List.mem_map.1 hmem
      obtain ⟨s, hs, hin⟩ := List.mem_flatMap.1 hentry
      exact names_of_bound (hfresh s (hbefore s hs)) (List.mem_map_of_mem hin)
    rw [hheld, contributed_added hbound hsplit, get?_foldl_declare]
    simp [Form.bound, Table.get?_append, hnone, Table.get?]
  · rw [hvalue]
    cases hd <;> simp [Form.defaultValues, later, Expr.objectEntries?, Expr.peel]
  · unfold Outline.hasDefault
    rw [hvalue, hlisted]
    cases hd <;> simp [Form.defaultValues, Form.defaultNames, later]
  · unfold referredName?
    rw [hvalue, hlisted]
    cases hd <;> simp [Form.defaultValues, Form.defaultNames, later, Expr.peel]
  · intro other hne
    rw [hheld, hdirect, contributed_added hbound hsplit, get?_foldl_declare, get?_foldl_declare]
    simp [Form.bound, Table.get?_append, Table.get?, hne.symm]
  · rw [hheld, hdirect, contributed_added hfunctions hsplit]
    simp [Form.functions]
  · rw [hheld, hdirect, contributed_added hassignments hsplit]
    simp [Form.assignments]
  · have hkept {m : Module} (hm : ∀ s ∈ m, s ∈ before ++ after) :
        ((m.contributed Form.exported).filter fun entry => some name != some entry.2) =
          m.contributed Form.exported := by
      apply List.filter_eq_self.2
      intro entry hentry
      obtain ⟨s, hs, hin⟩ := List.mem_flatMap.1 hentry
      have hne := (names_of_exported (hfresh s (hm s hs)) entry hin).2
      simpa using hne.symm
    rw [hheld, hdirect, contributed_added hexported hsplit]
    simp only [List.filter_append, hkept hbefore, hkept hafter]
    cases exported <;> simp [Form.exported]

end Outline

/-! ## Story files -/

section

variable {text : String} {members : List (String × Expr)} {imports : List String}
  {before after : Module}

/-- The module exports an object as the default, among the statements before and after it: directly,
or through a variable that stands in its place, with a further statement anywhere that exports the
variable. The name is that of the variable. -/
inductive Script.Module.ExportsMeta (text : String) (members : List (String × Expr))
    (imports : List String) (before after : Module) : Option String → Module → Prop where
  | direct : ExportsMeta text members imports before after none
      (before ++ ⟨.defaultExport (.object text members), imports⟩ :: after)
  | through (name : String) (exported : Bool) (d : Form) (first second : Module)
      (hd : d.IsDefaultOf name)
      (hsplit : first ++ second =
        before ++ ⟨.bindings exported [(name, .object text members)], imports⟩ :: after) :
      ExportsMeta text members imports before after (some name) (first ++ ⟨d, []⟩ :: second)

/-- Every way to export the meta comes to the same as the direct one. -/
theorem StoryFile.ofModule_of_exportsMeta {held : Option String} {m : Module} (path : String)
    (hdefault : ∀ s ∈ before ++ after, s.form.defaultValues = [] ∧ s.form.defaultNames = [])
    (hfresh : ∀ name ∈ held, ∀ s ∈ before ++ after, name ∉ s.form.names)
    (hm : Module.ExportsMeta text members imports before after held m) :
    ofModule path m =
      ofModule path (before ++ ⟨.defaultExport (.object text members), imports⟩ :: after) := by
  cases hm with
  | direct => rfl
  | through name exported d first second hd hsplit =>
    have hholds := Outline.holdsMeta_ofModule hd hsplit hdefault (hfresh name rfl)
    have himports : Module.imports (first ++ ⟨d, []⟩ :: second) = Module.imports
        (before ++ ⟨.defaultExport (.object text members), imports⟩ :: after) := by
      calc Module.imports (first ++ ⟨d, []⟩ :: second)
          = Module.imports (first ++ second) := by simp [Module.imports]
        _ = _ := by simp [hsplit, Module.imports]
    unfold ofModule
    rw [hholds.ofOutline_eq, himports]

/-- A name that no statement around the meta brings up is that of no story. -/
theorem StoryFile.not_story_of_fresh {path name : String} {f : StoryFile}
    (hfresh : ∀ s ∈ before ++ after, name ∉ s.form.names)
    (h : ofModule path (before ++ ⟨.defaultExport (.object text members), imports⟩ :: after) =
      .ok f) : name ∉ Table.names f.stories := by
  intro hmem
  obtain ⟨⟨key, story⟩, hstory, hkey⟩ := List.mem_map.1 hmem
  obtain rfl : name = key := hkey.symm
  obtain ⟨-, entries, held, -, -, hstories⟩ := parts_of_ofOutline h
  rw [hstories] at hstory
  obtain ⟨variableName, hexported, -, -⟩ := Outline.exists_of_mem_stories hstory
  rw [Outline.ofModule_eq] at hexported
  have hentry : (name, variableName) ∈ Module.contributed (before ++ after) Form.exported := by
    simpa [Form.exported] using hexported
  obtain ⟨s, hs, hin⟩ := List.mem_flatMap.1 hentry
  exact (Outline.names_of_exported (hfresh s hs) _ hin).1 rfl

end

/-- The ways to export the meta come to the same story file: of two texts that export one object as
the default among the same statements, each directly or through a variable of its own, and each with
any wrappers around the object, the variable's name and initial values, both are read alike, and
neither variable is a story. -/
theorem StoryFile.ofSource_of_exportsMeta {path source other : String} {text : String}
    {members : List (String × Expr)} {imports : List String} {before after m m' : Module}
    {held held' : Option String}
    (hdefault : ∀ s ∈ before ++ after, s.form.defaultValues = [] ∧ s.form.defaultNames = [])
    (hfresh : ∀ name, name ∈ held ∨ name ∈ held' → ∀ s ∈ before ++ after, name ∉ s.form.names)
    (hm : Module.ExportsMeta text members imports before after held m)
    (hsource : m.Wraps (Module.ofFile path source))
    (hm' : Module.ExportsMeta text members imports before after held' m')
    (hother : m'.Wraps (Module.ofFile path other)) :
    ofSource path other = ofSource path source ∧
      ∀ f, ofSource path source = .ok f →
        ∀ name, name ∈ held ∨ name ∈ held' → name ∉ Table.names f.stories := by
  have hdirect := (ofModule_of_wraps path hsource).trans
    (ofModule_of_exportsMeta path hdefault (fun name hname => hfresh name (Or.inl hname)) hm)
  have hdirect' := (ofModule_of_wraps path hother).trans
    (ofModule_of_exportsMeta path hdefault (fun name hname => hfresh name (Or.inr hname)) hm')
  constructor
  · exact hdirect'.trans hdirect.symm
  · intro f hf name hname
    exact not_story_of_fresh (hfresh name hname) (hdirect.symm.trans hf)

/-! ## One meta in two texts -/

/-- A story file that exports its meta directly. -/
def directStory : String := "export default\x7bcomponent:A\x7d;export const S=\x7b\x7d"

/-- The same story file with its meta in a variable, and with wrappers around meta and story. -/
def wrappedStory : String :=
  "const m=(\x7bcomponent:A\x7d)as M;export\x7bm as default\x7d;export const S=(\x7b\x7d)!"

/-- Both texts are read as the same story file, in which the variable of the meta is no story. -/
theorem StoryFile.ofSource_wrappedStory :
    ∃ f, ofSource "a.ts" directStory = .ok f ∧ ofSource "a.ts" wrappedStory = .ok f ∧
      "m" ∉ Table.names f.stories := by
  let object : Expr := .object "\x7bcomponent:A\x7d" [("component", .name "A")]
  let story : Statement := ⟨.bindings true [("S", .object "\x7b\x7d" [])], []⟩
  have hdirect : Module.ofFile "a.ts" directStory = [⟨.defaultExport object, []⟩, story] := by
    decide +kernel
  have hwrapped : Module.ofFile "a.ts" wrappedStory =
      [⟨.bindings false [("m", .wrapped "(\x7bcomponent:A\x7d)as M"
          (.wrapped "(\x7bcomponent:A\x7d)" object))], []⟩,
        ⟨.exports [("default", "m")], []⟩,
        ⟨.bindings true [("S", .wrapped "(\x7b\x7d)!"
          (.wrapped "(\x7b\x7d)" (.object "\x7b\x7d" [])))], []⟩] := by
    decide +kernel
  have hread : (ofSource "a.ts" directStory).toOption.any (fun _ => true) = true := by
    decide +kernel
  obtain ⟨f, hf, -⟩ := exists_ok_of_any hread
  have hsource : Module.Wraps [⟨.defaultExport object, []⟩, story]
      (Module.ofFile "a.ts" directStory) := by
    rw [hdirect]
    exact .cons ⟨rfl, .same _⟩ (.cons ⟨rfl, .same _⟩ .nil)
  have hother : Module.Wraps
      [⟨.bindings false [("m", object)], []⟩, ⟨.exports [("default", "m")], []⟩, story]
      (Module.ofFile "a.ts" wrappedStory) := by
    rw [hwrapped]
    refine .cons ⟨rfl, .bindings _ ?_⟩ (.cons ⟨rfl, .same _⟩ (.cons ⟨rfl, .bindings _ ?_⟩ .nil))
    · exact .cons ⟨rfl, .wrap _ (.wrap _ .refl)⟩ .nil
    · exact .cons ⟨rfl, .wrap _ (.wrap _ .refl)⟩ .nil
  have hfresh : ∀ name, name ∈ (none : Option String) ∨ name ∈ some "m" →
      ∀ s ∈ [] ++ [story], name ∉ s.form.names := by
    intro name hname s hs
    have hm : name = "m" := by simpa [eq_comm] using hname
    rw [hm, List.mem_singleton.1 hs]
    decide
  have hm : Module.ExportsMeta "\x7bcomponent:A\x7d" [("component", .name "A")] [] [] [story] none
      [⟨.defaultExport object, []⟩, story] := .direct
  have hm' : Module.ExportsMeta "\x7bcomponent:A\x7d" [("component", .name "A")] [] [] [story]
      (some "m") [⟨.bindings false [("m", object)], []⟩, ⟨.exports [("default", "m")], []⟩, story] :=
    .through "m" false _ [⟨.bindings false [("m", object)], []⟩] [story] .listed rfl
  obtain ⟨heq, hstories⟩ := ofSource_of_exportsMeta (by decide) hfresh hm hsource hm' hother
  exact ⟨f, hf, heq.trans hf, hstories f hf "m" (Or.inr rfl)⟩

end StoryRegistry
