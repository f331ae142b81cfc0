import StoryRegistry.Proofs.Naming
import StoryRegistry.Proofs.Table
import StoryRegistry.Story.Reading

/-!
# What an outline collects

Each statement contributes to the parts of an outline: variables, functions, exports, assignments
and defaults. The outline of a module is made of the contributions of its statements, each part from
the contributions to that part alone (`ofModule_eq`). Of two variables with one name the first is
found, and of two defaults the later one counts. The story file that an outline gives derives its
dependencies and the name of its component from its other parts (`StoryFile.derived_of_ofSource`).
-/

set_option autoImplicit false

namespace StoryRegistry

open StoryRegistry.Script

/-! ## Contributions -/

namespace Script.Form

/-- The variables that a statement declares. -/
def bound : Form → Table Expr
  | .bindings _ declared => declared
  | _ => []

/-- The functions that a statement declares. -/
def functions : Form → Table String
  | .function _ name text => [(name, text)]
  | _ => []

/-- The names that a statement exports, each with the local name behind it; the default is none of
them. -/
def exported : Form → List (String × String)
  | .bindings true declared => declared.map fun (name, _) => (name, name)
  | .function true name _ => [(name, name)]
  | .exports names => names.filter fun (exported, _) => exported != "default"
  | _ => []

/-- The fields that a statement assigns, each with its variable and value. -/
def assignments : Form → List (String × String × Expr)
  | .assignment target field value => [(target, field, value)]
  | _ => []

/-- The values that a statement exports as the default. -/
def defaultValues : Form → List Expr
  | .defaultExport e => [e]
  | _ => []

/-- The local names that a statement exports as the default. -/
def defaultNames : Form → List String
  | .exports names => (names.filter fun (exported, _) => exported == "default").map Prod.snd
  | _ => []

end Script.Form

/-- What the statements of a module contribute to a part of its outline. -/
def Script.Module.contributed {β : Type} (m : Module) (part : Form → List β) : List β :=
  m.flatMap fun s => part s.form

section

variable {β : Type} (part : Form → List β)

@[simp] theorem Script.Module.contributed_nil : Module.contributed [] part = [] := rfl

@[simp] theorem Script.Module.contributed_cons (s : Statement) (m : Module) :
    Module.contributed (s :: m) part = part s.form ++ m.contributed part := rfl

@[simp] theorem Script.Module.contributed_append (m more : Module) :
    Module.contributed (m ++ more) part = m.contributed part ++ more.contributed part :=
  List.flatMap_append

/-- Statements contribute nothing together if each of them contributes nothing. -/
theorem Script.Module.contributed_eq_nil {m : Module} (h : ∀ s ∈ m, part s.form = []) :
    m.contributed part = [] :=
  List.flatMap_eq_nil_iff.2 h

end

namespace Outline

variable {α : Type}

/-- Declares a name, unless it was declared before. -/
def declare (t : Table α) (entry : String × α) : Table α := Table.setNew entry.1 entry.2 t

/-- Assigns a field of a variable. -/
def assign (t : Table (Table Expr)) (a : String × String × Expr) : Table (Table Expr) :=
  Table.set a.1 (Table.set a.2.1 a.2.2 ((Table.get? a.1 t).getD [])) t

/-- The later of two defaults. -/
def later (_ : Option α) (a : α) : Option α := some a

theorem foldl_exportName (names : List (String × String)) (o : Outline) :
    names.foldl (fun o (exported, name) => o.exportName exported name) o =
      { o with
        exported := o.exported ++ (Form.exports names).exported
        defaultName := (Form.exports names).defaultNames.foldl later o.defaultName } := by
  induction names generalizing o with
  | nil => simp [Form.exported, Form.defaultNames]
  | cons head rest ih =>
    obtain ⟨exported, name⟩ := head
    rw [List.foldl_cons, ih]
    by_cases hdefault : exported = "default"
    · simp [exportName, Form.exported, Form.defaultNames, hdefault, later]
    · simp [exportName, Form.exported, Form.defaultNames, hdefault]

/-- A statement adds what it contributes. -/
theorem add_eq (o : Outline) (form : Form) :
    o.add form = {
      bindings := form.bound.foldl declare o.bindings
      functions := form.functions.foldl declare o.functions
      exported := o.exported ++ form.exported
      defaultValue := form.defaultValues.foldl later o.defaultValue
      defaultName := form.defaultNames.foldl later o.defaultName
      assignments := form.assignments.foldl assign o.assignments } := by
  cases form with
  | bindings isExported declared =>
    cases isExported with
    | false => simp only [Form.exported, List.append_nil]; rfl
    | true => rfl
  | function isExported name text =>
    cases isExported with
    | false => simp only [Form.exported, List.append_nil]; rfl
    | true => rfl
  | exports names => exact foldl_exportName names o
  | _ => simp only [Form.exported, List.append_nil]; rfl

theorem foldl_add (m : Module) (o : Outline) :
    m.foldl (fun o s => o.add s.form) o = {
      bindings := (m.contributed Form.bound).foldl declare o.bindings
      functions := (m.contributed Form.functions).foldl declare o.functions
      exported := o.exported ++ m.contributed Form.exported
      defaultValue := (m.contributed Form.defaultValues).foldl later o.defaultValue
      defaultName := (m.contributed Form.defaultNames).foldl later o.defaultName
      assignments := (m.contributed Form.assignments).foldl assign o.assignments } := by
  induction m generalizing o with
  | nil => simp
  | cons s rest ih =>
    rw [List.foldl_cons, ih, add_eq]
    simp only [Module.contributed_cons, List.foldl_append, List.append_assoc]

/-- The outline of a module, part by part. -/
theorem ofModule_eq (m : Module) :
    ofModule m = {
      bindings := (m.contributed Form.bound).foldl declare []
      functions := (m.contributed Form.functions).foldl declare []
      exported := m.contributed Form.exported
      defaultValue := (m.contributed Form.defaultValues).foldl later none
      defaultName := (m.contributed Form.defaultNames).foldl later none
      assignments := (m.contributed Form.assignments).foldl assign [] } :=
  foldl_add m {}

/-! ## What is found -/

/-- Among declared names the first is found. -/
theorem get?_foldl_declare (name : String) (entries t : Table α) :
    Table.get? name (entries.foldl declare t) =
      (Table.get? name t).or (Table.get? name entries) := by
  induction entries generalizing t with
  | nil => simp [Table.get?]
  | cons head rest ih =>
    rw [List.foldl_cons, ih, declare, Table.get?_setNew, Option.or_assoc, ← Table.get?_append]
    rfl

/-! ## Stories -/

/-- The exports that are stories, with what is known of them; `held` is the variable that holds the
meta. -/
def listed (o : Outline) (held : Option String) : List (String × Story) :=
  (o.exported.filter fun entry => held != some entry.2).filterMap fun entry =>
    (o.story? entry.2).map fun story => (entry.1, story)

/-- The stories are those listed, the last one under each name. -/
theorem stories_eq (o : Outline) (held : Option String) :
    o.stories held = Table.ofList (o.listed held) := by
  unfold stories listed Table.ofList
  generalize ([] : Table Story) = t
  generalize o.exported = exported
  induction exported generalizing t with
  | nil => rfl
  | cons head rest ih =>
    rw [List.foldl_cons, ih]
    by_cases hheld : held = some head.2
    · simp [hheld]
    · cases hstory : o.story? head.2 <;> simp [hheld, hstory]

/-- A story is behind an export under its name, of a variable that does not hold the meta. -/
theorem exists_of_mem_stories {o : Outline} {held : Option String} {name : String} {story : Story}
    (h : (name, story) ∈ o.stories held) :
    ∃ variableName, (name, variableName) ∈ o.exported ∧ held ≠ some variableName ∧
      o.story? variableName = some story := by
  rw [stories_eq] at h
  obtain ⟨⟨exported, variableName⟩, hentry, hmade⟩ :=
    List.mem_filterMap.1 (Table.mem_of_mem_ofList h)
  obtain ⟨hexported, hheld⟩ := List.mem_filter.1 hentry
  obtain ⟨found, hfound, heq⟩ := Option.map_eq_some_iff.1 hmade
  cases heq
  exact ⟨variableName, hexported, by simpa using hheld, hfound⟩

/-- The meta is an object of the module. -/
theorem exists_of_meta? {o : Outline} {entries : Table Value} {held : Option String}
    (h : o.meta? = some (entries, held)) : ∃ e : Expr, e.objectEntries? = some entries := by
  unfold meta? at h
  split at h
  · cases h
  · split at h
    · rename_i found hvalue
      cases h
      obtain ⟨e, -, he⟩ := Option.bind_eq_some_iff.1 hvalue
      exact ⟨e, he⟩
    · simp only [Option.orElse_eq_orElse, Option.orElse_eq_or] at h
      rcases Option.or_eq_some_iff.1 h with hreferred | ⟨-, hlikely⟩
      · obtain ⟨name, -, hreferred⟩ := Option.bind_eq_some_iff.1 hreferred
        obtain ⟨found, hobject, heq⟩ := Option.bind_eq_some_iff.1 hreferred
        cases heq
        obtain ⟨e, -, he⟩ := Option.bind_eq_some_iff.1 hobject
        exact ⟨e, he⟩
      · obtain ⟨⟨found, name⟩, hfound, heq⟩ := Option.map_eq_some_iff.1 hlikely
        cases heq
        obtain ⟨⟨key, e⟩, -, he⟩ := List.exists_of_findSome?_eq_some hfound
        dsimp only at he
        split at he
        · obtain ⟨read, hread, heq⟩ := Option.map_eq_some_iff.1 he
          cases heq
          exact ⟨e, hread⟩
        · cases he

end Outline

/-! ## Story files -/

/-- What makes up a story file that an outline gives. -/
theorem StoryFile.parts_of_ofOutline {path : String} {imports : List String} {o : Outline}
    {f : StoryFile} (h : ofOutline path imports o = .ok f) :
    f.path = Path.normalize path ∧ ∃ entries held, o.meta? = some (entries, held) ∧
      f.metadata = Meta.ofEntries entries ∧ f.stories = o.stories held := by
  unfold ofOutline at h
  split at h
  · cases h
  · rename_i entries held hmeta
    dsimp only at h
    split at h
    · cases h
    · cases h
      exact ⟨rfl, entries, held, hmeta, rfl, rfl⟩

/-- What a story file that was read derives from its other parts: the dependencies from the imports, and
the component's name from the reference in the meta. -/
theorem StoryFile.derived_of_ofSource {path source : String} {f : StoryFile}
    (h : ofSource path source = .ok f) :
    f.dependencies = Specifier.ofComponent f.imports ∧
      f.componentName = if f.metadata.component.isNull then ""
        else (Story.componentName? f.metadata.component).getD Story.unknownComponent := by
  unfold ofSource ofOutline at h
  dsimp only at h
  split at h
  · cases h
  · split at h
    · cases h
    · cases h
      exact ⟨rfl, rfl⟩

/-- A story file that was read names no component if its meta has no reference to one; otherwise the
component has a name that was guessed. -/
theorem StoryFile.componentName_cases {path source : String} {f : StoryFile}
    (h : ofSource path source = .ok f) :
    f.metadata.component.isNull = true ∧ f.componentName = "" ∨
      f.metadata.component.isNull = false ∧ IsComponentName f.componentName := by
  rw [(derived_of_ofSource h).2]
  cases f.metadata.component.isNull with
  | true => exact .inl ⟨rfl, if_pos rfl⟩
  | false =>
    refine .inr ⟨rfl, ?_⟩
    rw [if_neg Bool.false_ne_true]
    -- a reference without a name of its own goes by the name of unknown components
    cases hname : Story.componentName? f.metadata.component with
    | none => exact Story.isComponentName_unknownComponent
    | some name => exact Story.isComponentName_of_componentName? hname

end StoryRegistry
