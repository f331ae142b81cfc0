import StoryRegistry.Analysis.Props
import StoryRegistry.Proofs.Step
import StoryRegistry.Proofs.Story.Outline

/-!
# Props from three sources

The props of a component are collected in one table, to which the args of the meta, the args of each
story and the declarations are added in turn. What each addition does to the table is said name by
name, and from that what the whole table holds under a name (`get?_propTable`) and in which order
(`names_propTable`). The props are then one for each name that is mentioned at all, each with the
first value that an arg shows and with what its declaration says (`props_merged`).
-/

set_option autoImplicit false

namespace StoryRegistry

/-! ## Adding what args show -/

namespace PropInfo

theorem names_addArgs {known : Table PropInfo} {mentioned : List String}
    (h : Table.names known = mentioned.eraseDups) (args : Table Value) :
    Table.names (addArgs known args) = (mentioned ++ Table.names args).eraseDups := by
  unfold addArgs
  induction args generalizing known mentioned with
  | nil => simpa [Table.names] using h
  | cons arg rest ih =>
    rw [List.foldl_cons, ih (Table.names_setNew h arg.1 _), List.append_assoc]
    rfl

/-- An arg makes a prop known that is not known yet. -/
theorem get?_addArgs (name : String) (args : Table Value) (known : Table PropInfo) :
    Table.get? name (addArgs known args) =
      (Table.get? name known).or ((Table.get? name args).map (ofArg name)) := by
  unfold addArgs
  induction args generalizing known with
  | nil => simp [Table.get?]
  | cons arg rest ih =>
    obtain ⟨key, value⟩ := arg
    rw [List.foldl_cons, ih, Table.get?_setNew, Option.or_assoc]
    by_cases heq : key = name
    · subst heq
      simp [Table.get?]
    · simp [Table.get?, heq]

/-! ## Adding declarations -/

/-- The prop of a name once a declaration was taken into account, given what was known before. -/
def declaredAs (name : String) (declaration : Value) : Option PropInfo → PropInfo
  | none => ofDeclaration name (declaration.asMap?.getD [])
  | some p => (declaration.asMap?.map p.describe).getD p

theorem names_addDeclaration {known : Table PropInfo} {mentioned : List String}
    (h : Table.names known = mentioned.eraseDups) (name : String) (declaration : Value) :
    Table.names (addDeclaration known name declaration) = (mentioned ++ [name]).eraseDups := by
  rw [Table.eraseDups_concat, ← h]
  unfold addDeclaration
  cases hget : Table.get? name known with
  | none =>
    have hnew : name ∉ mentioned := by
      rwa [Table.get?_eq_none_iff, h, List.mem_eraseDups] at hget
    simp [Table.names, hnew]
  | some p =>
    have hmem : name ∈ Table.names known := by
      by_contra hnot
      rw [Table.get?_eq_none_iff.2 hnot] at hget
      cases hget
    have hthere : name ∈ mentioned := by rwa [h, List.mem_eraseDups] at hmem
    rw [if_pos hthere]
    cases declaration <;> simp [Table.names_set, hmem]

theorem get?_addDeclaration_self (name : String) (declaration : Value) (known : Table PropInfo) :
    Table.get? name (addDeclaration known name declaration) =
      some (declaredAs name declaration (Table.get? name known)) := by
  unfold addDeclaration
  cases hget : Table.get? name known with
  | none => simp [Table.get?_append, hget, Table.get?, declaredAs]
  | some p => cases declaration <;> simp [hget, Table.get?_set_self, declaredAs, Value.asMap?]

/-- A declaration is about one prop only. -/
theorem get?_addDeclaration_of_ne {name other : String} (h : other ≠ name) (declaration : Value)
    (known : Table PropInfo) :
    Table.get? other (addDeclaration known name declaration) = Table.get? other known := by
  unfold addDeclaration
  cases hget : Table.get? name known with
  | none => simp [Table.get?_append, Table.get?, Ne.symm h]
  | some p => cases declaration <;> simp [Table.get?_set_of_ne h]

/-- Adds declarations one after another. -/
def addDeclarations (known : Table PropInfo) (declarations : Table Value) : Table PropInfo :=
  declarations.foldl (fun known (name, declaration) => addDeclaration known name declaration) known

theorem names_addDeclarations {known : Table PropInfo} {mentioned : List String}
    (h : Table.names known = mentioned.eraseDups) (declarations : Table Value) :
    Table.names (addDeclarations known declarations) =
      (mentioned ++ Table.names declarations).eraseDups := by
  unfold addDeclarations
  induction declarations generalizing known mentioned with
  | nil => simpa [Table.names] using h
  | cons d rest ih =>
    rw [List.foldl_cons, ih (names_addDeclaration h d.1 d.2), List.append_assoc]
    rfl

/-- Of declarations with different names the one of a prop's own name describes it. -/
theorem get?_addDeclarations (name : String) {declarations : Table Value}
    (hdistinct : (Table.names declarations).Nodup) (known : Table PropInfo) :
    Table.get? name (addDeclarations known declarations) =
      match Table.get? name declarations with
      | none => Table.get? name known
      | some declaration => some (declaredAs name declaration (Table.get? name known)) := by
  unfold addDeclarations
  induction declarations generalizing known with
  | nil => rfl
  | cons d rest ih =>
    obtain ⟨key, declaration⟩ := d
    obtain ⟨hnew, hrest⟩ := List.nodup_cons.1 hdistinct
    rw [List.foldl_cons, ih hrest]
    by_cases heq : key = name
    · subst heq
      rw [Table.get?_eq_none_iff.2 hnew, get?_addDeclaration_self]
      simp [Table.get?]
    · rw [get?_addDeclaration_of_ne (Ne.symm heq)]
      simp [Table.get?, heq]

end PropInfo

/-! ## Reading a declaration -/

/-- An entry is a text exactly if the map has that text under the name. -/
theorem Value.asString?_entry_eq_some_iff {name text : String} {entries : Table Value} :
    (Value.entry name entries).asString? = some text ↔
      Table.get? name entries = some (.string text) := by
  unfold Value.entry
  cases Table.get? name entries with
  | none => simp [Value.asString?]
  | some v => cases v <;> simp [Value.asString?]

namespace PropInfo

theorem declaredType?_eq_some_iff {declared : Table Value} {type : String} :
    declaredType? declared = some type ↔ type ≠ "" ∧
      (Table.get? "type" declared = some (.string type) ∨
        ∃ nested, Table.get? "type" declared = some (.map nested) ∧
          Table.get? "name" nested = some (.string type)) := by
  unfold declaredType?
  rw [show Value.entry "type" declared = (Table.get? "type" declared).getD .null from rfl]
  cases Table.get? "type" declared with
  | none => simp
  | some v =>
    cases v with
    | string s =>
      have hs : (if s.isEmpty = true then none else some s) = some type ↔ type ≠ "" ∧ s = type := by
        by_cases hempty : s = ""
        · simp [hempty]
        · rw [if_neg (by simpa using hempty), Option.some_inj]
          exact ⟨fun heq => ⟨heq ▸ hempty, heq⟩, And.right⟩
      simpa using hs
    | map nested =>
      simp [Option.filter_eq_some_iff, Value.asString?_entry_eq_some_iff, and_comm]
    | _ => simp

theorem isTrue_iff {name : String} {entries : Table Value} :
    isTrue name entries = true ↔ Table.get? name entries = some (.bool true) := by
  unfold isTrue Value.entry
  cases Table.get? name entries with
  | none => simp
  | some v => cases v <;> simp

theorem declaredRequired_iff {declared : Table Value} :
    declaredRequired declared = true ↔
      Table.get? "required" declared = some (.bool true) ∨
        ∃ nested, Table.get? "type" declared = some (.map nested) ∧
          Table.get? "required" nested = some (.bool true) := by
  unfold declaredRequired
  rw [Bool.or_eq_true, isTrue_iff,
    show Value.entry "type" declared = (Table.get? "type" declared).getD .null from rfl]
  cases Table.get? "type" declared with
  | none => simp
  | some v => cases v <;> simp [isTrue_iff]

end PropInfo

/-! ## The three sources -/

namespace StoryFile

/-- The args that all stories share. -/
def sharedArgs (f : StoryFile) : Table Value := f.metadata.args.getD []

/-- The declarations of props. -/
def declarations (f : StoryFile) : Table Value := f.metadata.argTypes.getD []

/-- The names that the args of the stories have, story after story. -/
def storyArgNames (f : StoryFile) : List String :=
  f.stories.flatMap fun entry => Table.names (entry.2.args.getD [])

/-- Every name that is mentioned, as often as it is: in the shared args, in the args of the stories,
and in the declarations. -/
def mentioned (f : StoryFile) : List String :=
  Table.names f.sharedArgs ++ f.storyArgNames ++ Table.names f.declarations

/-- The value that an arg shows: the shared one, or else that of the first story that has one. -/
inductive Shows (f : StoryFile) (name : String) (value : Value) : Prop where
  | shared (h : Table.get? name f.sharedArgs = some value) : Shows f name value
  | story {before after : Table Story} {exported : String} {story : Story}
      (hshared : name ∉ Table.names f.sharedArgs)
      (hstories : f.stories = before ++ (exported, story) :: after)
      (hfirst : ∀ entry ∈ before, name ∉ Table.names (entry.2.args.getD []))
      (hvalue : Table.get? name (story.args.getD []) = some value) : Shows f name value

/-- There is a declaration of the prop, and it is a map. -/
def Declares (f : StoryFile) (name : String) (declared : Table Value) : Prop :=
  Table.get? name f.declarations = some (.map declared)

/-- The declaration of the prop names a type, by itself or as the name of a type description. -/
def DeclaresType (f : StoryFile) (name type : String) : Prop :=
  type ≠ "" ∧ ∃ declared, f.Declares name declared ∧
    (Table.get? "type" declared = some (.string type) ∨
      ∃ nested, Table.get? "type" declared = some (.map nested) ∧
        Table.get? "name" nested = some (.string type))

/-- The declaration of the prop says that it is required, at its top or in its type description. -/
def DeclaresRequired (f : StoryFile) (name : String) : Prop :=
  ∃ declared, f.Declares name declared ∧
    (Table.get? "required" declared = some (.bool true) ∨
      ∃ nested, Table.get? "type" declared = some (.map nested) ∧
        Table.get? "required" nested = some (.bool true))

/-- The declaration of the prop has a text as its description. -/
def DeclaresDescription (f : StoryFile) (name text : String) : Prop :=
  ∃ declared, f.Declares name declared ∧ Table.get? "description" declared = some (.string text)

/-- The prop says of its name what the three sources say together. -/
structure Merges (f : StoryFile) (p : PropInfo) : Prop where
  shown : ∀ value, f.Shows p.name value → p.defaultValue = value
  notShown : (∀ value, ¬f.Shows p.name value) → p.defaultValue = .null
  declaredType : ∀ type, f.DeclaresType p.name type → p.type = type
  shownType : (∀ type, ¬f.DeclaresType p.name type) →
    ∀ value, f.Shows p.name value → p.type = value.typeName
  unknownType : (∀ type, ¬f.DeclaresType p.name type) → (∀ value, ¬f.Shows p.name value) →
    p.type = "unknown"
  required : p.required = true ↔ f.DeclaresRequired p.name
  description : ∀ text, p.description = some text ↔ f.DeclaresDescription p.name text

/-! ## The table of props -/

/-- The value that an arg shows, looked up. -/
def shown? (f : StoryFile) (name : String) : Option Value :=
  (Table.get? name f.sharedArgs).or
    (f.stories.findSome? fun entry => Table.get? name (entry.2.args.getD []))

theorem shown?_eq_some_iff {f : StoryFile} {name : String} {value : Value} :
    f.shown? name = some value ↔ f.Shows name value := by
  unfold shown?
  rw [Option.or_eq_some_iff, List.findSome?_eq_some_iff, Table.get?_eq_none_iff]
  constructor
  · rintro (hshared | ⟨hshared, before, entry, after, hstories, hvalue, hfirst⟩)
    · exact .shared hshared
    · exact .story hshared hstories (fun e he => Table.get?_eq_none_iff.1 (hfirst e he)) hvalue
  · rintro (hshared | ⟨hshared, hstories, hfirst, hvalue⟩)
    · exact Or.inl hshared
    · exact Or.inr ⟨hshared, _, _, _, hstories, hvalue,
        fun e he => Table.get?_eq_none_iff.2 (hfirst e he)⟩

/-- The declaration of a prop that is a map, looked up. -/
def declared? (f : StoryFile) (name : String) : Option (Table Value) :=
  (Table.get? name f.declarations).bind Value.asMap?

theorem declared?_eq_some_iff {f : StoryFile} {name : String} {declared : Table Value} :
    f.declared? name = some declared ↔ f.Declares name declared := by
  unfold declared? Declares
  cases Table.get? name f.declarations with
  | none => simp
  | some v => cases v <;> simp [Value.asMap?]

theorem declaresType_iff {f : StoryFile} {name type : String} :
    (f.declared? name).bind PropInfo.declaredType? = some type ↔ f.DeclaresType name type := by
  rw [Option.bind_eq_some_iff]
  simp only [declared?_eq_some_iff, PropInfo.declaredType?_eq_some_iff]
  unfold DeclaresType
  constructor
  · rintro ⟨declared, hdeclares, hne, htype⟩
    exact ⟨hne, declared, hdeclares, htype⟩
  · rintro ⟨hne, declared, hdeclares, htype⟩
    exact ⟨declared, hdeclares, hne, htype⟩

/-- The props by name, as they are collected. -/
def propTable (f : StoryFile) : Table PropInfo :=
  PropInfo.addDeclarations
    (f.stories.foldl (fun known (_, story) => PropInfo.addArgs known (story.args.getD []))
      (PropInfo.addArgs [] f.sharedArgs))
    f.declarations

theorem props_eq (f : StoryFile) : f.props = f.propTable.map Prod.snd := rfl

/-- Adding the args of stories, one story after another. -/
theorem names_foldl_addArgs {known : Table PropInfo} {names : List String}
    (h : Table.names known = names.eraseDups) (stories : Table Story) :
    Table.names (stories.foldl
        (fun known (_, story) => PropInfo.addArgs known (story.args.getD [])) known) =
      (names ++ stories.flatMap fun entry => Table.names (entry.2.args.getD [])).eraseDups := by
  induction stories generalizing known names with
  | nil => simpa using h
  | cons entry rest ih =>
    rw [List.foldl_cons, ih (PropInfo.names_addArgs h _), List.flatMap_cons, List.append_assoc]

theorem get?_foldl_addArgs (name : String) (stories : Table Story) (known : Table PropInfo) :
    Table.get? name (stories.foldl
        (fun known (_, story) => PropInfo.addArgs known (story.args.getD [])) known) =
      (Table.get? name known).or
        ((stories.findSome? fun entry => Table.get? name (entry.2.args.getD [])).map
          (PropInfo.ofArg name)) := by
  induction stories generalizing known with
  | nil => simp
  | cons entry rest ih =>
    rw [List.foldl_cons, ih, PropInfo.get?_addArgs, Option.or_assoc, List.findSome?_cons]
    cases Table.get? name (entry.2.args.getD []) <;> simp

/-- There is one entry for each name that is mentioned, in the order in which the names first are. -/
theorem names_propTable (f : StoryFile) : Table.names f.propTable = f.mentioned.eraseDups := by
  have hnone : Table.names ([] : Table PropInfo) = ([] : List String).eraseDups := rfl
  have hshared := PropInfo.names_addArgs hnone f.sharedArgs
  rw [List.nil_append] at hshared
  exact PropInfo.names_addDeclarations (names_foldl_addArgs hshared f.stories) f.declarations

section

variable {f : StoryFile} (hdistinct : (Table.names f.declarations).Nodup)
include hdistinct

/-- The prop of a name is what the first value shows, as the declaration describes it. -/
theorem get?_propTable (name : String) :
    Table.get? name f.propTable =
      match Table.get? name f.declarations with
      | none => (f.shown? name).map (PropInfo.ofArg name)
      | some declaration =>
        some (PropInfo.declaredAs name declaration ((f.shown? name).map (PropInfo.ofArg name))) := by
  have hshown : Table.get? name (f.stories.foldl
      (fun known (_, story) => PropInfo.addArgs known (story.args.getD []))
      (PropInfo.addArgs [] f.sharedArgs)) = (f.shown? name).map (PropInfo.ofArg name) := by
    rw [get?_foldl_addArgs, PropInfo.get?_addArgs, shown?, Option.map_or]
    rfl
  rw [propTable, PropInfo.get?_addDeclarations name hdistinct, hshown]

/-- What is known about a prop, each part from the sources that decide it. -/
theorem parts_of_get? {name : String} {p : PropInfo} (h : Table.get? name f.propTable = some p) :
    p.name = name ∧ p.defaultValue = (f.shown? name).getD .null ∧
      p.type = ((f.declared? name).bind PropInfo.declaredType?).getD
        (((f.shown? name).map Value.typeName).getD "unknown") ∧
      p.required = ((f.declared? name).map PropInfo.declaredRequired).getD false ∧
      p.description =
        (f.declared? name).bind fun declared => (Value.entry "description" declared).asString? := by
  rw [get?_propTable hdistinct] at h
  unfold declared?
  cases hdeclaration : Table.get? name f.declarations with
  | none =>
    rw [hdeclaration] at h
    obtain ⟨value, hshown, rfl⟩ := Option.map_eq_some_iff.1 h
    rw [hshown]
    exact ⟨rfl, rfl, rfl, rfl, rfl⟩
  | some declaration =>
    rw [hdeclaration] at h
    obtain rfl := Option.some.inj h
    rw [Option.bind_some]
    -- a declaration that is no map says as little as an empty one
    cases hmap : declaration.asMap? with
    | none =>
      cases f.shown? name with
      | none =>
        simp only [PropInfo.declaredAs, hmap, Option.map_none]
        exact ⟨rfl, rfl, rfl, rfl, rfl⟩
      | some value =>
        simp only [PropInfo.declaredAs, hmap, Option.map_some]
        exact ⟨rfl, rfl, rfl, rfl, rfl⟩
    | some declared =>
      cases f.shown? name with
      | none =>
        simp only [PropInfo.declaredAs, hmap, Option.map_none]
        exact ⟨rfl, rfl, rfl, rfl, rfl⟩
      | some value =>
        simp only [PropInfo.declaredAs, hmap, Option.map_some]
        exact ⟨rfl, rfl, rfl, rfl, by simp [PropInfo.describe, PropInfo.ofArg]⟩

/-- Every prop of the table says of its name what the sources say together. -/
theorem merges_of_get? {name : String} {p : PropInfo} (h : Table.get? name f.propTable = some p) :
    f.Merges p := by
  obtain ⟨rfl, hdefault, htype, hrequired, hdescription⟩ := parts_of_get? hdistinct h
  have hnone (hnot : ∀ value, ¬f.Shows p.name value) : f.shown? p.name = none :=
    Option.eq_none_iff_forall_ne_some.2 fun value heq => hnot value (shown?_eq_some_iff.1 heq)
  have hnoType (hnot : ∀ type, ¬f.DeclaresType p.name type) :
      (f.declared? p.name).bind PropInfo.declaredType? = none :=
    Option.eq_none_iff_forall_ne_some.2 fun type heq => hnot type (declaresType_iff.1 heq)
  constructor
  case shown =>
    intro value hshows
    rw [hdefault, shown?_eq_some_iff.2 hshows]
    rfl
  case notShown =>
    intro hnot
    rw [hdefault, hnone hnot]
    rfl
  case declaredType =>
    intro type hdeclares
    rw [htype, declaresType_iff.2 hdeclares]
    rfl
  case shownType =>
    intro hnot value hshows
    rw [htype, hnoType hnot, shown?_eq_some_iff.2 hshows]
    rfl
  case unknownType =>
    intro hnot hnotShown
    rw [htype, hnoType hnot, hnone hnotShown]
    rfl
  case required =>
    rw [hrequired]
    unfold DeclaresRequired
    simp only [← declared?_eq_some_iff, ← PropInfo.declaredRequired_iff]
    cases f.declared? p.name <;> simp
  case description =>
    intro text
    rw [hdescription, Option.bind_eq_some_iff]
    unfold DeclaresDescription
    simp only [declared?_eq_some_iff, Value.asString?_entry_eq_some_iff]

end

/-- There is exactly one prop for each name that is mentioned: the shared args first, then what is new
in the args of the stories, in the order in which it first comes, then what is only declared. Each
prop has the shared value, or else that of the first story that shows one, the type that is declared,
or else that of the value, and it is required and described as its declaration says. -/
theorem props_merged {f : StoryFile} (hdistinct : (Table.names f.declarations).Nodup) :
    (f.props.map PropInfo.name).Nodup ∧ f.props.map PropInfo.name = f.mentioned.eraseDups ∧
      ∀ p ∈ f.props, f.Merges p := by
  have hnames := names_propTable f
  have hnodup : (Table.names f.propTable).Nodup := hnames ▸ Table.nodup_eraseDups _
  have hkey : ∀ entry ∈ f.propTable, entry.2.name = entry.1 := fun entry hmem =>
    (parts_of_get? hdistinct (Table.get?_of_mem hnodup hmem)).1
  have hmap : f.props.map PropInfo.name = Table.names f.propTable := by
    rw [props_eq, List.map_map]
    exact List.map_congr_left hkey
  refine ⟨hmap ▸ hnodup, hmap.trans hnames, fun p hp => ?_⟩
  obtain ⟨entry, hmem, rfl⟩ := List.mem_map.1 hp
  exact merges_of_get? hdistinct (Table.get?_of_mem hnodup hmem)

end StoryFile

/-! ## Declarations in a source -/

/-- A number literal denotes no map. -/
theorem Script.asMap?_of_numberValue? {literal : String} {value : Value}
    (h : Script.numberValue? literal = some value) : value.asMap? = none := by
  have hbase {base : Nat} {rest : List Char}
      (hn : (Script.numberIn? base rest).map (fun n => Value.int n) = some value) :
      value.asMap? = none := by
    obtain ⟨n, -, rfl⟩ := Option.map_eq_some_iff.1 hn
    rfl
  unfold Script.numberValue? at h
  dsimp only at h
  split at h
  · cases h
  · split at h
    case h_7 =>
      split at h
      · obtain ⟨x, -, rfl⟩ := Option.map_eq_some_iff.1 h
        rfl
      · split at h
        · cases h
        · exact hbase h
    all_goals exact hbase h

namespace Script.Expr

/-- A sign before a number literal denotes no map either. -/
theorem asMap?_of_signedValue? {operator : String} {operand : Expr} {value : Value}
    (h : signedValue? operator operand = some value) : value.asMap? = none := by
  unfold signedValue? at h
  split at h
  · split at h
    · obtain ⟨size, hsize, rfl⟩ := Option.map_eq_some_iff.1 h
      have hnone := asMap?_of_numberValue? hsize
      cases size <;> first | rfl | cases hnone
    · split at h
      · exact asMap?_of_numberValue? h
      · cases h
  · cases h

/-- A map that an expression denotes holds each name once. -/
theorem nodup_names_of_value {e : Expr} {entries : Table Value}
    (h : e.value.asMap? = some entries) : (Table.names entries).Nodup := by
  have hscalar {found : Option Value} {text : String}
      (hfound : ∀ value, found = some value → value.asMap? = none) :
      (found.getD (.code text)).asMap? = none := by
    cases found with
    | none => rfl
    | some value => exact hfound value rfl
  cases e with
  | object text members =>
    obtain rfl := Option.some.inj h
    exact Table.nodup_names_ofList _
  | number text =>
    rw [value, hscalar fun _ => asMap?_of_numberValue?] at h
    cases h
  | signed text operator operand =>
    rw [value, hscalar fun _ => asMap?_of_signedValue?] at h
    cases h
  | _ => cases h

theorem exists_of_mem_entries {members : List (String × Expr)} {entry : String × Value}
    (h : entry ∈ entries members) : ∃ e : Expr, e.value = entry.2 := by
  induction members with
  | nil => cases h
  | cons member rest ih =>
    rcases List.mem_cons.1 h with rfl | h
    · exact ⟨member.2, rfl⟩
    · exact ih h

end Script.Expr

namespace StoryFile

/-- The declarations in a story file that was read hold each name once. -/
theorem nodup_declarations {path source : String} {f : StoryFile}
    (h : ofSource path source = .ok f) : (Table.names f.declarations).Nodup := by
  obtain ⟨-, entries, held, hmeta, hmetadata, -⟩ := parts_of_ofOutline h
  have hdeclarations : f.declarations = ((Value.entry "argTypes" entries).asMap?).getD [] := by
    rw [declarations, hmetadata]
    rfl
  rw [hdeclarations]
  cases hmap : (Value.entry "argTypes" entries).asMap? with
  | none => exact List.nodup_nil
  | some declared =>
    -- what stands there is the value of an expression of the module
    obtain ⟨e, he⟩ := Outline.exists_of_meta? hmeta
    unfold Value.entry at hmap
    cases hget : Table.get? "argTypes" entries with
    | none => rw [hget] at hmap; cases hmap
    | some value =>
      rw [hget, Option.getD_some] at hmap
      unfold Script.Expr.objectEntries? at he
      split at he
      · obtain rfl := Option.some.inj he
        obtain ⟨inner, (hinner : inner.value = value)⟩ := Script.Expr.exists_of_mem_entries
          (Table.mem_of_mem_ofList (Table.mem_of_get? hget))
        exact Script.Expr.nodup_names_of_value (hinner ▸ hmap)
      · cases he

/-- A story file whose props come from all three sources. -/
def propStory : String :=
  "export default\x7bcomponent:A,args:\x7bb:1\x7d," ++
    "argTypes:\x7bb:\x7btype:\x7bname:'x',required:true\x7d\x7d,c:0\x7d\x7d;" ++
    "export const S=\x7bargs:\x7bb:2,d:'y'\x7d\x7d;export const T=\x7bargs:\x7bd:null\x7d\x7d"

/-- The props of such a story file. -/
theorem props_propStory : ∃ f, ofSource "a.ts" propStory = .ok f ∧
    (Table.names f.declarations).Nodup ∧ f.props.map PropInfo.name = ["b", "d", "c"] ∧
      ∀ p ∈ f.props, f.Merges p := by
  have hchecked : (ofSource "a.ts" propStory).toOption.any (fun f =>
      f.mentioned == ["b", "b", "d", "d", "b", "c"]) = true := by decide +kernel
  obtain ⟨f, hread, hmentioned⟩ := exists_ok_of_any hchecked
  have hdistinct := nodup_declarations hread
  obtain ⟨-, hnames, hmerges⟩ := props_merged hdistinct
  refine ⟨f, hread, hdistinct, ?_, hmerges⟩
  rw [hnames, beq_iff_eq.1 hmentioned]
  decide

end StoryFile

end StoryRegistry
