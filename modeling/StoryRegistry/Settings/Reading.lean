import StoryRegistry.Failure
import StoryRegistry.Text.Quoted
import StoryRegistry.Yaml.Data

/-!
# Reading settings

Settings are read from a YAML mapping with up to four sections. What is absent, or not of the kind
that is looked for, leaves the default in place; only type rules have to be right.
-/

set_option autoImplicit false

namespace StoryRegistry.Settings

open StoryRegistry.Yaml

/-- The names under which settings are looked for in a folder, in this order. -/
def fileNames : List String := ["storysync.yml", "storysync.yaml", "storybook-sync.config.json"]

/-- The file to which new settings are written. -/
def newFileName : String := "storysync.yml"

/-! ## Reading data -/

/-- The decimal text of an integer that has not too many digits. -/
def decimalText (n : Int) : Except Failure String :=
  let text := toString n
  if Value.maxIntDigits < (toString n.natAbs).length then .error .badNumber else .ok text

/-- The text of bytes, with a mark in front and what is not ASCII shown by number. -/
def bytesText (bytes : List Nat) : String :=
  let quote := if bytes.contains 39 && !bytes.contains 34 then '"' else '\x27'
  let shown (b : Nat) : List Char :=
    if b < 128 then Text.literalChar quote (Char.ofNat b) else '\\' :: 'x' :: Text.hexDigits 2 b
  String.ofList ('b' :: quote :: bytes.flatMap shown ++ [quote])

/-- A text, or the text of a number. -/
def asText? (d : Data) : Except Failure (Option String) :=
  match d with
  | .text s => .ok (some s)
  | .int n => (decimalText n).map some
  | .double x => .ok (some x.text)
  | _ => .ok none

/-- A text that is not empty, or the text of a number. -/
def asFilledText? (d : Data) : Except Failure (Option String) :=
  (asText? d).map fun found => found.filter (!·.isEmpty)

/-- The text of a key. -/
def keyText (d : Data) : Except Failure String :=
  match d with
  | .bool b => .ok (if b then "True" else "False")
  | .null => .ok "None"
  | .bytes bs => .ok (bytesText bs)
  | .time s => .ok s
  | d => (asText? d).map fun found => found.getD ""

/-- A number, or a text that writes one. -/
def asNumber? (d : Data) : Except Failure (Option Double) :=
  match d with
  | .int n =>
    match Double.ofInt n with
    | .infinite _ => .error .tooLarge
    | x => .ok (some x)
  | .double x => .ok (some x)
  | .text s => .ok (Double.ofText? s)
  | _ => .ok none

/-- The words for true. -/
def yesWords : List String := ["true", "yes", "1"]

/-- The words for false. -/
def noWords : List String := ["false", "no", "0"]

/-- A truth value, or a text that names one. -/
def asTruth? (d : Data) : Option Bool :=
  match d with
  | .bool b => some b
  | .text s =>
    let word := Text.lower (String.ofList (Text.trim s.toList))
    if yesWords.contains word then some true
    else if noWords.contains word then some false
    else none
  | _ => none

/-- The text of an item of a list; items that are neither texts nor numbers nor truth values have
none. -/
def itemText? (d : Data) : Except Failure (Option String) :=
  match d with
  | .bool _ => (keyText d).map some
  | d => asText? d

/-- A list of texts; a text alone counts as a list, and bytes count as a list of numbers. -/
def asTexts (t : Tree) (d : Data) : Except Failure (List String) :=
  match d with
  | .text s => .ok [s]
  | .bytes bs => .ok (bs.map toString)
  | .list items => (items.mapM fun item => itemText? (t.follow item)).map fun found => found.filterMap id
  | _ => .ok []

/-- The entries of a mapping; anything else has none. -/
def entriesOf (d : Data) : List (Data × Data) :=
  match d with
  | .map entries => entries
  | _ => []

/-- The entry of that name, if there is one. -/
def dataAt? (t : Tree) (name : String) (entries : List (Data × Data)) : Option Data :=
  (entries.find? fun (key, _) => Data.sameKey key (.text name)).map fun (_, d) => t.follow d

/-- The entry of that name, null if there is none. -/
def entry (t : Tree) (name : String) (entries : List (Data × Data)) : Data :=
  (dataAt? t name entries).getD .null

/-- What is read from the entry of that name; the default if there is no such entry. -/
def readOr {α : Type} (t : Tree) (name : String) (read : Data → Except Failure α) (default : α)
    (entries : List (Data × Data)) : Except Failure α :=
  match dataAt? t name entries with
  | some d => read d
  | none => .ok default

/-! ## Sections -/

/-- The item type that a piece of data names. -/
def typeOf (d : Data) : Except Failure ItemType := do
  match ← asFilledText? d with
  | none => throw (.settings .ruleWithoutType)
  | some name =>
    match ItemType.ofName? name with
    | some type => return type
    | none => throw (.settings (.unknownType name))

/-- The type rule at a position. -/
def ruleOf (t : Tree) (position : Nat) (d : Data) : Except Failure TypeRule := do
  match d with
  | .map entries =>
    match ← asFilledText? (entry t "pattern" entries) with
    | none => throw (.settings (.ruleWithoutPattern position))
    | some pattern =>
      let condition ← asText? (entry t "condition" entries)
      if condition.any fun name => (Measure.ofText? name).isNone then
        throw (.settings (.ruleCondition position))
      let type ← typeOf (entry t "type" entries)
      let threshold ← asNumber? (entry t "threshold" entries)
      return { pattern := pattern, type := type, condition := condition, threshold := threshold }
  | _ => throw (.settings (.ruleNoMapping position))

/-- The type rules of a list. -/
def rulesOf (t : Tree) (d : Data) : Except Failure (List TypeRule) :=
  match d with
  | .null => .ok []
  | .list items => items.zipIdx.mapM fun (item, i) => ruleOf t i (t.follow item)
  | _ => .error (.settings .rulesNoList)

/-- Sets where story files and components lie. -/
def withInput (t : Tree) (entries : List (Data × Data)) (settings : Settings) :
    Except Failure Settings := do
  let path? (name : String) : Except Failure (Option Path) := do
    return (← asFilledText? (entry t name entries)).map settings.root.child
  let storybook ← path? "storybookPath"
  let components ← path? "componentsPath"
  let tsconfig ← path? "tsconfigPath"
  let patterns ← asTexts t (entry t "storiesPattern" entries)
  return { settings with
    storybookPath := storybook.getD settings.storybookPath
    componentsPath := components.getD settings.componentsPath
    tsconfigPath := tsconfig.getD settings.tsconfigPath
    storiesPatterns := if patterns.isEmpty then settings.storiesPatterns else patterns }

/-- Sets where the registry goes and what it is called. -/
def withOutput (t : Tree) (entries : List (Data × Data)) (settings : Settings) :
    Except Failure Settings := do
  let path ← asFilledText? (entry t "registryPath" entries)
  let name ← asFilledText? (entry t "registryName" entries)
  let homepage ← asFilledText? (entry t "homepage" entries)
  return { settings with
    registryPath := (path.map settings.root.child).getD settings.registryPath
    registryName := name.getD settings.registryName
    homepage := homepage <|> settings.homepage }

/-- The renames of a mapping, added to those that are known. -/
def renamesOf (t : Tree) : List (Data × Data) → Table String → Except Failure (Table String)
  | [], known => .ok known
  | (key, target) :: rest, known => do
    match ← asFilledText? (t.follow target) with
    | some name => renamesOf t rest (Table.set (← keyText key) name known)
    | none => renamesOf t rest known

/-- Sets the type rules, the renames and the excluded patterns. -/
def withMapping (t : Tree) (entries : List (Data × Data)) (settings : Settings) :
    Except Failure Settings := do
  let rules ← readOr t "componentTypeRules" (rulesOf t) settings.typeRules entries
  let renames ← renamesOf t (entriesOf (entry t "dependencyMapping" entries)) settings.renames
  let excludes ← readOr t "excludePatterns" (asTexts t) settings.excludePatterns entries
  return { settings with typeRules := rules, renames := renames, excludePatterns := excludes }

/-- Sets which steps are done. -/
def withGeneration (t : Tree) (entries : List (Data × Data)) (settings : Settings) : Settings :=
  let truth (name : String) (other : Bool) : Bool := (asTruth? (entry t name entries)).getD other
  { settings with
    withExamples := truth "includeStoryExamples" settings.withExamples
    withItems := truth "generateIndividualItems" settings.withItems
    validated := truth "validateOutput" settings.validated }

/-- The settings that a mapping gives on top of the defaults. -/
def ofEntries (t : Tree) (root : Path) (entries : List (Data × Data)) : Except Failure Settings := do
  let part (name : String) : List (Data × Data) := entriesOf (entry t name entries)
  let settings ← withInput t (part "input") (ofRoot root)
  let settings ← withOutput t (part "output") settings
  let settings ← withMapping t (part "mapping") settings
  return withGeneration t (part "generation") settings

/-- The failure that a problem of the text in a file leads to. -/
def failureOf (file : String) : Problem → Failure
  | .malformed => .settings (.malformed file)
  | .badNumber => .badNumber
  | .tooLarge => .tooLarge
  | .unknownTruth => .missingEntry file
  | .noTime => .wrongOperation
  | .noDigits => .outOfRange

/-- The settings in the text of a file of the given name. -/
def ofText (root : Path) (file text : String) : Except Failure Settings :=
  if (Text.trim text.toList).isEmpty then .ok (ofRoot root)
  else
    match Tree.ofText text with
    | .error problem => .error (failureOf file problem)
    | .ok t =>
      match t.follow t.root with
      | .null => .ok (ofRoot root)
      | .map entries => ofEntries t root entries
      | _ => .error (.settings (.noMapping file))

end StoryRegistry.Settings
