import StoryRegistry.Yaml.Node
import StoryRegistry.Yaml.Scalar

/-!
# YAML data

What the nodes of a document denote. A mapping may merge the entries of other mappings, which come
before its own; of two entries with equal keys the later one counts, at the place of the first.
-/

set_option autoImplicit false

namespace StoryRegistry.Yaml

/-- A piece of data. -/
inductive Data where
  | null
  | bool (b : Bool)
  | int (n : Int)
  | double (x : Double)
  | text (s : String)
  | bytes (bs : List Nat)
  | time (m : String)
  | list (items : List Data)
  | map (entries : List (Data × Data))
  /-- A set or a pair, of which only the presence matters. -/
  | unit
  /-- The data that an anchor names. -/
  | reference (name : String)
deriving Inhabited

/-- The beginning of every standard tag. -/
def standardTags : String := "tag:yaml.org,2002:"

namespace ScalarKind

/-- The name of the standard tag of a kind. -/
def tagName : ScalarKind → String
  | null => "null"
  | bool => "bool"
  | int => "int"
  | float => "float"
  | time => "timestamp"
  | merge => "merge"
  | default => "value"
  | text => "str"

end ScalarKind

namespace Node

/-- The name of a standard tag. -/
def standardName? (tag : String) : Option String :=
  (Text.dropStart? standardTags.toList tag.toList).map String.ofList

/-- The name of the node's standard tag; none if its tag is another one, or if it is an alias. -/
def tagName? : Node → Option String
  | scalar (.named t) _ | sequence (.named t) _ | mapping (.named t) _ => standardName? t
  | scalar .byText text => some (kindOf text).tagName
  | scalar .byKind _ => some "str"
  | sequence _ _ => some "seq"
  | mapping _ _ => some "map"
  | reference _ => none

/-- The node that an alias stands for; every other node stands for itself. -/
def follow (anchored : Table Node) : Node → Node
  | reference name => (Table.get? name anchored).getD empty
  | n => n

/-- The text of a scalar, or of the default entry of a mapping. -/
def scalarText? (anchored : Table Node) : Nat → Node → Option String
  | 0, _ => none
  | fuel + 1, n =>
    match n.follow anchored with
    | scalar _ text => some text
    | mapping _ entries =>
      match entries.find? fun (key, _) => (key.follow anchored).tagName? == some "value" with
      | some (_, value) => scalarText? anchored fuel value
      | none => none
    | _ => none

/-- The mapping's entry merges others. -/
def isMerge (anchored : Table Node) (key : Node) : Bool :=
  (key.follow anchored).tagName? == some "merge"

/-- The node is a mapping. -/
def isMapping : Node → Bool
  | mapping _ _ => true
  | _ => false

/-- What stands beside a merge mark is a mapping or a list of mappings. -/
def isMergeable (anchored : Table Node) (value : Node) : Bool :=
  match value.follow anchored with
  | mapping _ _ => true
  | sequence _ items => items.all fun item => (item.follow anchored).isMapping
  | _ => false

/-- The entries of a mapping after those that it merges; `visiting` holds the anchors under way. -/
def merged (anchored : Table Node) : Nat → List String → List (Node × Node) → List (Node × Node)
  | 0, _, entries => entries.filter fun (key, _) => !isMerge anchored key
  | fuel + 1, visiting, entries =>
    let own := entries.filter fun (key, _) => !isMerge anchored key
    let ofNode (n : Node) : List (Node × Node) :=
      match n, n.follow anchored with
      | reference name, mapping _ inner =>
        if visiting.contains name then inner.filter fun (key, _) => !isMerge anchored key
        else merged anchored fuel (name :: visiting) inner
      | _, mapping _ inner => merged anchored fuel visiting inner
      | _, _ => []
    let others := (entries.filter fun (key, _) => isMerge anchored key).flatMap fun (_, value) =>
      match value.follow anchored with
      | sequence _ items => items.reverse.flatMap ofNode
      | _ => ofNode value
    others ++ own

end Node

/-! ## Scalars -/

/-- The bytes of a text in base 64; characters outside the alphabet do not matter, and the padding
ends the text. -/
def base64? (s : String) : Option (List Nat) :=
  let value? (c : Char) : Option Nat :=
    if c.isUpper then some (c.toNat - 65)
    else if c.isLower then some (c.toNat - 71)
    else if c.isDigit then some (c.toNat + 4)
    else if c == '+' then some 62
    else if c == '/' then some 63
    else none
  let rec go : List Char → List Nat → List Nat → Option (List Nat)
    | [], [], done => some done.reverse
    | [], _, _ => none
    | c :: rest, group, done =>
      if c == '=' then
        match group with
        | [b, a] =>
          if (rest.filter fun c => c == '=').isEmpty then go rest group done
          else some ((a * 4 + b / 16) :: done).reverse
        | [c', b, a] => some (((b % 16) * 16 + c' / 4) :: (a * 4 + b / 16) :: done).reverse
        | _ => go rest group done
      else
        match value? c, group with
        | none, _ => go rest group done
        | some d, [c', b, a] =>
          go rest [] ((c' % 4 * 64 + d) :: ((b % 16) * 16 + c' / 4) :: (a * 4 + b / 16) :: done)
        | some d, _ => go rest (d :: group) done
  if s.toList.any fun c => 127 < c.toNat then none else go s.toList [] []

/-- The data of a scalar whose tag has the given name. -/
def scalarData (name : String) (text : Option String) : Except Problem Data :=
  match text with
  | none => .error .malformed
  | some s =>
    match name with
    | "null" => .ok .null
    | "bool" => (truthOf s).map .bool
    | "int" => (intOf s).map .int
    | "float" => (floatOf s).map .double
    | "binary" =>
      match base64? s with
      | some bs => .ok (.bytes bs)
      | none => .error .malformed
    | "timestamp" => (timeOf s).map fun m => .time m.text
    | "str" => .ok (.text s)
    | _ => .error .malformed

/-- The names of the tags of containers. -/
def containerTags : List String := ["seq", "map", "set", "omap", "pairs"]

/-- How deep a default entry may lie inside others. -/
def defaultDepth : Nat := 100

namespace Node

/-- The node is a container by its tag. -/
def isContainer (n : Node) : Bool := n.tagName?.any containerTags.contains

/-- What is wrong with a node before its contents are looked at. -/
def problem? (anchored : Table Node) (n : Node) : Option Problem :=
  match n with
  | reference _ => none
  | _ =>
    match n.tagName? with
    | none => some .malformed
    | some name =>
      if containerTags.contains name then none
      else
        match scalarData name (n.scalarText? anchored defaultDepth) with
        | .ok _ => none
        | .error p => some p

/-- What is wrong with a key: only scalars can be keys, and the default mark counts as a text. -/
def keyProblem? (anchored : Table Node) (n : Node) : Option Problem :=
  let n := n.follow anchored
  if n.tagName? == some "value" then none
  else if n.isContainer then some .malformed
  else n.problem? anchored

/-- What is wrong with the contents of a container, in the order in which it is found. -/
def contentProblems (anchored : Table Node) (n : Node) : List Problem :=
  match n.tagName?, n with
  | some "seq", sequence _ items => items.filterMap (problem? anchored)
  | some "map", mapping _ entries | some "set", mapping _ entries =>
    let unmergeable := entries.any fun (key, value) =>
      isMerge anchored key && !isMergeable anchored value
    if unmergeable then [.malformed]
    else
      (entries.filter fun (key, _) => !isMerge anchored key).flatMap fun (key, value) =>
        (key.keyProblem? anchored).toList ++ (value.problem? anchored).toList
  | some "omap", sequence _ items | some "pairs", sequence _ items =>
    items.flatMap fun item =>
      match item.follow anchored with
      | mapping _ [(key, value)] =>
        (key.problem? anchored).toList ++ (value.problem? anchored).toList
      | _ => [.malformed]
  | some name, _ => if containerTags.contains name then [.malformed] else []
  | none, _ => []

/-- The nodes directly inside a node. -/
def inside : Node → List Node
  | sequence (.named t) items =>
    if ["omap", "pairs"].any fun name => t == standardTags ++ name then
      items.flatMap fun item =>
        match item with
        | mapping _ entries => entries.flatMap fun (key, value) => [key, value]
        | _ => []
    else items
  | sequence _ items => items
  | mapping _ entries => entries.map Prod.snd
  | _ => []

/-- The first thing wrong with the contents of the nodes, or deeper inside, level by level. -/
def firstProblem? (anchored : Table Node) : Nat → List Node → Option Problem
  | 0, _ => none
  | fuel + 1, level =>
    if level.isEmpty then none
    else
      match level.flatMap (contentProblems anchored) with
      | p :: _ => some p
      | [] => firstProblem? anchored fuel ((level.flatMap inside).filter isContainer)

end Node

/-! ## Building data -/

namespace Data

/-- The number that a key counts as. -/
def numeric? : Data → Option Double
  | bool b => some (.ofInt (if b then 1 else 0))
  | int n => some (.ofInt n)
  | double x => some x
  | _ => none

/-- The keys are equal; truth values count as numbers. -/
def sameKey (a b : Data) : Bool :=
  match a, b with
  | null, null => true
  | text s, text t => s == t
  | bytes s, bytes t => s == t
  | time s, time t => s == t
  | int m, int n => m == n
  | a, b =>
    match a.numeric?, b.numeric? with
    | some x, some y => x == y || (x.isZero && y.isZero)
    | _, _ => false

/-- Sets the entry of a key: in place if the key is there, else at the end. -/
def setKey (key value : Data) : List (Data × Data) → List (Data × Data)
  | [] => [(key, value)]
  | (k, v) :: rest => if sameKey k key then (k, value) :: rest else (k, v) :: setKey key value rest

/-- The data of a scalar node, null where it denotes none. -/
def ofScalar (anchored : Table Node) (n : Node) : Data :=
  let name := n.tagName?.getD ""
  let name := if name == "value" then "str" else name
  match scalarData name (n.scalarText? anchored defaultDepth) with
  | .ok d => d
  | .error _ => .null

/-- The data of a node; `fuel` bounds the depth. -/
def ofNode (anchored : Table Node) : Nat → Node → Data
  | 0, _ => .null
  | fuel + 1, n =>
    match n with
    | .reference name => .reference name
    | n =>
      match n.tagName?, n with
      | some "seq", .sequence _ items => .list (items.map (ofNode anchored fuel))
      | some "map", .mapping _ entries =>
        .map ((Node.merged anchored fuel [] entries).foldl (fun found (key, value) =>
          setKey (ofScalar anchored (key.follow anchored)) (ofNode anchored fuel value) found) [])
      | some "omap", .sequence _ items | some "pairs", .sequence _ items =>
        .list (items.map fun _ => .unit)
      | some name, n => if containerTags.contains name then .unit else ofScalar anchored n
      | none, _ => .null

end Data

/-- The data of a document, with what its anchors name. -/
structure Tree where
  root : Data
  anchors : Table Data
deriving Inhabited

namespace Tree

/-- The data that an alias stands for; everything else stands for itself. -/
def follow (t : Tree) : Data → Data
  | .reference name => (Table.get? name t.anchors).getD .null
  | d => d

/-- The data of a document. -/
def ofDocument (size : Nat) (d : Document) : Except Problem Tree :=
  match (d.root.problem? d.anchored).or (Node.firstProblem? d.anchored size [d.root]) with
  | some p => .error p
  | none =>
    let data := Data.ofNode d.anchored size
    .ok ⟨data d.root, d.anchored.map fun (name, n) => (name, data n)⟩

/-- The data of a text, null if it holds no document. -/
def ofText (s : String) : Except Problem Tree := do
  match ← Document.ofText? s with
  | some d => ofDocument (s.length + 2) d
  | none => return ⟨.null, []⟩

end Tree

end StoryRegistry.Yaml
