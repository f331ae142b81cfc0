import StoryRegistry.Yaml.Token.Reading
import StoryRegistry.Table

/-!
# YAML nodes

The tokens of a text make up at most one document, a tree of nodes. Each node has a tag, written out
or implied by what it is. A node with an anchor can stand at other places by its alias, also inside
itself.
-/

set_option autoImplicit false

namespace StoryRegistry.Yaml

/-- What a scalar without a tag of its own is taken for. -/
inductive Tag where
  /-- The tag is written out. -/
  | named (text : String)
  /-- The scalar was written so that its text decides. -/
  | byText
  /-- The kind of the node decides: a text, a sequence or a mapping. -/
  | byKind
deriving DecidableEq, Inhabited

/-- A node. -/
inductive Node where
  | scalar (tag : Tag) (text : String)
  | sequence (tag : Tag) (items : List Node)
  | mapping (tag : Tag) (entries : List (Node × Node))
  | reference (name : String)
deriving Inhabited

/-- A node without content. -/
def Node.empty : Node := .scalar .byText ""

/-- What is left of the tokens, and the anchors so far. -/
structure Composing where
  tokens : List Token
  /-- What handles stand for. -/
  handles : Table String
  /-- The names of all anchors, also of nodes that are not complete yet. -/
  names : List String := []
  /-- The complete nodes by their anchors. -/
  anchored : Table Node := []
deriving Inhabited

namespace Composing

/-- The next token. -/
def head? (s : Composing) : Option Token := s.tokens.head?

/-- Goes on after the next token. -/
def next (s : Composing) : Composing := { s with tokens := s.tokens.tail }

/-- The next token is one of these. -/
def sees (s : Composing) (tokens : List Token) : Bool := s.head?.any tokens.contains

/-- Goes on after the next token, which has to be the given one. -/
def expect (s : Composing) (token : Token) : Except Problem Composing :=
  if s.head? = some token then .ok s.next else .error .malformed

/-- What the written tag stands for. -/
def tag (s : Composing) (handle : Option String) (text : String) : Except Problem String :=
  match handle with
  | none => .ok text
  | some name =>
    match Table.get? name s.handles with
    | some full => .ok (full ++ text)
    | none => .error .malformed

/-- An anchor and a tag before a node, in either order. -/
structure Properties where
  anchor : Option String := none
  tag : Option String := none

/-- The anchor and the tag that come next. -/
def properties (s : Composing) : Except Problem (Properties × Composing) :=
  match s.tokens with
  | .anchor name :: .tag handle text :: _ => do
    return ({ anchor := some name, tag := some (← s.tag handle text) }, s.next.next)
  | .anchor name :: _ => .ok ({ anchor := some name }, s.next)
  | .tag handle text :: .anchor name :: _ => do
    return ({ anchor := some name, tag := some (← s.tag handle text) }, s.next.next)
  | .tag handle text :: _ => do return ({ tag := some (← s.tag handle text) }, s.next)
  | _ => .ok ({}, s)

/-- The tag of a node, `implied` where none or the bare mark is written. -/
def Properties.tagOr (p : Properties) (implied : Tag) : Tag :=
  match p.tag with
  | some text => if text == "!" then implied else .named text
  | none => implied

/-- Takes the name of an anchor, which must be new. -/
def declare (s : Composing) (anchor : Option String) : Except Problem Composing :=
  match anchor with
  | none => .ok s
  | some name =>
    if s.names.contains name then .error .malformed else .ok { s with names := name :: s.names }

/-- Keeps a complete node under its anchor. -/
def keep (s : Composing) (anchor : Option String) (node : Node) : Node × Composing :=
  match anchor with
  | none => (node, s)
  | some name => (node, { s with anchored := s.anchored ++ [(name, node)] })

/-- The tokens before which an item, a key or a value of a block is empty. -/
def blockEnds : List Token := [.key, .value, .blockEnd]

mutual

/-- A node. In a block, block collections may begin; `flush` allows a sequence that is not indented
further than the key before it. -/
def node (block flush : Bool) : Nat → Composing → Except Problem (Node × Composing)
  | 0, _ => .error .malformed
  | fuel + 1, s =>
    match s.head? with
    | some (.reference name) =>
      if s.names.contains name then .ok (.reference name, s.next) else .error .malformed
    | _ => do
      let (p, s) ← s.properties
      let s ← s.declare p.anchor
      match s.head? with
      | some (.scalar text plain) =>
        let implied : Tag := if plain && p.tag.isNone || p.tag == some "!" then .byText else .byKind
        return s.next.keep p.anchor (.scalar (p.tagOr implied) text)
      | some .flowSequence => do
        let (items, s) ← flowItems true fuel s.next
        return s.keep p.anchor (.sequence (p.tagOr .byKind) items)
      | some .flowMapping => do
        let (entries, s) ← flowEntries true fuel s.next
        return s.keep p.anchor (.mapping (p.tagOr .byKind) entries)
      | some .blockSequence =>
        if !block then throw .malformed
        let (items, s) ← blockItems fuel s.next
        return s.keep p.anchor (.sequence (p.tagOr .byKind) items)
      | some .blockMapping =>
        if !block then throw .malformed
        let (entries, s) ← blockEntries fuel s.next
        return s.keep p.anchor (.mapping (p.tagOr .byKind) entries)
      | some .item =>
        if flush then
          let (items, s) ← flushItems fuel s
          return s.keep p.anchor (.sequence (p.tagOr .byKind) items)
        else emptyNode p s
      | _ => emptyNode p s

/-- A node of which only an anchor or a tag is written. -/
def emptyNode (p : Properties) (s : Composing) : Except Problem (Node × Composing) :=
  if p.anchor.isNone && p.tag.isNone then .error .malformed
  else .ok (s.keep p.anchor (.scalar (p.tagOr .byText) ""))

/-- A node, unless one of the tokens comes first. -/
def nodeUnless (ends : List Token) (block flush : Bool) :
    Nat → Composing → Except Problem (Node × Composing)
  | 0, _ => .error .malformed
  | fuel + 1, s => if s.sees ends then .ok (.empty, s) else node block flush fuel s

/-- The items of a block sequence, up to and with its end. -/
def blockItems : Nat → Composing → Except Problem (List Node × Composing)
  | 0, _ => .error .malformed
  | fuel + 1, s =>
    match s.head? with
    | some .item => do
      let (first, s) ← nodeUnless [.item, .blockEnd] true false fuel s.next
      let (more, s) ← blockItems fuel s
      return (first :: more, s)
    | some .blockEnd => .ok ([], s.next)
    | _ => .error .malformed

/-- The items of a sequence that is not indented. -/
def flushItems : Nat → Composing → Except Problem (List Node × Composing)
  | 0, _ => .error .malformed
  | fuel + 1, s =>
    match s.head? with
    | some .item => do
      let (first, s) ← nodeUnless (.item :: blockEnds) true false fuel s.next
      let (more, s) ← flushItems fuel s
      return (first :: more, s)
    | _ => .ok ([], s)

/-- The entries of a block mapping, up to and with its end. -/
def blockEntries : Nat → Composing → Except Problem (List (Node × Node) × Composing)
  | 0, _ => .error .malformed
  | fuel + 1, s =>
    match s.head? with
    | some .key => do
      let (key, s) ← nodeUnless blockEnds true true fuel s.next
      let (value, s) ←
        if s.head? = some .value then nodeUnless blockEnds true true fuel s.next
        else .ok (.empty, s)
      let (more, s) ← blockEntries fuel s
      return ((key, value) :: more, s)
    | some .value => .error .malformed
    | some .blockEnd => .ok ([], s.next)
    | _ => .error .malformed

/-- The items of a flow sequence, up to and with its end. An item may be a single entry of a
mapping without braces. -/
def flowItems (first : Bool) : Nat → Composing → Except Problem (List Node × Composing)
  | 0, _ => .error .malformed
  | fuel + 1, s => do
    if s.head? = some .flowSequenceEnd then return ([], s.next)
    let s ← if first then pure s else s.expect .comma
    match s.head? with
    | some .key =>
      let (key, s) ← nodeUnless [.value, .comma, .flowSequenceEnd] false false fuel s.next
      let (value, s) ←
        if s.head? = some .value then nodeUnless [.comma, .flowSequenceEnd] false false fuel s.next
        else .ok (.empty, s)
      let (more, s) ← flowItems false fuel s
      return (.mapping .byKind [(key, value)] :: more, s)
    | some .flowSequenceEnd => return ([], s.next)
    | _ =>
      let (item, s) ← node false false fuel s
      let (more, s) ← flowItems false fuel s
      return (item :: more, s)

/-- The entries of a flow mapping, up to and with its end. -/
def flowEntries (first : Bool) : Nat → Composing → Except Problem (List (Node × Node) × Composing)
  | 0, _ => .error .malformed
  | fuel + 1, s => do
    if s.head? = some .flowMappingEnd then return ([], s.next)
    let s ← if first then pure s else s.expect .comma
    match s.head? with
    | some .key =>
      let (key, s) ← nodeUnless [.value, .comma, .flowMappingEnd] false false fuel s.next
      let (value, s) ←
        if s.head? = some .value then nodeUnless [.comma, .flowMappingEnd] false false fuel s.next
        else .ok (.empty, s)
      let (more, s) ← flowEntries false fuel s
      return ((key, value) :: more, s)
    | some .flowMappingEnd => return ([], s.next)
    | _ =>
      let (key, s) ← node false false fuel s
      let (more, s) ← flowEntries false fuel s
      return ((key, .empty) :: more, s)

end

/-- The handles that need no directive. -/
def standardHandles : Table String := [("!", "!"), ("!!", "tag:yaml.org,2002:")]

/-- Reads the directives at the front; `versioned` tells whether a version was given. -/
def directives (versioned : Bool) (handles : Table String) :
    List Token → Except Problem (Table String × List Token)
  | .version major :: rest =>
    if versioned || major != 1 then .error .malformed else directives true handles rest
  | .handle name full :: rest =>
    if Table.has name handles then .error .malformed
    else directives versioned (handles ++ [(name, full)]) rest
  | .directive :: rest => directives versioned handles rest
  | rest => .ok (handles, rest)

/-- The tokens after any ends of documents. -/
def skipEnds : List Token → List Token
  | .documentEnd :: rest => skipEnds rest
  | rest => rest

end Composing

/-- A document: its root, and the nodes that its aliases stand for. -/
structure Document where
  root : Node
  anchored : Table Node
deriving Inhabited

namespace Document

/-- The token ends a document. -/
def isEnd : Token → Bool
  | .version _ | .handle _ _ | .directive | .documentStart | .documentEnd => true
  | _ => false

/-- The document that begins here, and what follows it. -/
def content (handles : Table String) (tokens : List Token) :
    Except Problem (Document × List Token) := do
  let s : Composing := { tokens := tokens, handles := handles }
  let (root, s) ← s.node true false (4 * tokens.length + 4)
  return (⟨root, s.anchored⟩, s.tokens)

/-- The document of the tokens, if there is one; there must be no second one. -/
def ofTokens? (tokens : List Token) : Except Problem (Option Document) := do
  let explicit := tokens.head?.any fun t =>
    match t with
    | .version _ | .handle _ _ | .directive | .documentStart => true
    | _ => false
  let (document, rest) ←
    if tokens.isEmpty then return none
    else if explicit then do
      let (handles, rest) ← Composing.directives false [] tokens
      match rest with
      | .documentStart :: rest =>
        let handles := handles ++ Composing.standardHandles.filter fun (name, _) => !Table.has name handles
        if rest.head?.all isEnd then pure (⟨.empty, []⟩, rest) else content handles rest
      | _ => throw .malformed
    else content Composing.standardHandles tokens
  if (Composing.skipEnds rest).isEmpty then return some document else throw .malformed

/-- The document of a text, if it holds one. -/
def ofText? (s : String) : Except Problem (Option Document) := do ofTokens? (← Token.ofText s)

end Document

end StoryRegistry.Yaml
