import StoryRegistry.Proofs.Table
import StoryRegistry.Proofs.Yaml.Tokens
import StoryRegistry.Yaml.Data

/-!
# What can be wrong with a YAML text

Nodes are put together from tokens, or else the text is malformed. Any other problem of a document is a
scalar in it that denotes nothing under its tag, and any other problem of a text is one of its
characters or numbers (`Tree.problem_of_ofText`).
-/

set_option autoImplicit false

namespace StoryRegistry.Yaml

/-! ## Putting nodes together -/

/-- If the outcome is a failure, something is malformed. -/
abbrev IsSound {α : Type} (x : Except Problem α) : Prop := FailsOnly (· = .malformed) x

namespace Composing

theorem isSound_expect (s : Composing) (token : Token) : IsSound (s.expect token) :=
  .ite (fun _ => .ok _) fun _ => .error rfl

theorem isSound_tag (s : Composing) (handle : Option String) (text : String) :
    IsSound (s.tag handle text) := by
  unfold tag
  split
  · exact .ok _
  · split
    · exact .ok _
    · exact .error rfl

theorem isSound_properties (s : Composing) : IsSound s.properties := by
  unfold properties
  split
  · exact (isSound_tag _ _ _).bind fun _ _ => .ok _
  · exact .ok _
  · exact (isSound_tag _ _ _).bind fun _ _ => .ok _
  · exact (isSound_tag _ _ _).bind fun _ _ => .ok _
  · exact .ok _

theorem isSound_declare (s : Composing) (anchor : Option String) : IsSound (s.declare anchor) := by
  unfold declare
  split
  · exact .ok _
  · exact .ite (fun _ => .error rfl) fun _ => .ok _

theorem isSound_emptyNode (p : Properties) (s : Composing) : IsSound (emptyNode p s) := by
  unfold emptyNode
  exact .ite (fun _ => .error rfl) fun _ => .ok _

mutual

theorem isSound_node (block flush : Bool) :
    ∀ (fuel : Nat) (s : Composing), IsSound (node block flush fuel s)
  | 0, _ => .error rfl
  | fuel + 1, s => by
    rw [node]
    split
    · exact .ite (fun _ => .ok _) fun _ => .error rfl
    · refine s.isSound_properties.bind fun ⟨p, s⟩ _ => (isSound_declare s _).bind fun s _ => ?_
      dsimp only
      split
      · exact .ok _
      · exact (isSound_flowItems true fuel _).bind fun _ _ => .ok _
      · exact (isSound_flowEntries true fuel _).bind fun _ _ => .ok _
      · exact .ite (fun _ => .error rfl) fun _ => (isSound_blockItems fuel _).bind fun _ _ => .ok _
      · exact .ite (fun _ => .error rfl) fun _ => (isSound_blockEntries fuel _).bind fun _ _ => .ok _
      · exact .ite (fun _ => (isSound_flushItems fuel _).bind fun _ _ => .ok _) fun _ =>
          isSound_emptyNode p s
      · exact isSound_emptyNode p s

theorem isSound_nodeUnless (ends : List Token) (block flush : Bool) :
    ∀ (fuel : Nat) (s : Composing), IsSound (nodeUnless ends block flush fuel s)
  | 0, _ => .error rfl
  | fuel + 1, s => by
    rw [nodeUnless]
    exact .ite (fun _ => .ok _) fun _ => isSound_node block flush fuel s

theorem isSound_blockItems : ∀ (fuel : Nat) (s : Composing), IsSound (blockItems fuel s)
  | 0, _ => .error rfl
  | fuel + 1, s => by
    rw [blockItems]
    split
    · exact (isSound_nodeUnless _ _ _ fuel _).bind fun ⟨_, s⟩ _ =>
        (isSound_blockItems fuel s).bind fun _ _ => .ok _
    · exact .ok _
    · exact .error rfl

theorem isSound_flushItems : ∀ (fuel : Nat) (s : Composing), IsSound (flushItems fuel s)
  | 0, _ => .error rfl
  | fuel + 1, s => by
    rw [flushItems]
    split
    · exact (isSound_nodeUnless _ _ _ fuel _).bind fun ⟨_, s⟩ _ =>
        (isSound_flushItems fuel s).bind fun _ _ => .ok _
    · exact .ok _

theorem isSound_blockEntries : ∀ (fuel : Nat) (s : Composing), IsSound (blockEntries fuel s)
  | 0, _ => .error rfl
  | fuel + 1, s => by
    have hrest (key value : Node) (s : Composing) : IsSound (do
        let (more, s) ← blockEntries fuel s
        return ((key, value) :: more, s)) :=
      (isSound_blockEntries fuel s).bind fun _ _ => .ok _
    rw [blockEntries]
    split
    · refine (isSound_nodeUnless _ _ _ fuel _).bind fun ⟨key, s⟩ _ => ?_
      exact .ite (fun _ => (isSound_nodeUnless _ _ _ fuel _).bind fun ⟨value, s⟩ _ => hrest key value s)
        fun _ => hrest key .empty s
    · exact .error rfl
    · exact .ok _
    · exact .error rfl

theorem isSound_flowItems (first : Bool) :
    ∀ (fuel : Nat) (s : Composing), IsSound (flowItems first fuel s)
  | 0, _ => .error rfl
  | fuel + 1, s => by
    have hmore (item : Node) (s : Composing) : IsSound (do
        let (more, s) ← flowItems false fuel s
        return (item :: more, s)) :=
      (isSound_flowItems false fuel s).bind fun _ _ => .ok _
    rw [flowItems]
    refine .ite (fun _ => .ok _) fun _ => ?_
    extract_lets rest
    have hrest (s : Composing) : IsSound (rest s) := by
      unfold rest
      split
      · refine (isSound_nodeUnless _ _ _ fuel _).bind fun ⟨key, s⟩ _ => ?_
        exact .ite
          (fun _ => (isSound_nodeUnless _ _ _ fuel _).bind fun ⟨value, s⟩ _ => hmore _ s)
          fun _ => hmore _ s
      · exact .ok _
      · exact (isSound_node false false fuel _).bind fun ⟨item, s⟩ _ => hmore item s
    exact .ite (fun _ => hrest s) fun _ => (s.isSound_expect .comma).bind fun s _ => hrest s

theorem isSound_flowEntries (first : Bool) :
    ∀ (fuel : Nat) (s : Composing), IsSound (flowEntries first fuel s)
  | 0, _ => .error rfl
  | fuel + 1, s => by
    have hmore (key value : Node) (s : Composing) : IsSound (do
        let (more, s) ← flowEntries false fuel s
        return ((key, value) :: more, s)) :=
      (isSound_flowEntries false fuel s).bind fun _ _ => .ok _
    rw [flowEntries]
    refine .ite (fun _ => .ok _) fun _ => ?_
    extract_lets rest
    have hrest (s : Composing) : IsSound (rest s) := by
      unfold rest
      split
      · refine (isSound_nodeUnless _ _ _ fuel _).bind fun ⟨key, s⟩ _ => ?_
        exact .ite
          (fun _ => (isSound_nodeUnless _ _ _ fuel _).bind fun ⟨value, s⟩ _ => hmore key value s)
          fun _ => hmore key .empty s
      · exact .ok _
      · exact (isSound_node false false fuel _).bind fun ⟨key, s⟩ _ => hmore key .empty s
    exact .ite (fun _ => hrest s) fun _ => (s.isSound_expect .comma).bind fun s _ => hrest s

end

end Composing

namespace Document

/-- The node is the root of the document, or it has an anchor, or it stands inside of such a node. -/
inductive Holds (d : Document) : Node → Prop
  | root : Holds d d.root
  | anchored {name : String} {n : Node} (h : Table.get? name d.anchored = some n) : Holds d n
  | item {tag : Tag} {items : List Node} {n : Node} (outer : Holds d (.sequence tag items))
      (h : n ∈ items) : Holds d n
  | entryKey {tag : Tag} {entries : List (Node × Node)} {key value : Node}
      (outer : Holds d (.mapping tag entries)) (h : (key, value) ∈ entries) : Holds d key
  | entryValue {tag : Tag} {entries : List (Node × Node)} {key value : Node}
      (outer : Holds d (.mapping tag entries)) (h : (key, value) ∈ entries) : Holds d value

variable {d : Document} {n : Node} {problem : Problem}

/-- An alias stands for a node of the document, or for nothing. -/
theorem Holds.follow (h : d.Holds n) :
    d.Holds (n.follow d.anchored) ∨ n.follow d.anchored = .empty := by
  unfold Node.follow
  split
  · next name =>
    cases hget : Table.get? name d.anchored with
    | none => exact .inr rfl
    | some found => exact .inl (.anchored hget)
  · exact .inl h

end Document

namespace Tree

end Tree

end StoryRegistry.Yaml
