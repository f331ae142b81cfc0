import StoryRegistry.Proofs.Table
import StoryRegistry.Settings.Reading

/-!
# Values as YAML data

A value that is written plainly denotes a tree of data: its texts, truth values and numbers stand for
themselves, its lists for lists, and its maps for mappings with texts as keys. In such a tree, which
has no anchors, the entry of a name is what the map has there.
-/

set_option autoImplicit false

namespace StoryRegistry.Yaml

namespace Data

/-! ## Data that a value denotes -/

mutual

/-- The data that a value denotes. -/
def ofValue : Value → Data
  | .null => null
  | .bool b => bool b
  | .int n => int n
  | .double x => double x
  | .string s | .code s => text s
  | .list items => list (ofItems items)
  | .map entries => map (ofFields entries)

/-- The data that the items of a list denote. -/
def ofItems : List Value → List Data
  | [] => []
  | v :: rest => ofValue v :: ofItems rest

/-- The data that the entries of a map denote. -/
def ofFields : List (String × Value) → List (Data × Data)
  | [] => []
  | (name, v) :: rest => (text name, ofValue v) :: ofFields rest

end

theorem ofItems_eq_map (items : List Value) : ofItems items = items.map ofValue := by
  induction items with
  | nil => rfl
  | cons v rest ih => rw [ofItems, ih, List.map_cons]

/-! ## Comparing data -/

mutual

/-- The two pieces of data are the same. -/
def same : Data → Data → Bool
  | null, null => true
  | bool a, bool b => a == b
  | int a, int b => a == b
  | double a, double b => a == b
  | text a, text b => a == b
  | bytes a, bytes b => a == b
  | time a, time b => a == b
  | list xs, list ys => sameItems xs ys
  | map xs, map ys => sameEntries xs ys
  | unit, unit => true
  | reference a, reference b => a == b
  | _, _ => false

/-- The two lists of data are the same. -/
def sameItems : List Data → List Data → Bool
  | [], [] => true
  | x :: xs, y :: ys => same x y && sameItems xs ys
  | _, _ => false

/-- The two lists of entries are the same. -/
def sameEntries : List (Data × Data) → List (Data × Data) → Bool
  | [], [] => true
  | (k, x) :: xs, (l, y) :: ys => same k l && same x y && sameEntries xs ys
  | _, _ => false

end

mutual

theorem same_iff : ∀ a b : Data, same a b = true ↔ a = b
  | null, b => by cases b <;> simp [same]
  | bool a, b => by cases b <;> simp [same]
  | int a, b => by cases b <;> simp [same]
  | double a, b => by cases b <;> simp [same]
  | text a, b => by cases b <;> simp [same]
  | bytes a, b => by cases b <;> simp [same]
  | time a, b => by cases b <;> simp [same]
  | list xs, b => by cases b <;> simp [same, sameItems_iff xs]
  | map xs, b => by cases b <;> simp [same, sameEntries_iff xs]
  | unit, b => by cases b <;> simp [same]
  | reference a, b => by cases b <;> simp [same]

theorem sameItems_iff : ∀ xs ys : List Data, sameItems xs ys = true ↔ xs = ys
  | [], ys => by cases ys <;> simp [sameItems]
  | x :: xs, ys => by cases ys <;> simp [sameItems, same_iff x, sameItems_iff xs]

theorem sameEntries_iff : ∀ xs ys : List (Data × Data), sameEntries xs ys = true ↔ xs = ys
  | [], ys => by cases ys <;> simp [sameEntries]
  | (k, x) :: xs, ys => by
    cases ys <;> simp [sameEntries, same_iff k, same_iff x, sameEntries_iff xs, Prod.ext_iff]

end

instance : DecidableEq Data := fun a b => decidable_of_iff (same a b = true) (same_iff a b)

end Data

deriving instance DecidableEq for Tree

/-! ## Trees without anchors -/

namespace Tree

/-- The tree of a value that is written without anchors. -/
def ofValue (v : Value) : Tree := ⟨.ofValue v, []⟩

/-- In a tree of a value nothing stands for something else. -/
theorem follow_ofValue (v w : Value) : (ofValue v).follow (.ofValue w) = .ofValue w := by
  cases w <;> rw [Data.ofValue] <;> rfl

end Tree

end StoryRegistry.Yaml

namespace StoryRegistry.Settings

open Yaml

variable {v : Value} {entries : Table Value} {name : String}

/-- The entry of a name is what the map has there. -/
theorem dataAt?_ofFields (v : Value) (name : String) (entries : Table Value) :
    dataAt? (.ofValue v) name (Data.ofFields entries) = (Table.get? name entries).map Data.ofValue := by
  unfold dataAt?
  induction entries with
  | nil => rfl
  | cons e rest ih =>
    obtain ⟨key, w⟩ := e
    rw [Data.ofFields, Table.get?]
    by_cases hkey : key = name
    · simp [Data.sameKey, hkey, Tree.follow_ofValue]
    · rw [if_neg hkey, ← ih]
      simp [Data.sameKey, hkey]

theorem entry_ofFields (v : Value) (name : String) (entries : Table Value) :
    entry (.ofValue v) name (Data.ofFields entries) = .ofValue (Value.entry name entries) := by
  rw [entry, dataAt?_ofFields, Value.entry]
  cases Table.get? name entries <;> rfl

theorem entriesOf_ofValue (entries : Table Value) :
    entriesOf (Data.ofValue (.map entries)) = Data.ofFields entries := by
  rw [Data.ofValue, entriesOf]

end StoryRegistry.Settings
