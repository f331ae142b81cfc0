/-!
# Tables in insertion order

A table is a list of named entries. Setting a name that is already there keeps its place; a new
name goes to the end. Names are texts for the most part; the operations ask only that names can be
compared.
-/

set_option autoImplicit false

namespace StoryRegistry

/-- Named entries in the order in which the names first came. -/
abbrev Table (α : Type) := List (String × α)

namespace Table

variable {κ α β : Type}

/-- The entry of a name. -/
def get? [DecidableEq κ] (name : κ) : List (κ × α) → Option α
  | [] => none
  | (key, entry) :: rest => if key = name then some entry else get? name rest

/-- The table has an entry of that name. -/
def has [DecidableEq κ] (name : κ) (t : List (κ × α)) : Bool := (get? name t).isSome

/-- Sets the entry of a name: in place if the name is there, else at the end. -/
def set [DecidableEq κ] (name : κ) (entry : α) : List (κ × α) → List (κ × α)
  | [] => [(name, entry)]
  | (key, old) :: rest =>
    if key = name then (key, entry) :: rest else (key, old) :: set name entry rest

/-- Sets the entry of a name that is not there yet. -/
def setNew [DecidableEq κ] (name : κ) (entry : α) (t : List (κ × α)) : List (κ × α) :=
  if has name t then t else t ++ [(name, entry)]

/-- The table in which the entries are set one after another. -/
def ofList (entries : List (String × α)) : Table α :=
  entries.foldl (fun t (name, entry) => set name entry t) []

/-- Sets every entry of `more`, in its order. -/
def merge (t more : Table α) : Table α :=
  more.foldl (fun t (name, entry) => set name entry t) t

/-- The names in order. -/
def names (t : List (κ × α)) : List κ := t.map Prod.fst

/-- The same names with changed entries. -/
def mapEntries (f : α → β) (t : List (κ × α)) : List (κ × β) :=
  t.map fun (name, entry) => (name, f entry)

/-- An entry that was set is found. -/
theorem get?_set_self [DecidableEq κ] (name : κ) (entry : α) (t : List (κ × α)) :
    get? name (set name entry t) = some entry := by
  induction t with
  | nil => simp [set, get?]
  | cons head rest ih =>
    obtain ⟨key, old⟩ := head
    by_cases h : key = name <;> simp [set, get?, h, ih]

/-- Setting an entry leaves the others as they are. -/
theorem get?_set_of_ne [DecidableEq κ] {name other : κ} (h : other ≠ name) (entry : α)
    (t : List (κ × α)) : get? other (set name entry t) = get? other t := by
  induction t with
  | nil => simp [set, get?, Ne.symm h]
  | cons head rest ih =>
    obtain ⟨key, old⟩ := head
    by_cases hk : key = name
    · simp [set, get?, hk, Ne.symm h]
    · by_cases ho : key = other
      · subst ho
        simp [set, get?, hk]
      · simp [set, get?, hk, ho, ih]

end Table

end StoryRegistry
