/-!
# Cutting and joining texts

Splitting at a separator keeps empty parts, so that joining the parts with the separator gives the
text back.
-/

set_option autoImplicit false

namespace StoryRegistry.Text

/-- The parts of a text between the separators; there is always at least one part. -/
def splitOn (separator : Char) : List Char → List (List Char)
  | [] => [[]]
  | c :: rest =>
    if c = separator then [] :: splitOn separator rest
    else
      match splitOn separator rest with
      | [] => [[c]]
      | part :: parts => (c :: part) :: parts

/-- The parts put together with `separator` between them. -/
def joinWith (separator : List Char) : List (List Char) → List Char
  | [] => []
  | [part] => part
  | part :: parts => part ++ separator ++ joinWith separator parts

/-- Removes `start` from the front of the text, if the text begins with it. -/
def dropStart? : List Char → List Char → Option (List Char)
  | [], s => some s
  | _ :: _, [] => none
  | a :: start, c :: s => if a = c then dropStart? start s else none

/-- What stands before and after the first occurrence of `needle`. -/
def cutAt? (needle : List Char) : List Char → Option (List Char × List Char)
  | [] => if needle.isEmpty then some ([], []) else none
  | c :: rest =>
    match dropStart? needle (c :: rest) with
    | some after => some ([], after)
    | none => (cutAt? needle rest).map fun (before, after) => (c :: before, after)

/-- `needle` occurs in the text. -/
def occursIn (needle s : String) : Bool := (cutAt? needle.toList s.toList).isSome

/-- The text begins with `start`. -/
def beginsWith (s start : String) : Bool := (dropStart? start.toList s.toList).isSome

/-- The text ends with `finish`. -/
def endsWith (s finish : String) : Bool :=
  (dropStart? finish.toList.reverse s.toList.reverse).isSome

/-- The parts of a text between the separators. -/
def parts (separator : Char) (s : String) : List String :=
  (splitOn separator s.toList).map String.ofList

/-- A text has at least one part. -/
theorem splitOn_ne_nil (separator : Char) (s : List Char) : splitOn separator s ≠ [] := by
  cases s with
  | nil => simp [splitOn]
  | cons c rest =>
    simp only [splitOn]
    split
    · simp
    · split <;> simp

/-- The parts of a text make it up again. -/
theorem joinWith_splitOn (separator : Char) (s : List Char) :
    joinWith [separator] (splitOn separator s) = s := by
  induction s with
  | nil => rfl
  | cons c rest ih =>
    simp only [splitOn]
    by_cases h : c = separator
    · rw [if_pos h]
      cases hs : splitOn separator rest with
      | nil => exact absurd hs (splitOn_ne_nil separator rest)
      | cons part parts =>
        rw [hs] at ih
        simp [joinWith, ih, h]
    · rw [if_neg h]
      cases hs : splitOn separator rest with
      | nil => exact absurd hs (splitOn_ne_nil separator rest)
      | cons part parts =>
        rw [hs] at ih
        cases parts with
        | nil => simp_all [joinWith]
        | cons next more => simp_all [joinWith]

/-- A start is cut off exactly if the text begins with it. -/
theorem dropStart?_eq_some_iff {start s rest : List Char} :
    dropStart? start s = some rest ↔ s = start ++ rest := by
  induction start generalizing s with
  | nil => simp [dropStart?, eq_comm]
  | cons a start ih =>
    cases s with
    | nil => simp [dropStart?]
    | cons c s =>
      by_cases h : a = c
      · subst h
        simp [dropStart?, ih]
      · simp [dropStart?, h]
        intro hc
        exact absurd hc.symm h

end StoryRegistry.Text
