import Mathlib.Data.Bool.AllAny
import Mathlib.Data.List.Forall2
import Mathlib.Data.List.TakeWhile
import Mathlib.Tactic.Ring
import StoryRegistry.Proofs.Text.Ascii
import StoryRegistry.Script.Literal

/-!
# Spelled numbers

A number is spelled by digits in one of four bases, with underscores among them (`SpellsNumber`).
Where nothing follows that could go on with it, a spelled number is found to be as long as it is
(`numberSize_of_spells`), and it is read as what it spells (`numberValue?_of_spells`).
-/

set_option autoImplicit false

namespace StoryRegistry.Script

/-! ## Digits -/

/-- The character is the digit for `k` in the base. -/
def IsDigit (base : Nat) (c : Char) (k : Nat) : Prop :=
  k < base ∧ (c = Nat.digitChar k ∨ c = (Nat.digitChar k).toUpper)

/-- The number that digits with the given values denote. -/
def ofDigits (base : Nat) (values : List Nat) : Nat :=
  values.foldl (fun n k => base * n + k) 0

/-- The digits denote the number. -/
def SpellsDigits (base : Nat) (digits : List Char) (n : Nat) : Prop :=
  digits ≠ [] ∧ ∃ values, List.Forall₂ (IsDigit base) digits values ∧ n = ofDigits base values

theorem hexValue?_of_isDigit {base k : Nat} {c : Char} (hbase : base ≤ 16)
    (h : IsDigit base c k) : Text.hexValue? c = some k := by
  have hall : ∀ k < 16, Text.hexValue? (Nat.digitChar k) = some k ∧
      Text.hexValue? (Nat.digitChar k).toUpper = some k := by decide
  obtain ⟨hk, rfl | rfl⟩ := h
  · exact (hall k (by omega)).1
  · exact (hall k (by omega)).2

theorem isAlphanum_of_isHexDigit {base k : Nat} {c : Char} (hbase : base ≤ 16)
    (h : IsDigit base c k) : c.isAlphanum = true := by
  have hall : ∀ k < 16, (Nat.digitChar k).isAlphanum = true ∧
      (Nat.digitChar k).toUpper.isAlphanum = true := by decide
  obtain ⟨hk, rfl | rfl⟩ := h
  · exact (hall k (by omega)).1
  · exact (hall k (by omega)).2

theorem isDigit_of_isDecimal {k : Nat} {c : Char} (h : IsDigit 10 c k) : c.isDigit = true := by
  have hall : ∀ k < 10, (Nat.digitChar k).isDigit = true ∧
      (Nat.digitChar k).toUpper.isDigit = true := by decide
  obtain ⟨hk, rfl | rfl⟩ := h
  · exact (hall k hk).1
  · exact (hall k hk).2

/-- Digits are read from the front on, each after what stands before it. -/
theorem foldl_digits {value? : Char → Option Nat} {base : Nat} {digits : List Char}
    {values : List Nat} (h : List.Forall₂ (fun c k => value? c = some k) digits values) (n : Nat) :
    digits.foldl
        (fun n c => do
          let n ← n
          let d ← value? c
          some (base * n + d))
        (some n) =
      some (values.foldl (fun n k => base * n + k) n) := by
  induction h generalizing n with
  | nil => rfl
  | cons hhead _ ih =>
    rw [List.foldl_cons, List.foldl_cons, ← ih]
    simp [hhead]

theorem hexNumber?_of_spells {digits : List Char} {n : Nat} (h : SpellsDigits 16 digits n) :
    hexNumber? digits = some n := by
  obtain ⟨hne, values, hdigits, rfl⟩ := h
  have hread := hdigits.imp fun _ _ hdigit => hexValue?_of_isDigit le_rfl hdigit
  have hfilled : digits.isEmpty = false := by simpa using hne
  unfold hexNumber?
  rw [hfilled, if_neg Bool.false_ne_true]
  exact foldl_digits hread 0

theorem numberIn?_of_spells {base : Nat} {digits : List Char} {n : Nat} (hbase : base ≤ 16)
    (h : SpellsDigits base digits n) : numberIn? base digits = some n := by
  obtain ⟨hne, values, hdigits, rfl⟩ := h
  have hread : List.Forall₂ (fun c k => digitIn? base c = some k) digits values :=
    hdigits.imp fun c k hdigit => by
      rw [digitIn?, hexValue?_of_isDigit hbase hdigit, Option.bind_some, if_pos hdigit.1]
  have hfilled : digits.isEmpty = false := by simpa using hne
  unfold numberIn?
  rw [hfilled, if_neg Bool.false_ne_true]
  exact foldl_digits hread 0

/-- Digits of which the first is not nought denote at least the power of the base they reach. -/
theorem pow_le_ofDigits {base n : Nat} {c : Char} {digits : List Char}
    (h : SpellsDigits base (c :: digits) n) (hc : c ≠ '0') : base ^ digits.length ≤ n := by
  have hgrow (values : List Nat) (start : Nat) :
      start * base ^ values.length ≤ values.foldl (fun n k => base * n + k) start := by
    induction values generalizing start with
    | nil => simp
    | cons k values ih =>
      calc start * base ^ (values.length + 1)
          = base * start * base ^ values.length := by ring
        _ ≤ (base * start + k) * base ^ values.length :=
            Nat.mul_le_mul_right _ (Nat.le_add_right _ _)
        _ ≤ _ := ih (base * start + k)
  obtain ⟨-, values, hdigits, rfl⟩ := h
  cases hdigits with
  | @cons _ k _ values hfirst hmore =>
    have hk : 1 ≤ k := by
      by_contra hnone
      obtain rfl : k = 0 := by omega
      obtain ⟨-, rfl | rfl⟩ := hfirst
      · exact hc rfl
      · exact hc rfl
    calc base ^ digits.length
        = base ^ values.length := by rw [hmore.length_eq]
      _ ≤ k * base ^ values.length := Nat.le_mul_of_pos_left _ hk
      _ ≤ ofDigits base (k :: values) := by simpa [ofDigits] using hgrow values k

/-! ## Numbers -/

/-- The text without its underscores. -/
def digitsOf (text : List Char) : List Char := text.filter (· != '_')

/-- The letters that announce a base. -/
def baseMarks : List (Char × Nat) := [('x', 16), ('X', 16), ('o', 8), ('O', 8), ('b', 2), ('B', 2)]

/-- The text spells the number in one of four bases, with underscores among the digits. In decimal
digits only nought begins with nought, and only so many digits are read. -/
inductive SpellsNumber (n : Nat) : List Char → Prop where
  | decimal {text : List Char} (hfirst : ∀ c ∈ text.head?, c ≠ '_')
      (hzero : (digitsOf text).head? = some '0' → digitsOf text = ['0'])
      (hfits : Value.intFits n = true) (h : SpellsDigits 10 (digitsOf text) n) :
      SpellsNumber n text
  | based {mark : Char} {base : Nat} {text : List Char} (hmark : (mark, base) ∈ baseMarks)
      (h : SpellsDigits base (digitsOf text) n) : SpellsNumber n ('0' :: mark :: text)

/-- What a number literal may be followed by. -/
def EndsNumber (rest : List Char) : Prop :=
  ∀ c ∈ rest.head?, c.isAlphanum = false ∧ c ≠ '_' ∧ c ≠ '.'

theorem base_le_of_mem {mark : Char} {base : Nat} (h : (mark, base) ∈ baseMarks) : base ≤ 16 := by
  have hall : ∀ p ∈ baseMarks, p.2 ≤ 16 := by decide
  exact hall _ h

theorem mem_digitsOf_or {text : List Char} {c : Char} (hc : c ∈ text) :
    c ∈ digitsOf text ∨ c = '_' := by
  by_cases h : c = '_'
  · exact Or.inr h
  · exact Or.inl (List.mem_filter.2 ⟨hc, by simpa using h⟩)

theorem ne_of_isHexDigit {base k : Nat} {c : Char} (hbase : base ≤ 16) (h : IsDigit base c k) :
    c ≠ 'n' ∧ c ≠ '_' := by
  have hall : ∀ k < 16, (Nat.digitChar k ≠ 'n' ∧ Nat.digitChar k ≠ '_') ∧
      (Nat.digitChar k).toUpper ≠ 'n' ∧ (Nat.digitChar k).toUpper ≠ '_' := by decide
  obtain ⟨hk, rfl | rfl⟩ := h
  · exact (hall k (by omega)).1
  · exact (hall k (by omega)).2

theorem SpellsDigits.exists_isDigit {base n : Nat} {digits : List Char}
    (h : SpellsDigits base digits n) : ∀ c ∈ digits, ∃ k, IsDigit base c k := by
  obtain ⟨-, values, hdigits, -⟩ := h
  clear * - hdigits
  induction hdigits with
  | nil => simp
  | @cons c k _ _ hdigit _ ih =>
    intro d hd
    rcases List.mem_cons.1 hd with rfl | hd
    · exact ⟨k, hdigit⟩
    · exact ih d hd

theorem takeWhile_append_of_ends {p : Char → Bool} {text rest : List Char}
    (htext : ∀ c ∈ text, p c = true) (hrest : ∀ c ∈ rest.head?, p c = false) :
    (text ++ rest).takeWhile p = text := by
  rw [List.takeWhile_append_of_pos htext]
  cases rest with
  | nil => simp
  | cons c rest => simp [hrest c rfl]

/-- No digit ends a big integer. -/
theorem getLast?_ne_of_spells {base n : Nat} {digits : List Char} (front : List Char)
    (hbase : base ≤ 16) (h : SpellsDigits base digits n) : ((front ++ digits).getLast? == some 'n') = false := by
  rw [List.getLast?_append, List.getLast?_eq_some_getLast h.1, Option.some_or]
  obtain ⟨k, hdigit⟩ := h.exists_isDigit _ (List.getLast_mem h.1)
  simpa using (ne_of_isHexDigit hbase hdigit).1

theorem length_le_of_lt_pow {base n limit : Nat} {c : Char} {digits : List Char}
    (hbase : 1 < base) (h : SpellsDigits base (c :: digits) n) (hc : c ≠ '0')
    (hn : n < Nat.pow base limit) : (c :: digits).length ≤ limit := by
  rw [Nat.pow_eq] at hn
  exact (Nat.pow_lt_pow_iff_right hbase).1 (lt_of_le_of_lt (pow_le_ofDigits h hc) hn)

theorem length_le_of_intFits {n : Nat} {digits : List Char} (h : SpellsDigits 10 digits n)
    (hzero : digits.head? = some '0' → digits = ['0']) (hfits : Value.intFits n = true) :
    digits.length ≤ Value.maxIntDigits := by
  cases digits with
  | nil => exact Nat.zero_le _
  | cons c digits =>
    by_cases hc : c = '0'
    · subst hc
      rw [hzero rfl]
      decide
    · rw [Value.intFits, decide_eq_true_iff, Int.natAbs_natCast] at hfits
      generalize Value.maxIntDigits = limit at hfits ⊢
      exact length_le_of_lt_pow (by decide) h hc hfits

/-- A spelled number is read as what it spells. -/
theorem numberValue?_of_spells {n : Nat} {text : List Char} (h : SpellsNumber n text) :
    numberValue? (String.ofList text) = some (.int n) := by
  unfold numberValue?
  rw [String.toList_ofList]
  cases h with
  | decimal hfirst hzero hfits h =>
    have hread := numberIn?_of_spells (by decide) h
    have hlast := getLast?_ne_of_spells [] (by decide) h
    have hlen := length_le_of_intFits h hzero hfits
    have hdigit : ∀ c ∈ digitsOf text, c.isDigit = true := fun c hc => by
      obtain ⟨k, hk⟩ := h.exists_isDigit c hc
      exact isDigit_of_isDecimal hk
    have hplain : (digitsOf text).any (fun c => c == '.' || c == 'e' || c == 'E') = false := by
      rw [List.any_eq_false]
      intro c hc hmark
      have hthis := hdigit c hc
      simp only [Bool.or_eq_true, beq_iff_eq] at hmark
      rcases hmark with (rfl | rfl) | rfl <;> exact absurd hthis (by decide)
    rw [List.nil_append] at hlast
    change (if (digitsOf text).getLast? == some 'n' then none else _) = _
    rw [hlast, if_neg Bool.false_ne_true]
    rw [show text.filter (· != '_') = digitsOf text from rfl]
    dsimp only
    split
    case h_7 =>
      rw [hplain]
      rw [if_neg Bool.false_ne_true, if_neg (Nat.not_lt.2 hlen), hread]
      rfl
    all_goals
      rename_i heq
      exact absurd (hdigit _ (heq ▸ List.mem_cons_of_mem _ List.mem_cons_self)) (by decide)
  | @based mark base body hmark h =>
    have hbase := base_le_of_mem hmark
    have hread := numberIn?_of_spells hbase h
    have hlast := getLast?_ne_of_spells ['0', mark] hbase h
    have hdigits : ('0' :: mark :: body).filter (· != '_') = '0' :: mark :: digitsOf body := by
      have hmarks : ∀ p ∈ baseMarks, p.1 ≠ '_' := by decide
      simp [digitsOf, hmarks _ hmark]
    rw [hdigits]
    change (if (['0', mark] ++ digitsOf body).getLast? == some 'n' then none else _) = _
    rw [hlast, if_neg Bool.false_ne_true]
    simp only [baseMarks, List.mem_cons, Prod.mk.injEq, List.not_mem_nil, or_false] at hmark
    rcases hmark with ⟨rfl, rfl⟩ | ⟨rfl, rfl⟩ | ⟨rfl, rfl⟩ | ⟨rfl, rfl⟩ | ⟨rfl, rfl⟩ | ⟨rfl, rfl⟩ <;>
      simp only [hread] <;> rfl

theorem decimal_append {text rest : List Char} (hne : text ≠ [])
    (htext : ∀ c ∈ text, c.isDigit = true ∨ c = '_') (hrest : EndsNumber rest) :
    numberSize.decimal (text ++ rest) = text.length := by
  have hends : ∀ c ∈ rest.head?, (c.isDigit || c == '_') = false := by
    intro c hc
    obtain ⟨halnum, hunder, -⟩ := hrest c hc
    have hdigit : c.isDigit = false := by
      cases h : c.isDigit with
      | false => rfl
      | true => exact absurd halnum (by simp [Text.isAlphanum_of_isDigit h])
    simp [hdigit, hunder]
  have hwhole : digitsSize (text ++ rest) = text.length := by
    rw [digitsSize, takeWhile_append_of_ends (by simpa using htext) hends]
  have hfraction : (rest.head? == some '.') = false := by
    cases rest with
    | nil => rfl
    | cons c rest => simpa using (hrest c rfl).2.2
  have hletter {d : Char} (hd : d.isAlphanum = true) : (rest.head? == some d) = false := by
    cases rest with
    | nil => rfl
    | cons c rest =>
      have hne : c ≠ d := by
        rintro rfl
        rw [(hrest c rfl).1] at hd
        exact Bool.noConfusion hd
      simpa using hne
  have hexponent : exponentSize rest = 0 := by
    cases rest with
    | nil => rfl
    | cons c rest =>
      have he : (c == 'e') = false := by simpa using hletter (d := 'e') (by decide)
      have hE : (c == 'E') = false := by simpa using hletter (d := 'E') (by decide)
      simp [exponentSize, he, hE]
  have hn := hletter (d := 'n') (by decide)
  simp [numberSize.decimal, hwhole, hfraction, hexponent, hn, hne]

/-- What may stand behind a nought announces no base. -/
theorem contains_marks_of_next {c : Char}
    (h : c.isDigit = true ∨ c = '_' ∨ c.isAlphanum = false) :
    "xXoObB".toList.contains c = false := by
  have hmarks : ∀ m ∈ ['x', 'X', 'o', 'O', 'b', 'B'],
      m.isDigit = false ∧ m ≠ '_' ∧ m.isAlphanum = true := List.all_iff_forall_prop.1 (by decide)
  cases hmark : "xXoObB".toList.contains c with
  | false => rfl
  | true =>
    obtain ⟨hdigit, hunder, halnum⟩ := hmarks c (List.contains_iff_mem.1 hmark)
    rcases h with h | h | h
    · exact absurd h (by simp [hdigit])
    · exact absurd h hunder
    · exact absurd h (by simp [halnum])

/-- A spelled number is found to be as long as it is. -/
theorem numberSize_of_spells {n : Nat} {text rest : List Char} (h : SpellsNumber n text)
    (hrest : EndsNumber rest) : numberSize (text ++ rest) = text.length := by
  cases h with
  | decimal hfirst hzero hfits h =>
    have hchars : ∀ c ∈ text, c.isDigit = true ∨ c = '_' := by
      intro c hc
      refine (mem_digitsOf_or hc).imp_left fun hin => ?_
      obtain ⟨k, hk⟩ := h.exists_isDigit c hin
      exact isDigit_of_isDecimal hk
    have hne : text ≠ [] := by
      rintro rfl
      exact h.1 rfl
    have hdecimal := decimal_append hne hchars hrest
    unfold numberSize
    split
    · -- what stands behind the nought is a digit or cannot follow a number
      rename_i b tail heq
      have hnext : b.isDigit = true ∨ b = '_' ∨ b.isAlphanum = false := by
        cases text with
        | nil => exact absurd rfl hne
        | cons c more =>
          obtain ⟨-, heq⟩ := List.cons.inj heq
          cases more with
          | nil =>
            obtain rfl : rest = b :: tail := heq
            exact Or.inr (Or.inr (hrest b rfl).1)
          | cons d more =>
            obtain ⟨rfl, -⟩ := List.cons.inj heq
            exact (hchars d (by simp)).imp_right Or.inl
      rw [contains_marks_of_next hnext, if_neg Bool.false_ne_true, hdecimal]
    · exact hdecimal
  | @based mark base body hmark h =>
    have hbase := base_le_of_mem hmark
    have hmarks : ∀ p ∈ baseMarks, "xXoObB".toList.contains p.1 = true ∧ p.1.isAlphanum = true := by
      decide
    have hall : ∀ c ∈ '0' :: mark :: body, (c.isAlphanum || c == '_') = true := by
      intro c hc
      rcases List.mem_cons.1 hc with rfl | hc
      · rfl
      · rcases List.mem_cons.1 hc with rfl | hc
        · rw [(hmarks _ hmark).2, Bool.true_or]
        · rcases mem_digitsOf_or hc with hin | rfl
          · obtain ⟨k, hk⟩ := h.exists_isDigit c hin
            rw [isAlphanum_of_isHexDigit hbase hk, Bool.true_or]
          · rfl
    have hends : ∀ c ∈ rest.head?, (c.isAlphanum || c == '_') = false := by
      intro c hc
      obtain ⟨halnum, hunder, -⟩ := hrest c hc
      simp [halnum, hunder]
    show (if "xXoObB".toList.contains mark then alnumSize ('0' :: mark :: body ++ rest)
      else _) = _
    rw [(hmarks _ hmark).1, if_pos rfl, alnumSize, takeWhile_append_of_ends hall hends]

end StoryRegistry.Script
