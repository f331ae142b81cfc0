import StoryRegistry.Glob.Rule
import StoryRegistry.Proofs.Text.Order

/-!
# What type rules match

A rule pattern matches a path exactly if the path splits into parts, one for each piece of the
pattern, that the pieces take (`ruleMatches_iff_parts`). Both sides of this are said without the
search for the parts:

* `IsReading` reads a pattern from the left, each time the longest piece that it begins with. Every
  pattern has exactly one reading, and it is that of `pieces`.
* `Piece.Takes` tells the parts that a piece takes. What a piece can leave of a text is what stands
  behind such a part (`Piece.mem_rests`); what several can leave follows by induction on the pieces.
-/

set_option autoImplicit false

namespace StoryRegistry.Glob

/-! ## Reading a pattern -/

/-- The text that stands for a piece in a pattern. -/
def Piece.text : Piece → List Char
  | folders => ['*', '*', '/']
  | anything => ['*', '*']
  | star => ['*']
  | single => ['?']
  | char c => [c]

/-- A character is a piece of its own only if it has no other meaning. -/
def Piece.IsProper : Piece → Prop
  | char c => c ≠ '*' ∧ c ≠ '?'
  | _ => True

/-- The pieces are read from a pattern left to right, each the longest that there is. -/
inductive IsReading : List Char → List Piece → Prop
  | nil : IsReading [] []
  | cons {p : Piece} {rest : List Char} {ps : List Piece} (proper : p.IsProper)
      (longest : ∀ q : Piece, q.IsProper → q.text <+: p.text ++ rest →
        q.text.length ≤ p.text.length)
      (more : IsReading rest ps) : IsReading (p.text ++ rest) (p :: ps)

/-- Every pattern is read as its pieces. -/
theorem isReading_pieces (s : List Char) : IsReading s (pieces s) := by
  fun_induction pieces s with
  | case1 rest ih =>
    refine .cons (p := .folders) trivial (fun q _ _ => ?_) ih
    cases q <;> simp [Piece.text]
  | case2 rest hslash ih =>
    refine .cons (p := .anything) trivial (fun q _ hq => ?_) ih
    cases q with
    | folders =>
      obtain ⟨after, hafter⟩ := hq
      exact absurd (@List.append_cancel_left _ ['*', '*'] _ _ hafter).symm (hslash _)
    | _ => simp [Piece.text]
  | case3 rest hstars hstar ih =>
    refine .cons (p := .star) trivial (fun q _ hq => ?_) ih
    cases q with
    | folders =>
      obtain ⟨after, hafter⟩ := hq
      exact absurd (@List.append_cancel_left _ ['*'] _ _ hafter).symm (hstars _)
    | anything =>
      obtain ⟨after, hafter⟩ := hq
      exact absurd (@List.append_cancel_left _ ['*'] _ _ hafter).symm (hstar _)
    | _ => simp [Piece.text]
  | case4 rest ih =>
    refine .cons (p := .single) trivial (fun q _ hq => ?_) ih
    cases q <;> simp_all [Piece.text]
  | case5 c rest _ _ hstar hmark ih =>
    refine .cons (p := .char c) ⟨hstar, hmark⟩ (fun q _ hq => ?_) ih
    cases q with
    | folders => exact absurd (List.cons_prefix_cons.1 hq).1.symm hstar
    | anything => exact absurd (List.cons_prefix_cons.1 hq).1.symm hstar
    | _ => simp [Piece.text]
  | case6 => exact .nil

/-- A pattern that begins with a piece, and with no longer one, is read as that piece first. -/
theorem pieces_text_append {p : Piece} {rest : List Char} (hproper : p.IsProper)
    (hlongest : ∀ q : Piece, q.IsProper → q.text <+: p.text ++ rest →
      q.text.length ≤ p.text.length) : pieces (p.text ++ rest) = p :: pieces rest := by
  have hnot (q : Piece) (hq : q.IsProper) (hlong : p.text.length < q.text.length)
      (after : List Char) : p.text ++ rest ≠ q.text ++ after := fun heq =>
    absurd (hlongest q hq ⟨after, heq.symm⟩) (Nat.not_le.2 hlong)
  cases p with
  | folders => rfl
  | anything =>
    have hslash := hnot .folders trivial (by decide)
    simp only [Piece.text, List.cons_append, List.nil_append] at hslash ⊢
    rw [pieces]
    grind
  | star =>
    have hstars := hnot .folders trivial (by decide)
    have hstar := hnot .anything trivial (by decide)
    simp only [Piece.text, List.cons_append, List.nil_append] at hstars hstar ⊢
    rw [pieces]
    · grind
    · grind
  | single => rfl
  | char c =>
    simp only [Piece.text, List.cons_append, List.nil_append]
    rw [pieces]
    · grind [Piece.IsProper]
    · grind [Piece.IsProper]
    · grind [Piece.IsProper]
    · grind [Piece.IsProper]

/-- A pattern is read as its pieces and in no other way. -/
theorem isReading_iff {s : List Char} {ps : List Piece} : IsReading s ps ↔ ps = pieces s := by
  refine ⟨fun h => ?_, fun h => h ▸ isReading_pieces s⟩
  induction h with
  | nil => rfl
  | cons proper longest _ ih => rw [pieces_text_append proper longest, ih]

/-! ## Taking parts of a text -/

/-- The piece takes the part of a path. -/
def Piece.Takes : Piece → List Char → Prop
  | folders, part => part = [] ∨ ∃ way, '\n' ∉ way ∧ part = way ++ ['/']
  | anything, part => '\n' ∉ part
  | star, part => '/' ∉ part
  | single, part => ∃ c, c ≠ '/' ∧ part = [c]
  | char c, part => part = [c]

theorem mem_restsWhile {stop : Char} {s r : List Char} :
    r ∈ restsWhile (· != stop) s ↔ ∃ part, stop ∉ part ∧ s = part ++ r := by
  induction s with
  | nil =>
    have hnil (part : List Char) : [] = part ++ r ↔ part = [] ∧ r = [] := by
      rw [eq_comm, List.append_eq_nil_iff]
    simp [restsWhile, hnil]
  | cons c rest ih =>
    rw [restsWhile, List.mem_cons]
    constructor
    · rintro (rfl | h)
      · exact ⟨[], List.not_mem_nil, rfl⟩
      · split at h
        · rename_i hc
          obtain ⟨part, hpart, rfl⟩ := ih.1 h
          exact ⟨c :: part, List.not_mem_cons_of_ne_of_not_mem (bne_iff_ne.1 hc).symm hpart, rfl⟩
        · cases h
    · rintro ⟨part, hpart, heq⟩
      cases part with
      | nil => exact .inl heq.symm
      | cons d part =>
        obtain ⟨rfl, rfl⟩ := List.cons.inj heq
        rw [if_pos (bne_iff_ne.2 (List.ne_of_not_mem_cons hpart).symm)]
        exact .inr (ih.2 ⟨part, List.not_mem_of_not_mem_cons hpart, rfl⟩)

theorem mem_restsAfterSlash {s r : List Char} :
    r ∈ restsAfterSlash s ↔ ∃ way, '\n' ∉ way ∧ s = way ++ '/' :: r := by
  induction s with
  | nil => simp [restsAfterSlash]
  | cons c rest ih =>
    -- what stands behind a later slash does so also in the longer text, if no line feed comes first
    have hfurther : r ∈ (if c == '\n' then [] else restsAfterSlash rest) ↔
        ∃ way, '\n' ∉ c :: way ∧ rest = way ++ '/' :: r := by
      by_cases hc : c = '\n'
      · simp [hc]
      · simp [hc, Ne.symm hc, ih]
    have hmem : r ∈ restsAfterSlash (c :: rest) ↔ (c = '/' ∧ rest = r) ∨
        r ∈ (if c == '\n' then [] else restsAfterSlash rest) := by
      rw [restsAfterSlash]
      by_cases hc : c = '/' <;> simp only [hc, beq_iff_eq, if_true, if_false, List.mem_cons,
        true_and, false_and, false_or, @eq_comm _ r]
    rw [hmem, hfurther]
    constructor
    · rintro (⟨rfl, rfl⟩ | ⟨way, hway, rfl⟩)
      · exact ⟨[], List.not_mem_nil, rfl⟩
      · exact ⟨c :: way, hway, rfl⟩
    · rintro ⟨way, hway, heq⟩
      cases way with
      | nil => exact .inl (List.cons.inj heq)
      | cons d way =>
        obtain ⟨rfl, rfl⟩ := List.cons.inj heq
        exact .inr ⟨way, hway, rfl⟩

/-- What a piece can leave of a text is what stands behind a part that it takes. -/
theorem Piece.mem_rests {p : Piece} {s r : List Char} :
    r ∈ p.rests s ↔ ∃ part, p.Takes part ∧ s = part ++ r := by
  cases p with
  | folders =>
    rw [rests, List.mem_cons, mem_restsAfterSlash]
    constructor
    · rintro (rfl | ⟨way, hway, rfl⟩)
      · exact ⟨[], .inl rfl, rfl⟩
      · exact ⟨way ++ ['/'], .inr ⟨way, hway, rfl⟩, by simp⟩
    · rintro ⟨part, rfl | ⟨way, hway, rfl⟩, rfl⟩
      · exact .inl rfl
      · exact .inr ⟨way, hway, by simp⟩
  | anything => exact mem_restsWhile
  | star => exact mem_restsWhile
  | single =>
    cases s with
    | nil => simp [rests, Takes]
    | cons c rest => by_cases hc : c = '/' <;> simp [rests, Takes, hc, @eq_comm _ r]
  | char a =>
    cases s with
    | nil => simp [rests, Takes]
    | cons c rest => by_cases hc : c = a <;> simp [rests, Takes, hc, @eq_comm _ r]

/-- What several pieces can leave of some texts is what stands behind parts that they take. The
induction is on the pieces, the texts being what the pieces before them can leave. -/
theorem mem_restsAfter {ps : List Piece} {texts : List (List Char)} {r : List Char} :
    r ∈ restsAfter ps texts ↔
      ∃ s ∈ texts, ∃ parts, List.Forall₂ Piece.Takes ps parts ∧ s = parts.flatten ++ r := by
  induction ps generalizing texts with
  | nil => simp [restsAfter]
  | cons p ps ih =>
    have hstep : restsAfter (p :: ps) texts =
      restsAfter ps (distinct (texts.flatMap p.rests)) := rfl
    rw [hstep, ih]
    constructor
    · rintro ⟨t, ht, parts, hparts, rfl⟩
      obtain ⟨s, hs, hrest⟩ := List.mem_flatMap.1 (mem_distinct.1 ht)
      obtain ⟨part, hpart, rfl⟩ := Piece.mem_rests.1 hrest
      exact ⟨_, hs, part :: parts, .cons hpart hparts, by simp⟩
    · rintro ⟨s, hs, parts, hparts, rfl⟩
      cases hparts with
      | @cons _ part _ parts hpart hparts =>
        refine ⟨parts.flatten ++ r, mem_distinct.2 (List.mem_flatMap.2 ⟨_, hs, ?_⟩), parts, hparts, rfl⟩
        exact Piece.mem_rests.2 ⟨part, hpart, by simp⟩

/-- A pattern has one reading from the left, each piece the longest that there is; it matches the
paths that split into consecutive parts, one for each piece, that the pieces take. -/
theorem ruleMatches_iff_parts (pattern path : String) :
    ∃ ps, (∀ qs, IsReading pattern.toList qs ↔ qs = ps) ∧
      (ruleMatches pattern path = true ↔
        ∃ parts, List.Forall₂ Piece.Takes ps parts ∧ parts.flatten = path.toList) := by
  refine ⟨pieces pattern.toList, fun qs => isReading_iff, ?_⟩
  rw [ruleMatches, List.contains_iff_mem, mem_restsAfter]
  simp [and_comm]

/-- Pieces run into one another: of four stars and a slash only the last two stars go with the slash,
and no star crosses a folder. -/
example : pieces "****/*".toList = [.anything, .folders, .star] ∧
    ruleMatches "****/*" "a/b/c" = true ∧ ruleMatches "*/c" "a/b/c" = false := by decide

end StoryRegistry.Glob
