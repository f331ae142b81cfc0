import Mathlib.Data.List.TakeWhile
import StoryRegistry.Proofs.Text.Order
import StoryRegistry.Proofs.Text.Split

/-!
# Expanding any text

Expanding a text replaces the first group that holds no bracket of its kind, over and over, until no
such group is left. The bound on the number of replacements is never reached, since each of them takes
an opening bracket away (`openings_lt_of_choices?`). So a text expands to what its choices expand to
(`expand_eq`), and no such group is left in it (`choices?_eq_none_of_mem_expansion`).
-/

set_option autoImplicit false

namespace StoryRegistry.Glob

open Text

/-! ## The next group -/

namespace Group

variable {g : Group} {s before inside after : List Char}

/-- The text holds a group with no bracket of its kind inside. -/
structure Splits (g : Group) (s before inside after : List Char) : Prop where
  text : s = before ++ (g.start ++ g.bracket :: (inside ++ g.finish :: after))
  noBracket : g.bracket ∉ inside
  noFinish : g.finish ∉ inside

theorem forall_isInner (hbracket : g.bracket ∉ inside) (hfinish : g.finish ∉ inside) :
    ∀ c ∈ inside, (c != g.bracket && c != g.finish) = true := by
  intro c hc
  rw [Bool.and_eq_true, bne_iff_ne, bne_iff_ne]
  exact ⟨fun h => hbracket (h ▸ hc), fun h => hfinish (h ▸ hc)⟩

/-- A group is found at the front exactly if there is one with no bracket of its kind inside. -/
theorem front?_eq_some_iff :
    g.front? s = some (inside, after) ↔ g.Splits s [] inside after := by
  unfold front?
  constructor
  · intro h
    split at h
    · cases h
    · rename_i rest hrest
      have hs := dropStart?_eq_some_iff.1 hrest
      dsimp only at h
      split at h
      · rename_i c tail htail
        split at h
        · rename_i hc
          obtain ⟨rfl, rfl⟩ := Prod.mk.inj (Option.some.inj h)
          have hsplit := List.takeWhile_append_dropWhile (l := rest)
            (p := fun c => c != g.bracket && c != g.finish)
          rw [htail, hc] at hsplit
          refine ⟨?_, fun hmem => ?_, fun hmem => ?_⟩
          · rw [hs]
            simp [hsplit]
          · simpa using List.mem_takeWhile_imp hmem
          · simpa using List.mem_takeWhile_imp hmem
        · cases h
      · cases h
  · rintro ⟨rfl, hbracket, hfinish⟩
    have hall := forall_isInner hbracket hfinish
    have hdrop : dropStart? (g.start ++ [g.bracket])
        (g.start ++ g.bracket :: (inside ++ g.finish :: after)) = some (inside ++ g.finish :: after) :=
      dropStart?_eq_some_iff.2 (by simp)
    rw [List.nil_append, hdrop]
    simp only [List.dropWhile_append_of_pos hall, List.takeWhile_append_of_pos hall]
    simp

/-- The first group that is found has no bracket of its kind inside. -/
theorem splits_of_first? (h : g.first? s = some (before, inside, after)) :
    g.Splits s before inside after := by
  induction s generalizing before with
  | nil => cases h
  | cons c rest ih =>
    unfold first? at h
    split at h
    · rename_i hfront
      cases h
      exact front?_eq_some_iff.1 hfront
    · obtain ⟨⟨b, i, a⟩, hrest, heq⟩ := Option.map_eq_some_iff.1 h
      cases heq
      obtain ⟨htext, hbracket, hfinish⟩ := ih hrest
      exact ⟨congrArg (c :: ·) htext, hbracket, hfinish⟩

/-- A group at the very front comes first. -/
theorem first?_of_front? (h : g.front? s = some (inside, after)) :
    g.first? s = some ([], inside, after) := by
  cases s with
  | nil =>
    have htext := (front?_eq_some_iff.1 h).text
    rw [List.nil_append, eq_comm, List.append_eq_nil_iff] at htext
    exact absurd htext.2 (List.cons_ne_nil _ _)
  | cons c rest => rw [first?, h]

/-- If there is a group with no bracket of its kind inside, one is found. -/
theorem Splits.first?_ne_none (h : g.Splits s before inside after) : g.first? s ≠ none := by
  induction before generalizing s with
  | nil =>
    rw [first?_of_front? (front?_eq_some_iff.2 h)]
    exact Option.some_ne_none _
  | cons c before ih =>
    obtain ⟨rfl, hbracket, hfinish⟩ := h
    have hrest := ih ⟨rfl, hbracket, hfinish⟩
    rw [List.cons_append, first?]
    split
    · exact Option.some_ne_none _
    · rw [Ne, Option.map_eq_none_iff]
      exact hrest

theorem first?_eq_none_iff :
    g.first? s = none ↔ ∀ before inside after, ¬g.Splits s before inside after := by
  constructor
  · intro h before inside after hsplits
    exact hsplits.first?_ne_none h
  · intro h
    cases hfirst : g.first? s with
    | none => rfl
    | some found => exact absurd (splits_of_first? hfirst) (h _ _ _)

end Group

/-! ## Kinds of groups -/

/-- The kinds of groups that a pattern can hold. -/
inductive Kind where
  | parens
  | braces
deriving DecidableEq

namespace Kind

/-- How groups of a kind are written. -/
def group : Kind → Group
  | parens => .parens
  | braces => .braces

/-- The characters with a meaning for groups of a kind. -/
def marks (k : Kind) : List Char :=
  k.group.start ++ [k.group.bracket, k.group.finish, k.group.separator]

/-- What stands before the inside of a group. -/
def opening (k : Kind) : List Char := k.group.start ++ [k.group.bracket]

/-- The character with which groups of a kind begin. -/
def first : Kind → Char
  | parens => '@'
  | braces => '\x7b'

theorem mem_marks_of_opening (k : Kind) {c : Char} (h : c ∈ k.opening) : c ∈ k.marks := by
  rw [opening, List.mem_append, List.mem_singleton] at h
  rw [marks, List.mem_append]
  rcases h with h | rfl
  · exact .inl h
  · exact .inr List.mem_cons_self

theorem bracket_mem_marks (k : Kind) : k.group.bracket ∈ k.marks := by cases k <;> decide

theorem finish_mem_marks (k : Kind) : k.group.finish ∈ k.marks := by cases k <;> decide

theorem separator_mem_marks (k : Kind) : k.group.separator ∈ k.marks := by cases k <;> decide

theorem bracket_not_mem_start (k : Kind) : k.group.bracket ∉ k.group.start := by
  cases k <;> decide

theorem finish_not_mem_start (k : Kind) : k.group.finish ∉ k.group.start := by cases k <;> decide

theorem bracket_ne_separator (k k' : Kind) : k.group.bracket ≠ k'.group.separator := by
  cases k <;> cases k' <;> decide

theorem finish_ne_separator (k k' : Kind) : k.group.finish ≠ k'.group.separator := by
  cases k <;> cases k' <;> decide

theorem bracket_ne_finish (k : Kind) : k.group.bracket ≠ k.group.finish := by
  cases k <;> decide

theorem first_mem_marks (k : Kind) : k.first ∈ k.marks := by cases k <;> decide

theorem first_ne_separator (k k' : Kind) : k.first ≠ k'.group.separator := by
  cases k <;> cases k' <;> decide

/-- Only at its front what opens a group has the character with which groups begin. -/
theorem exists_opening_eq (k : Kind) : ∃ tail, k.opening = k.first :: tail ∧ k.first ∉ tail := by
  cases k with
  | parens => exact ⟨['('], rfl, by decide⟩
  | braces => exact ⟨[], rfl, by decide⟩

/-- No mark belongs to both kinds. -/
theorem not_mem_marks {k k' : Kind} (h : k' ≠ k) : ∀ c ∈ k'.marks, c ∉ k.marks := by
  have hapart : (k'.marks.all fun c => !k.marks.contains c) = true := by
    cases k <;> cases k' <;> first | exact absurd rfl h | decide
  intro c hc
  simpa using List.all_eq_true.1 hapart c hc

end Kind

/-- The texts in which the first group of a kind is replaced by each of its choices. -/
def Kind.replaced? (k : Kind) (s : List Char) : Option (List (List Char)) :=
  (k.group.first? s).map fun (before, inside, after) =>
    (splitOn k.group.separator inside).map fun choice => before ++ choice ++ after

/-- Groups in parentheses go first. -/
theorem choices?_eq (s : List Char) :
    choices? s = (Kind.parens.replaced? s).or (Kind.braces.replaced? s) := by
  unfold choices? Kind.replaced?
  dsimp only [Kind.group]
  cases Group.parens.first? s <;> rfl

/-- The choices are those of a group with no bracket of its kind inside. -/
theorem exists_splits_of_choices? {s : List Char} {found : List (List Char)}
    (h : choices? s = some found) :
    ∃ (k : Kind) (before inside after : List Char), k.group.Splits s before inside after ∧
      found = (splitOn k.group.separator inside).map fun choice => before ++ choice ++ after := by
  have hreplaced : ∃ k : Kind, k.replaced? s = some found := by
    rw [choices?_eq, Option.or_eq_some_iff] at h
    rcases h with h | ⟨-, h⟩
    · exact ⟨_, h⟩
    · exact ⟨_, h⟩
  obtain ⟨k, hk⟩ := hreplaced
  obtain ⟨⟨before, inside, after⟩, hfirst, rfl⟩ := Option.map_eq_some_iff.1 hk
  exact ⟨k, before, inside, after, Group.splits_of_first? hfirst, rfl⟩

/-- There are no choices exactly if there is no group with no bracket of its kind inside. -/
theorem choices?_eq_none_iff {s : List Char} : choices? s = none ↔
    ∀ (k : Kind) (before inside after : List Char), ¬k.group.Splits s before inside after := by
  have hnone (k : Kind) : k.replaced? s = none ↔
      ∀ before inside after : List Char, ¬k.group.Splits s before inside after := by
    rw [Kind.replaced?, Option.map_eq_none_iff, Group.first?_eq_none_iff]
  rw [choices?_eq, Option.or_eq_none_iff, hnone, hnone]
  refine ⟨fun h k => ?_, fun h => ⟨h .parens, h .braces⟩⟩
  cases k with
  | parens => exact h.1
  | braces => exact h.2

/-! ## Expansions of any text -/

/-- A choice has fewer opening brackets than the text, as that of its group is gone. -/
theorem openings_lt_of_choices? {s t : List Char} {found : List (List Char)}
    (h : choices? s = some found) (ht : t ∈ found) : openings t < openings s := by
  obtain ⟨k, before, inside, after, hsplits, rfl⟩ := exists_splits_of_choices? h
  obtain ⟨choice, hchoice, rfl⟩ := List.mem_map.1 ht
  have hle : openings choice ≤ openings inside := (sublist_of_mem_splitOn hchoice).countP_le
  have hbracket : openings [k.group.bracket] = 1 := by cases k <;> rfl
  have htext : s = before ++ (k.group.start ++ ([k.group.bracket] ++ (inside ++ ([k.group.finish] ++ after)))) :=
    hsplits.text
  rw [htext]
  unfold openings at *
  simp only [List.countP_append]
  omega

/-- The plain patterns of a text. -/
def expansion (s : List Char) : List (List Char) := expandWithin (openings s) s

/-- A bound that is large enough does not matter. -/
theorem expandWithin_eq {fuel : Nat} {s : List Char} (h : openings s ≤ fuel) :
    expandWithin fuel s = match choices? s with
      | none => [s]
      | some found => distinct (found.flatMap expansion) := by
  induction fuel using Nat.strong_induction_on generalizing s with
  | _ fuel ih =>
    have hinner {room : Nat} (hroom : room < fuel) {found : List (List Char)}
        (hchoices : choices? s = some found) (hle : openings s ≤ room + 1) :
        found.flatMap (expandWithin room) = found.flatMap expansion := by
      apply List.flatMap_congr
      intro t ht
      have hlt := openings_lt_of_choices? hchoices ht
      unfold expansion
      rw [ih room hroom (by omega), ih (openings t) (by omega) le_rfl]
    cases fuel with
    | zero =>
      cases hchoices : choices? s with
      | none => rfl
      | some found =>
        obtain ⟨k, before, inside, after, -, rfl⟩ := exists_splits_of_choices? hchoices
        obtain ⟨choice, hchoice⟩ := List.exists_mem_of_ne_nil _
          (splitOn_ne_nil k.group.separator inside)
        have hlt := openings_lt_of_choices? hchoices (List.mem_map_of_mem hchoice)
        omega
    | succ room =>
      rw [expandWithin]
      cases hchoices : choices? s with
      | none => rfl
      | some found => exact congrArg distinct (hinner (Nat.lt_succ_self room) hchoices h)

/-- The plain patterns of a text are those of its choices, each once. -/
theorem expansion_eq (s : List Char) : expansion s = match choices? s with
    | none => [s]
    | some found => distinct (found.flatMap expansion) :=
  expandWithin_eq le_rfl

theorem mem_expansion_of_none {s t : List Char} (h : choices? s = none) :
    t ∈ expansion s ↔ t = s := by
  rw [expansion_eq, h, List.mem_singleton]

theorem mem_expansion_of_some {s t : List Char} {found : List (List Char)}
    (h : choices? s = some found) : t ∈ expansion s ↔ ∃ u ∈ found, t ∈ expansion u := by
  rw [expansion_eq, h]
  simp only [mem_distinct, List.mem_flatMap]

theorem nodup_expansion (s : List Char) : (expansion s).Nodup := by
  rw [expansion_eq]
  split
  · exact List.nodup_singleton s
  · exact nodup_distinct _

/-- No group is left in a plain pattern. The induction is on the number of opening brackets. -/
theorem choices?_eq_none_of_mem_expansion {s t : List Char} (h : t ∈ expansion s) :
    choices? t = none := by
  induction hn : openings s using Nat.strong_induction_on generalizing s with
  | _ n ih =>
    cases hchoices : choices? s with
    | none =>
      obtain rfl := (mem_expansion_of_none hchoices).1 h
      exact hchoices
    | some found =>
      obtain ⟨u, hu, ht⟩ := (mem_expansion_of_some hchoices).1 h
      exact ih (openings u) (hn ▸ openings_lt_of_choices? hchoices hu) ht rfl

/-! ## Expansions as texts -/

theorem mem_expand {s w : String} : w ∈ expand s ↔ w.toList ∈ expansion s.toList := by
  unfold expand expansion
  rw [List.mem_map]
  constructor
  · rintro ⟨t, ht, rfl⟩
    rwa [String.toList_ofList]
  · exact fun h => ⟨w.toList, h, String.ofList_toList⟩

theorem nodup_expand (s : String) : (expand s).Nodup :=
  (nodup_expansion s.toList).map fun _ _ => String.ofList_injective

/-- Each once is each once also under other names. -/
theorem distinct_map {α β : Type} [BEq α] [LawfulBEq α] [BEq β] [LawfulBEq β] {f : α → β}
    (hf : Function.Injective f) (items : List α) :
    distinct (items.map f) = (distinct items).map f := by
  induction items with
  | nil => rfl
  | cons a rest ih =>
    rw [List.map_cons, distinct, distinct, ih, List.map_cons, List.filter_map]
    congr 2
    apply List.filter_congr
    intro b _
    by_cases h : b = a
    · simp [h]
    · simp [h, hf.ne h]

/-- A pattern stands for what its choices stand for. -/
theorem expand_eq (s : String) : expand s = match choices? s.toList with
    | none => [s]
    | some found => distinct (found.flatMap fun t => expand (String.ofList t)) := by
  show (expansion s.toList).map String.ofList = _
  rw [expansion_eq]
  cases choices? s.toList with
  | none => simp
  | some found =>
    have hexpand (t : List Char) : expand (String.ofList t) = (expansion t).map String.ofList := by
      rw [expand, String.toList_ofList]
      rfl
    simp only [hexpand]
    rw [← List.map_flatMap, distinct_map fun _ _ => String.ofList_injective]

end StoryRegistry.Glob
