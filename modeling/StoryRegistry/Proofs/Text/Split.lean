import Mathlib.Data.List.Basic
import StoryRegistry.Text.Split

/-!
# Parts of a text

The parts of a text hold no separator, and parts that hold none are found again in the text that is
put together from them.
-/

set_option autoImplicit false

namespace StoryRegistry.Text

variable {separator : Char}

/-- A text without separators is one part. -/
theorem splitOn_eq_singleton {s : List Char} (h : separator ∉ s) : splitOn separator s = [s] := by
  induction s with
  | nil => rfl
  | cons c rest ih =>
    have hfirst : c ≠ separator := fun heq => h (heq ▸ List.mem_cons_self)
    have hrest := ih fun hmem => h (List.mem_cons_of_mem _ hmem)
    rw [splitOn, if_neg hfirst, hrest]

/-- The first part ends at the first separator. -/
theorem splitOn_append {first rest : List Char} (h : separator ∉ first) :
    splitOn separator (first ++ separator :: rest) = first :: splitOn separator rest := by
  induction first with
  | nil => simp [splitOn]
  | cons c more ih =>
    have hc : c ≠ separator := fun heq => h (heq ▸ List.mem_cons_self)
    have hmore := ih fun hmem => h (List.mem_cons_of_mem _ hmem)
    rw [List.cons_append, splitOn, if_neg hc, hmore]

/-- The parts of what is around a separator are those before it and those behind it. -/
theorem splitOn_append_separator (s rest : List Char) :
    splitOn separator (s ++ separator :: rest) = splitOn separator s ++ splitOn separator rest := by
  induction s with
  | nil => simp [splitOn]
  | cons c more ih =>
    rw [List.cons_append, splitOn, splitOn, ih]
    by_cases hc : c = separator
    · rw [if_pos hc, if_pos hc, List.cons_append]
    · rw [if_neg hc, if_neg hc]
      cases hmore : splitOn separator more with
      | nil => exact absurd hmore (splitOn_ne_nil separator more)
      | cons first others => rfl

/-- Parts without separators are the parts of what is put together from them. -/
theorem splitOn_joinWith {parts : List (List Char)} (hne : parts ≠ [])
    (h : ∀ part ∈ parts, separator ∉ part) :
    splitOn separator (joinWith [separator] parts) = parts := by
  induction parts with
  | nil => exact absurd rfl hne
  | cons first rest ih =>
    have hfirst := h first List.mem_cons_self
    cases rest with
    | nil => exact splitOn_eq_singleton hfirst
    | cons next more =>
      have hjoin : joinWith [separator] (first :: next :: more) =
          first ++ separator :: joinWith [separator] (next :: more) := by simp [joinWith]
      rw [hjoin, splitOn_append hfirst,
        ih (List.cons_ne_nil _ _) fun part hpart => h part (List.mem_cons_of_mem _ hpart)]

/-- What is in a part is in the text, and is no separator. -/
theorem mem_of_mem_splitOn {s part : List Char} {c : Char} (hpart : part ∈ splitOn separator s)
    (hc : c ∈ part) : c ∈ s ∧ c ≠ separator := by
  induction s generalizing part with
  | nil =>
    have hnil : part = [] := by simpa [splitOn] using hpart
    exact absurd hc (by simp [hnil])
  | cons d rest ih =>
    rw [splitOn] at hpart
    by_cases hd : d = separator
    · rw [if_pos hd] at hpart
      rcases List.mem_cons.1 hpart with rfl | hpart
      · exact absurd hc List.not_mem_nil
      · exact ⟨List.mem_cons_of_mem _ (ih hpart hc).1, (ih hpart hc).2⟩
    · rw [if_neg hd] at hpart
      -- the character belongs to the first part of what follows
      cases hrest : splitOn separator rest with
      | nil => exact absurd hrest (splitOn_ne_nil separator rest)
      | cons first more =>
        rw [hrest] at hpart ih
        rcases List.mem_cons.1 hpart with rfl | hpart
        · rcases List.mem_cons.1 hc with rfl | hc
          · exact ⟨List.mem_cons_self, hd⟩
          · have hmem := ih List.mem_cons_self hc
            exact ⟨List.mem_cons_of_mem _ hmem.1, hmem.2⟩
        · have hmem := ih (List.mem_cons_of_mem _ hpart) hc
          exact ⟨List.mem_cons_of_mem _ hmem.1, hmem.2⟩

/-- A part is what is left of the text without some of its characters. -/
theorem sublist_of_mem_splitOn {s part : List Char} (hpart : part ∈ splitOn separator s) :
    part.Sublist s := by
  induction s generalizing part with
  | nil =>
    have hnil : part = [] := by simpa [splitOn] using hpart
    rw [hnil]
  | cons d rest ih =>
    rw [splitOn] at hpart
    by_cases hd : d = separator
    · rw [if_pos hd] at hpart
      rcases List.mem_cons.1 hpart with rfl | hpart
      · exact List.nil_sublist _
      · exact (ih hpart).cons d
    · rw [if_neg hd] at hpart
      cases hrest : splitOn separator rest with
      | nil => exact absurd hrest (splitOn_ne_nil separator rest)
      | cons first more =>
        rw [hrest] at hpart ih
        rcases List.mem_cons.1 hpart with rfl | hpart
        · exact (ih List.mem_cons_self).cons_cons d
        · exact (ih (List.mem_cons_of_mem _ hpart)).cons d

/-- What is in a text that is put together is the separator or in one of the parts. -/
theorem mem_joinWith {c : Char} {parts : List (List Char)}
    (h : c ∈ joinWith [separator] parts) : c = separator ∨ ∃ part ∈ parts, c ∈ part := by
  induction parts with
  | nil => exact absurd h List.not_mem_nil
  | cons part rest ih =>
    cases rest with
    | nil => exact Or.inr ⟨part, List.mem_cons_self, h⟩
    | cons next more =>
      have hjoin : joinWith [separator] (part :: next :: more) =
          part ++ [separator] ++ joinWith [separator] (next :: more) := rfl
      rw [hjoin] at h
      rcases List.mem_append.1 h with h | h
      · rcases List.mem_append.1 h with h | h
        · exact Or.inr ⟨part, List.mem_cons_self, h⟩
        · exact Or.inl (List.mem_singleton.1 h)
      · rcases ih h with h | ⟨other, hother, h⟩
        · exact Or.inl h
        · exact Or.inr ⟨other, List.mem_cons_of_mem _ hother, h⟩

/-- A text is what stands before and after something in it, with that between them. -/
theorem eq_append_of_cutAt? {needle s before after : List Char}
    (h : cutAt? needle s = some (before, after)) : s = before ++ needle ++ after := by
  induction s generalizing before with
  | nil =>
    rw [cutAt?] at h
    split at h
    · rename_i hempty
      cases h
      rw [List.isEmpty_iff.1 hempty]
      rfl
    · cases h
  | cons c rest ih =>
    rw [cutAt?] at h
    split at h
    · rename_i found hdrop
      cases h
      exact dropStart?_eq_some_iff.1 hdrop
    · obtain ⟨⟨front, back⟩, hcut, heq⟩ := Option.map_eq_some_iff.1 h
      cases heq
      exact congrArg (c :: ·) (ih hcut)

/-- What begins with another text is that text with something behind it. -/
theorem beginsWith_iff {s start : String} : beginsWith s start = true ↔ start.toList <+: s.toList := by
  unfold beginsWith
  rw [Option.isSome_iff_exists]
  exact exists_congr fun rest => dropStart?_eq_some_iff.trans eq_comm

/-- A text that is found stands somewhere in the other one, and one that stands there is found. -/
theorem occursIn_iff {needle s : String} : occursIn needle s = true ↔ needle.toList <:+: s.toList := by
  unfold occursIn
  constructor
  · intro h
    obtain ⟨⟨before, after⟩, hcut⟩ := Option.isSome_iff_exists.1 h
    exact ⟨before, after, (eq_append_of_cutAt? hcut).symm⟩
  · rintro ⟨before, after, heq⟩
    rw [← heq, List.append_assoc]
    clear heq
    induction before with
    | nil =>
      cases hfound : needle.toList ++ after with
      | nil => simp [cutAt?, (List.append_eq_nil_iff.1 hfound).1]
      | cons c rest => simp [cutAt?, dropStart?_eq_some_iff.2 hfound.symm]
    | cons c before ih =>
      rw [List.cons_append, cutAt?]
      cases dropStart? needle.toList (c :: (before ++ (needle.toList ++ after))) with
      | some after => rfl
      | none => rwa [Option.isSome_map]

end StoryRegistry.Text
