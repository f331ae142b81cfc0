import StoryRegistry.Naming
import StoryRegistry.Proofs.Text.Ascii
import StoryRegistry.Proofs.Text.Split
import StoryRegistry.Registry.Schema
import StoryRegistry.Story.Guess

/-!
# The registry form of a component name

The name that is guessed from a reference is a capital letter with letters and digits behind it
(`isComponentName_of_componentName?`). Such a name has no blank and no underscore, so that its
registry form is the name with hyphens in its humps, in small letters (`toList_kebab`). A hyphen
stands between a small and a capital letter, hence never at an end and never beside another one, and
the registry form is an item name (`isItemName_kebab`).
-/

set_option autoImplicit false

namespace StoryRegistry

open Text

/-! ## Names that are guessed -/

/-- A capital ASCII letter, with ASCII letters and digits behind it. -/
def IsComponentName (name : String) : Prop :=
  ∃ first rest, name.toList = first :: rest ∧ first.isUpper = true ∧
    ∀ c ∈ rest, c.isAlphanum = true

namespace Story

theorem firstCapitalWord?_eq_some {s word : List Char} (h : firstCapitalWord? s = some word) :
    ∃ first rest, word = first :: rest ∧ first.isUpper = true ∧
      ∀ c ∈ rest, c.isAlphanum = true := by
  induction s with
  | nil => cases h
  | cons c rest ih =>
    unfold firstCapitalWord? at h
    by_cases hc : c.isUpper = true
    · rw [if_pos hc] at h
      cases h
      refine ⟨c, _, rfl, hc, ?_⟩
      intro d hd
      exact List.mem_takeWhile_imp hd
    · rw [if_neg hc] at h
      exact ih h

theorem isComponentName_of_componentName? {reference : Value} {name : String}
    (h : componentName? reference = some name) : IsComponentName name := by
  obtain ⟨word, hword, rfl⟩ := Option.map_eq_some_iff.1 h
  obtain ⟨first, rest, hcons, hfirst, hrest⟩ := firstCapitalWord?_eq_some hword
  exact ⟨first, rest, by rw [String.toList_ofList, hcons], hfirst, hrest⟩

theorem isComponentName_unknownComponent : IsComponentName unknownComponent :=
  ⟨'U', "nknownComponent".toList, by decide, by decide, List.all_eq_true.1 (by decide)⟩

end Story

theorem IsComponentName.isAlphanum {name : String} (h : IsComponentName name) :
    ∀ c ∈ name.toList, c.isAlphanum = true := by
  obtain ⟨first, rest, hcons, hfirst, hrest⟩ := h
  rw [hcons]
  intro c hc
  rcases List.mem_cons.1 hc with rfl | hc
  · exact isAlphanum_of_isUpper hfirst
  · exact hrest c hc

theorem IsComponentName.ne_nil {name : String} (h : IsComponentName name) : name.toList ≠ [] := by
  obtain ⟨first, rest, hcons, -⟩ := h
  rw [hcons]
  exact List.cons_ne_nil _ _

/-! ## Hyphens in the humps -/

namespace Naming

theorem mem_splitHumps {mark c : Char} {s : List Char} (h : c ∈ splitHumps mark s) :
    c = mark ∨ c ∈ s := by
  induction s using splitHumps.induct with
  | case1 a b rest hhump ih =>
    rw [splitHumps, if_pos hhump] at h
    rcases List.mem_cons.1 h with rfl | h
    · exact Or.inr List.mem_cons_self
    · rcases List.mem_cons.1 h with rfl | h
      · exact Or.inl rfl
      · exact (ih h).imp_right (List.mem_cons_of_mem a)
  | case2 a b rest hhump ih =>
    rw [splitHumps, if_neg hhump] at h
    rcases List.mem_cons.1 h with rfl | h
    · exact Or.inr List.mem_cons_self
    · exact (ih h).imp_right (List.mem_cons_of_mem a)
  | case3 short hshort =>
    rw [splitHumps] at h
    · exact Or.inr h
    · exact hshort

theorem collapseRuns_eq_self {isSeparator : Char → Bool} {s : List Char} (mark : Char)
    (inRun : Bool) (h : ∀ c ∈ s, isSeparator c = false) :
    collapseRuns isSeparator mark inRun s = s := by
  induction s generalizing inRun with
  | nil => rfl
  | cons c rest ih =>
    have hrest := ih false fun d hd => h d (List.mem_cons_of_mem _ hd)
    simp only [collapseRuns, h c List.mem_cons_self, Bool.false_eq_true, if_false, hrest]

/-- No hyphen, letter or digit is a blank or an underscore. -/
theorem not_separator {c : Char} (h : c = '-' ∨ c.isAlphanum = true) :
    (isBlank c || c == '_') = false := by
  have hascii : c.toNat < 128 := by
    rcases h with rfl | h
    · decide
    · exact toNat_lt_of_isAlphanum h
  have hall : ∀ n < 128, Char.ofNat n = '-' ∨ (Char.ofNat n).isAlphanum = true →
      (isBlank (Char.ofNat n) || Char.ofNat n == '_') = false := by decide +kernel
  exact forall_ascii (P := fun c => c = '-' ∨ c.isAlphanum = true →
    (isBlank c || c == '_') = false) hall hascii h

/-- The registry form of a name of letters and digits: hyphens in the humps, in small letters. -/
theorem toList_kebab {name : String} (h : ∀ c ∈ name.toList, c.isAlphanum = true) :
    (kebab name).toList = (splitHumps '-' name.toList).map Char.toLower := by
  have hchars : ∀ c ∈ splitHumps '-' name.toList, c = '-' ∨ c.isAlphanum = true := by
    intro c hc
    exact (mem_splitHumps hc).imp_right (h c)
  have hascii : ∀ c ∈ splitHumps '-' name.toList, c.toNat < 128 := by
    intro c hc
    rcases hchars c hc with rfl | hword
    · decide
    · exact toNat_lt_of_isAlphanum hword
  have hkept : ∀ c ∈ splitHumps '-' name.toList, (isBlank c || c == '_') = false := by
    intro c hc
    exact not_separator (hchars c hc)
  simp only [kebab, lower, String.toList_ofList, collapseRuns_eq_self '-' false hkept,
    lowerFrom_of_ascii [] hascii]

end Naming

/-! ## Item names -/

namespace Schema

/-- An item name is not empty, and it is made of name characters and hyphens. -/
theorem chars_of_isItemName {name : String} (h : isItemName name = true) :
    name.toList ≠ [] ∧ ∀ c ∈ name.toList, c = '-' ∨ isNameChar c = true := by
  have hwords : ∀ word ∈ splitOn '-' name.toList, word ≠ [] ∧ ∀ c ∈ word, isNameChar c = true := by
    simpa [isItemName] using h
  constructor
  · intro hempty
    rw [hempty] at hwords
    exact (hwords [] (by simp [splitOn])).1 rfl
  · intro c hc
    rw [← joinWith_splitOn '-' name.toList] at hc
    rcases mem_joinWith hc with rfl | ⟨word, hword, hc⟩
    · exact Or.inl rfl
    · exact Or.inr ((hwords word hword).2 c hc)

theorem toNat_lt_of_isNameChar {c : Char} (h : isNameChar c = true) : c.toNat < 128 := by
  rcases Bool.or_eq_true_iff.1 h with hlower | hdigit
  · exact toNat_lt_of_isAlphanum (isAlphanum_of_isLower hlower)
  · exact toNat_lt_of_isAlphanum (isAlphanum_of_isDigit hdigit)

end Schema

namespace Naming

theorem isNameChar_toLower {c : Char} (h : c.isAlphanum = true) :
    Schema.isNameChar c.toLower = true := by
  have hall : ∀ n < 128, (Char.ofNat n).isAlphanum = true →
      Schema.isNameChar (Char.ofNat n).toLower = true := by decide +kernel
  exact forall_ascii (P := fun c => c.isAlphanum = true → Schema.isNameChar c.toLower = true) hall
    (toNat_lt_of_isAlphanum h) h

/-- The words between the hyphens hold name characters only, and none is empty. The induction is on
the humps; a character that is put before a text belongs to the first word of it. -/
theorem words_splitHumps {s : List Char} (hne : s ≠ []) (h : ∀ c ∈ s, c.isAlphanum = true) :
    ∀ word ∈ splitOn '-' ((splitHumps '-' s).map Char.toLower),
      word ≠ [] ∧ ∀ c ∈ word, Schema.isNameChar c = true := by
  have hlow (c : Char) (hc : c.isAlphanum = true) : c.toLower ≠ '-' := by
    intro heq
    have hname := isNameChar_toLower hc
    rw [heq] at hname
    exact absurd hname (by decide)
  have hfirst (c : Char) (hc : c.isAlphanum = true) (word : List Char)
      (hword : ∀ d ∈ word, Schema.isNameChar d = true) :
      c.toLower :: word ≠ [] ∧ ∀ d ∈ c.toLower :: word, Schema.isNameChar d = true := by
    refine ⟨List.cons_ne_nil _ _, ?_⟩
    intro d hd
    rcases List.mem_cons.1 hd with rfl | hd
    · exact isNameChar_toLower hc
    · exact hword d hd
  induction s using splitHumps.induct with
  | case1 a b rest hhump ih =>
    have ha := h a List.mem_cons_self
    have ih := ih (List.cons_ne_nil _ _) fun c hc => h c (List.mem_cons_of_mem _ hc)
    rw [splitHumps, if_pos hhump, List.map_cons, List.map_cons, splitOn, if_neg (hlow a ha)]
    have hmark : Char.toLower '-' = '-' := by decide
    rw [hmark, splitOn, if_pos rfl]
    intro word hword
    rcases List.mem_cons.1 hword with rfl | hword
    · exact hfirst a ha [] (by simp)
    · exact ih word hword
  | case2 a b rest hhump ih =>
    have ha := h a List.mem_cons_self
    have ih := ih (List.cons_ne_nil _ _) fun c hc => h c (List.mem_cons_of_mem _ hc)
    rw [splitHumps, if_neg hhump, List.map_cons, splitOn, if_neg (hlow a ha)]
    cases hsplit : splitOn '-' ((splitHumps '-' (b :: rest)).map Char.toLower) with
    | nil => exact absurd hsplit (splitOn_ne_nil _ _)
    | cons part parts =>
      rw [hsplit] at ih
      intro word hword
      rcases List.mem_cons.1 hword with rfl | hword
      · exact hfirst a ha part (ih part List.mem_cons_self).2
      · exact ih word (List.mem_cons_of_mem _ hword)
  | case3 short hshort =>
    cases short with
    | nil => exact absurd rfl hne
    | cons a rest =>
      cases rest with
      | cons b more => exact absurd rfl (hshort a b more)
      | nil =>
        have ha := h a List.mem_cons_self
        simp only [splitHumps, List.map_cons, List.map_nil, splitOn, if_neg (hlow a ha)]
        intro word hword
        rw [List.mem_singleton.1 hword]
        exact hfirst a ha [] (by simp)

/-- The registry form of a component name is an item name. -/
theorem isItemName_kebab {name : String} (h : IsComponentName name) :
    Schema.isItemName (kebab name) = true := by
  have hwords := words_splitHumps h.ne_nil h.isAlphanum
  rw [← toList_kebab h.isAlphanum] at hwords
  apply List.all_eq_true.2
  intro word hword
  obtain ⟨hfilled, hchars⟩ := hwords word hword
  simpa [hfilled] using hchars

end Naming

end StoryRegistry
