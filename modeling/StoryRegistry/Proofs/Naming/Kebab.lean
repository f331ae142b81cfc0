import StoryRegistry.Proofs.Naming
import StoryRegistry.Proofs.Text.Case

/-!
# Registry forms

The words of a registry form, joined with capital first letters, make a name in the form of code. From
a component name one comes back to a name that differs in its capital letters only: those behind a
small letter begin a word and come back as they were, the others have become small
(`toList_pascal_kebab`). So a component name is found again exactly if each of its capital letters, the
first one apart, stands behind a small letter (`pascal_kebab_eq_iff`).

The registry form of any text is in small letters throughout, so that it has no hump, and it has no
separator, as the hyphens that replace separators are none and small letters lead to none. Each step on
the way to a registry form therefore leaves one as it is, and the registry form of a registry form is
that form itself (`kebab_kebab`).
-/

set_option autoImplicit false

namespace StoryRegistry.Naming

open Text

/-- Each capital letter behind the first character stands behind a small letter. -/
def CapitalsBeginWords (s : List Char) : Prop :=
  s.IsChain fun before c => c.isUpper = true → before.isLower = true

instance (s : List Char) : Decidable (CapitalsBeginWords s) :=
  inferInstanceAs (Decidable (List.IsChain _ s))

/-- What is kept of a text behind a character: capital letters that stand behind a small letter, while
others become small. -/
def keepHumps (before : Char) : List Char → List Char
  | [] => []
  | c :: rest => (if before.isLower then c else c.toLower) :: keepHumps c rest

/-! ## ASCII letters -/

theorem capitalize_toLower {c : Char} (h : c.isUpper = true) (rest : List Char) :
    capitalize (c.toLower :: rest) = c :: rest := by
  have hall : ∀ n < 128, (Char.ofNat n).isUpper = true →
      upperChar (Char.ofNat n).toLower = [Char.ofNat n] := by decide +kernel
  have hchar := forall_ascii (P := fun c => c.isUpper = true → upperChar c.toLower = [c]) hall
    (toNat_lt_of_isAlphanum (isAlphanum_of_isUpper h)) h
  rw [capitalize, hchar, List.singleton_append]

theorem toLower_eq_self_iff {c : Char} (h : c.isAlphanum = true) :
    c.toLower = c ↔ c.isUpper = false := by
  have hall : ∀ n < 128, (Char.ofNat n).toLower = Char.ofNat n ↔
      (Char.ofNat n).isUpper = false := by decide +kernel
  exact forall_ascii (P := fun c => c.toLower = c ↔ c.isUpper = false) hall
    (toNat_lt_of_isAlphanum h)

theorem toLower_ne_hyphen {c : Char} (h : c.isAlphanum = true) : c.toLower ≠ '-' := by
  intro heq
  have hname := isNameChar_toLower h
  rw [heq] at hname
  exact absurd hname (by decide)

/-! ## The words of a registry form -/

/-- Behind the first letter of a registry form the words, each but the first one with a capital first
letter, are what is kept of the name. The induction is on the name; a hump ends the first word. -/
theorem exists_words {a : Char} {s : List Char} (ha : a.isAlphanum = true)
    (h : ∀ c ∈ s, c.isAlphanum = true) :
    ∃ word words, splitOn '-' ((splitHumps '-' (a :: s)).map Char.toLower) =
        (a.toLower :: word) :: words ∧
      word ++ words.flatMap capitalize = keepHumps a s := by
  induction s generalizing a with
  | nil =>
    refine ⟨[], [], ?_, rfl⟩
    simp only [splitHumps, List.map_cons, List.map_nil, splitOn, if_neg (toLower_ne_hyphen ha)]
  | cons b rest ih =>
    obtain ⟨hb, hrest⟩ := List.forall_mem_cons.1 h
    obtain ⟨word, words, hsplit, hkept⟩ := ih hb hrest
    rw [keepHumps]
    by_cases hhump : (a.isLower && b.isUpper) = true
    · -- the hyphen ends the first word, and the next one begins with the capital letter
      obtain ⟨hlower, hupper⟩ := Bool.and_eq_true_iff.1 hhump
      have hmark : Char.toLower '-' = '-' := by decide
      refine ⟨[], (b.toLower :: word) :: words, ?_, ?_⟩
      · rw [splitHumps, if_pos hhump, List.map_cons, List.map_cons, splitOn,
          if_neg (toLower_ne_hyphen ha), hmark, splitOn, if_pos rfl, hsplit]
      · rw [List.nil_append, List.flatMap_cons, capitalize_toLower hupper, List.cons_append, hkept,
          if_pos hlower]
    · have hsmall : (if a.isLower then b else b.toLower) = b.toLower := by
        split
        · rename_i hlower
          have hupper : b.isUpper = false := by simpa [hlower] using hhump
          exact ((toLower_eq_self_iff hb).2 hupper).symm
        · rfl
      refine ⟨b.toLower :: word, words, ?_, ?_⟩
      · rw [splitHumps, if_neg hhump, List.map_cons, splitOn, if_neg (toLower_ne_hyphen ha), hsplit]
      · rw [List.cons_append, hkept, hsmall]

/-- A text is kept as it is exactly if its capital letters stand behind small ones. -/
theorem keepHumps_eq_self_iff {a : Char} {s : List Char} (h : ∀ c ∈ s, c.isAlphanum = true) :
    keepHumps a s = s ↔ CapitalsBeginWords (a :: s) := by
  unfold CapitalsBeginWords
  induction s generalizing a with
  | nil => simp [keepHumps]
  | cons b rest ih =>
    obtain ⟨hb, hrest⟩ := List.forall_mem_cons.1 h
    have hfirst : (if a.isLower then b else b.toLower) = b ↔
        (b.isUpper = true → a.isLower = true) := by
      cases hlower : a.isLower with
      | true => simp
      | false => simp [toLower_eq_self_iff hb]
    rw [keepHumps, List.cons.injEq, hfirst, ih hrest, List.isChain_cons_cons]

/-! ## Component names -/

variable {name : String}

/-- The name that is rebuilt from the registry form of a component name. -/
theorem toList_pascal_kebab {first : Char} {rest : List Char} (hname : name.toList = first :: rest)
    (hfirst : first.isUpper = true) (hrest : ∀ c ∈ rest, c.isAlphanum = true) :
    (pascal (kebab name)).toList = first :: keepHumps first rest := by
  have hall : ∀ c ∈ name.toList, c.isAlphanum = true :=
    hname ▸ List.forall_mem_cons.2 ⟨isAlphanum_of_isUpper hfirst, hrest⟩
  obtain ⟨word, words, hsplit, hkept⟩ := exists_words (isAlphanum_of_isUpper hfirst) hrest
  rw [pascal, String.toList_ofList, toList_kebab hall, hname, hsplit, List.flatMap_cons,
    capitalize_toLower hfirst, List.cons_append, hkept]

/-- A component name is found again in its registry form exactly if each of its capital letters begins
a word there. -/
theorem pascal_kebab_eq_iff (h : IsComponentName name) :
    pascal (kebab name) = name ↔ CapitalsBeginWords name.toList := by
  obtain ⟨first, rest, hname, hfirst, hrest⟩ := h
  rw [← String.toList_inj, toList_pascal_kebab hname hfirst hrest, hname, List.cons.injEq,
    keepHumps_eq_self_iff hrest]
  exact and_iff_right rfl

example : pascal (kebab "IconButton2x") = "IconButton2x" := by decide +kernel

example : pascal (kebab "UIButton") = "Uibutton" := by decide +kernel

/-! ## Registry forms are final -/

/-- The characters that a registry form has a hyphen for. -/
def isSeparator (c : Char) : Bool := isBlank c || c == '_'

/-! ## Steps that change nothing -/

theorem splitHumps_eq_self {mark : Char} {s : List Char} (h : ∀ c ∈ s, c.isUpper = false) :
    splitHumps mark s = s := by
  induction s using splitHumps.induct with
  | case1 a b rest hhump ih =>
    have hb := h b (List.mem_cons_of_mem _ List.mem_cons_self)
    rw [hb, Bool.and_false] at hhump
    cases hhump
  | case2 a b rest hhump ih =>
    rw [splitHumps, if_neg hhump, ih fun c hc => h c (List.mem_cons_of_mem _ hc)]
  | case3 short hshort =>
    rw [splitHumps]
    exact hshort

/-- Where runs of separators were replaced by a mark that is none, no separator is left. -/
theorem not_separator_of_mem_collapseRuns {separates : Char → Bool} {mark : Char} {inRun : Bool}
    {s : List Char} (hmark : separates mark = false) :
    ∀ c ∈ collapseRuns separates mark inRun s, separates c = false := by
  induction s generalizing inRun with
  | nil => exact List.forall_mem_nil _
  | cons c rest ih =>
    rw [collapseRuns]
    split
    · split
      · exact ih
      · exact List.forall_mem_cons.2 ⟨hmark, ih⟩
    · rename_i hc
      exact List.forall_mem_cons.2 ⟨Bool.eq_false_iff.2 hc, ih⟩

/-! ## The characters of a registry form -/

/-- No ASCII capital is its own small form. -/
theorem isUpper_eq_false_of_isSmall {c : Char} (h : IsSmall c) : c.isUpper = false := by
  rw [Bool.eq_false_iff]
  intro hupper
  have halphanum := isAlphanum_of_isUpper hupper
  have hlower : [c.toLower] = [c] := (lowerChar_of_ascii (toNat_lt_of_isAlphanum halphanum)).symm.trans h
  rw [(toLower_eq_self_iff halphanum).1 (List.singleton_inj.1 hlower)] at hupper
  cases hupper

theorem isSmall_of_mem_kebab {c : Char} (h : c ∈ (kebab name).toList) : IsSmall c := by
  unfold kebab lower at h
  rw [String.toList_ofList] at h
  exact isSmall_of_mem_lowerFrom h

/-- A registry form has no separator: none is left where hyphens were put, and small letters make none. -/
theorem not_separator_of_mem_kebab {c : Char} (h : c ∈ (kebab name).toList) :
    isSeparator c = false := by
  have hseparator (d : Char) :
      isSeparator d = inRanges ((0x5F, 0x5F) :: blankRanges) d := by
    have hunderscore : (d == '_') = decide (0x5F ≤ d.toNat ∧ d.toNat ≤ 0x5F) := by
      rw [Bool.eq_iff_iff, beq_iff_eq, decide_eq_true_eq, ← Char.toNat_inj]
      exact Nat.le_antisymm_iff.trans and_comm
    rw [isSeparator, hunderscore, Bool.or_comm]
    simp [isBlank, inRanges]
  have havoid : ∀ run ∈ lowerRuns, ∀ range ∈ (0x5F, 0x5F) :: blankRanges,
      avoids (moved run) range = true := by decide +kernel
  have hothers : ∀ d ∈ unrunLetters, inRanges ((0x5F, 0x5F) :: blankRanges) d = false := by
    have hnone : unrunLetters.any (inRanges ((0x5F, 0x5F) :: blankRanges)) = false := by decide +kernel
    exact fun d hd => Bool.eq_false_iff.2 (List.any_eq_false.1 hnone d hd)
  unfold kebab lower at h
  dsimp only at h
  rw [String.toList_ofList, String.toList_ofList] at h
  rw [Bool.eq_false_iff, hseparator]
  intro hinside
  obtain ⟨d, hd, hbefore⟩ := inRanges_of_mem_lowerFrom havoid hothers h hinside
  rw [← hseparator] at hbefore
  have hhyphen : isSeparator '-' = false := by decide
  have hnone := not_separator_of_mem_collapseRuns hhyphen d hd
  rw [hnone] at hbefore
  cases hbefore

/-- The registry form of any text has no ASCII capital, no blank and no underscore. It is in small
letters, and it is its own registry form. -/
theorem kebab_kebab (name : String) :
    (∀ c ∈ (kebab name).toList, c.isUpper = false ∧ isBlank c = false ∧ c ≠ '_') ∧
      lower (kebab name) = kebab name ∧ kebab (kebab name) = kebab name := by
  have hsmall : ∀ c ∈ (kebab name).toList, IsSmall c := fun c => isSmall_of_mem_kebab
  have hupper : ∀ c ∈ (kebab name).toList, c.isUpper = false := fun c hc =>
    isUpper_eq_false_of_isSmall (hsmall c hc)
  have hkept : ∀ c ∈ (kebab name).toList, isSeparator c = false := fun c =>
    not_separator_of_mem_kebab
  have hlower : lower (kebab name) = kebab name := by
    rw [lower, lowerFrom_eq_self [] hsmall, String.ofList_toList]
  refine ⟨fun c hc => ⟨hupper c hc, ?_⟩, hlower, ?_⟩
  · simpa [isSeparator] using hkept c hc
  · calc kebab (kebab name)
        = lower (String.ofList (collapseRuns isSeparator '-' false (kebab name).toList)) := by
          rw [kebab, splitHumps_eq_self hupper]
          rfl
      _ = lower (kebab name) := by
          rw [collapseRuns_eq_self '-' false hkept, String.ofList_toList]
      _ = kebab name := hlower

example : kebab "My  Wİdge\u03A3_B" = "my-wi\u0307dge\u03C2-b" := by decide +kernel

end StoryRegistry.Naming
