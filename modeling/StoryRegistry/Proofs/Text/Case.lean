import StoryRegistry.Text.Blank
import StoryRegistry.Proofs.Text.Ascii

/-!
# Small letters stay small

The runs of capital letters lead to letters that lie in no run (`apart_moved`), so a letter that was
moved is not moved again. What a text becomes in small letters is therefore made of characters that
are their own small forms wherever they stand (`isSmall_of_mem_lowerFrom`), and small letters
throughout stay as they are (`lower_lower`). A character class that the runs do not lead into has
none of these characters unless the text had one before (`inRanges_of_mem_lowerFrom`).
-/

set_option autoImplicit false

namespace StoryRegistry.Text

/-! ## Where runs lead -/

/-- The number of a character lies in the run. -/
def Holds (run : CaseRun) (n : Nat) : Prop :=
  run.1 ≤ n ∧ n ≤ run.2.1 ∧ (n - run.1) % run.2.2.1 = 0

/-- The numbers to which the letters of a run are moved: the first, the last and the step between them. -/
def moved (run : CaseRun) : Nat × Nat × Nat :=
  ((run.1 + run.2.2.2).toNat, (run.2.1 + run.2.2.2).toNat, run.2.2.1)

/-- The moved letters lie below the range or above it. -/
def avoids (letters : Nat × Nat × Nat) (range : Nat × Nat) : Bool :=
  letters.2.1.blt range.1 || range.2.blt letters.1

/-- The moved letters lie below those of the run, above them or between them. -/
def apart (letters : Nat × Nat × Nat) (run : CaseRun) : Bool :=
  avoids letters (run.1, run.2.1) ||
    run.2.2.1 == 2 && (letters.2.2 == 2 || letters.1 == letters.2.1) && (letters.1 + run.1) % 2 == 1

/-- No letter is moved to a letter that would be moved. -/
theorem apart_moved : ∀ run ∈ lowerRuns, ∀ other ∈ lowerRuns, apart (moved run) other = true := by
  have hall : ((lowerRuns.map moved).all fun letters => lowerRuns.all (apart letters)) = true := by
    decide +kernel
  intro run hrun
  exact List.all_eq_true.1 (List.all_eq_true.1 hall _ (List.mem_map_of_mem hrun))

/-- Every letter is moved to a character. -/
theorem valid_moved : ∀ run ∈ lowerRuns, 0 ≤ run.1 + run.2.2.2 ∧
    ((moved run).2.1 < 0xD800 ∨ 0xDFFF < (moved run).1 ∧ (moved run).2.1 < 0x110000) := by
  decide +kernel

variable {run other : CaseRun} {n m : Nat}

theorem le_moved (hrun : run ∈ lowerRuns) (h : Holds run n) (hm : (m : Int) = n + run.2.2.2) :
    (moved run).1 ≤ m ∧ m ≤ (moved run).2.1 := by
  have hfirst := (valid_moved run hrun).1
  obtain ⟨hle, hge, -⟩ := h
  simp only [moved]
  omega

theorem isValidChar_of_moved (hrun : run ∈ lowerRuns) (h : Holds run n)
    (hm : (m : Int) = n + run.2.2.2) : m.isValidChar := by
  have hvalid := (valid_moved run hrun).2
  obtain ⟨hle, hge⟩ := le_moved hrun h hm
  rcases hvalid with hlow | ⟨hhigh, hlast⟩
  · exact .inl (by omega)
  · exact .inr ⟨by omega, by omega⟩

theorem not_holds_of_moved (hrun : run ∈ lowerRuns) (hother : other ∈ lowerRuns) (h : Holds run n)
    (hm : (m : Int) = n + run.2.2.2) : ¬Holds other m := by
  have hapart := apart_moved run hrun other hother
  have hfirst := (valid_moved run hrun).1
  obtain ⟨hle, hge⟩ := le_moved hrun h hm
  rintro ⟨hfrom, hto, hstep⟩
  simp only [apart, avoids, Bool.or_eq_true, Bool.and_eq_true, Nat.blt_eq, beq_iff_eq] at hapart
  rcases hapart with (hbelow | habove) | ⟨⟨htwo, hsteps⟩, hodd⟩
  · omega
  · omega
  · -- both runs go in steps of two, from numbers of which one is odd
    obtain ⟨hle', hge', hstep'⟩ := h
    rw [htwo] at hstep
    simp only [moved] at hsteps hodd hle hge
    rcases hsteps with htwo' | hone
    · rw [htwo'] at hstep'
      omega
    · omega

/-! ## Moving a letter -/

/-- A character lies in no run and stays, or it goes where its run leads. -/
theorem moveCase_cases (c : Char) :
    (moveCase lowerRuns c = c ∧ ∀ run ∈ lowerRuns, ¬Holds run c.toNat) ∨
      ∃ run ∈ lowerRuns, Holds run c.toNat ∧
        ((moveCase lowerRuns c).toNat : Int) = c.toNat + run.2.2.2 := by
  have hlies (run : CaseRun) : (run.1 ≤ c.toNat && c.toNat ≤ run.2.1 &&
      (c.toNat - run.1) % run.2.2.1 == 0) = true ↔ Holds run c.toNat := by
    simp [Holds, and_assoc]
  unfold moveCase
  split
  · rename_i first last step distance hfound
    have hrun := List.mem_of_find?_eq_some hfound
    have hpasses := List.find?_some hfound
    have hholds := (hlies (first, last, step, distance)).1 hpasses
    have hfirst := (valid_moved _ hrun).1
    have hm : (((c.toNat : Int) + distance).toNat : Int) = c.toNat + distance := by
      have hle := hholds.1
      dsimp only at hfirst hle
      omega
    have hcode : (Char.ofNat ((c.toNat : Int) + distance).toNat).toNat =
        ((c.toNat : Int) + distance).toNat := by
      rw [Char.ofNat, dif_pos (isValidChar_of_moved hrun hholds hm)]
      rfl
    exact .inr ⟨_, hrun, hholds, by rw [hcode, hm]⟩
  · rename_i hnone
    exact .inl ⟨rfl, fun run hrun hholds => List.find?_eq_none.1 hnone run hrun ((hlies run).2 hholds)⟩

/-- A character in no run stays. -/
theorem moveCase_eq_self {c : Char} (h : ∀ run ∈ lowerRuns, ¬Holds run c.toNat) :
    moveCase lowerRuns c = c := by
  rcases moveCase_cases c with ⟨hstays, -⟩ | ⟨run, hrun, hholds, -⟩
  · exact hstays
  · exact absurd hholds (h run hrun)

/-- A letter is moved to where nothing is moved. -/
theorem not_holds_moveCase (c : Char) :
    ∀ run ∈ lowerRuns, ¬Holds run (moveCase lowerRuns c).toNat := by
  intro run hrun
  rcases moveCase_cases c with ⟨hstays, hnone⟩ | ⟨from_, hfrom, hholds, hm⟩
  · rw [hstays]
    exact hnone run hrun
  · exact not_holds_of_moved hfrom hrun hholds hm

/-- A character that is moved into ranges which all runs avoid was there before. -/
theorem inRanges_of_moveCase {ranges : List (Nat × Nat)} {c : Char}
    (havoid : ∀ run ∈ lowerRuns, ∀ range ∈ ranges, avoids (moved run) range = true)
    (h : inRanges ranges (moveCase lowerRuns c) = true) : inRanges ranges c = true := by
  rcases moveCase_cases c with ⟨hstays, -⟩ | ⟨run, hrun, hholds, hm⟩
  · rwa [hstays] at h
  · obtain ⟨range, hrange, hinside⟩ := List.any_eq_true.1 h
    obtain ⟨hle, hge⟩ := le_moved hrun hholds hm
    have haway := havoid run hrun range hrange
    simp only [avoids, Bool.or_eq_true, Bool.and_eq_true, Nat.blt_eq, decide_eq_true_eq]
      at haway hinside
    omega

/-! ## Small letters -/

/-- The character is its own small form. -/
def IsSmall (c : Char) : Prop := lowerChar c = [c]

instance (c : Char) : Decidable (IsSmall c) := inferInstanceAs (Decidable (_ = _))

/-- Small letters that no run leads to: the parts of a dotted capital I, and the final sigma. -/
def unrunLetters : List Char := ['i', '\u0307', '\u03C2']

/-- A text in small letters is made of characters that were moved, and of letters that no run leads
to. -/
theorem mem_lowerFrom {before s : List Char} {d : Char} (h : d ∈ lowerFrom before s) :
    d ∈ unrunLetters ∨ ∃ c ∈ s, c ≠ '\u0130' ∧ d = moveCase lowerRuns c := by
  induction s generalizing before with
  | nil => cases h
  | cons c rest ih =>
    rw [lowerFrom] at h
    rcases List.mem_append.1 h with h | h
    · split at h
      · exact .inl (by simp [unrunLetters, List.mem_singleton.1 h])
      · unfold lowerChar at h
        split at h
        · exact .inl (List.mem_append_left ['\u03C2'] h)
        · rename_i hdotted
          exact .inr ⟨c, List.mem_cons_self, by simpa using hdotted, List.mem_singleton.1 h⟩
    · obtain hother | ⟨e, he, hmoved⟩ := ih h
      · exact .inl hother
      · exact .inr ⟨e, List.mem_cons_of_mem _ he, hmoved⟩

/-- No run leads to the capital I with a dot. -/
theorem moveCase_ne_dotted {c : Char} (h : c ≠ '\u0130') : moveCase lowerRuns c ≠ '\u0130' := by
  have havoid : ∀ run ∈ lowerRuns, ∀ range ∈ [(0x130, 0x130)], avoids (moved run) range = true := by
    decide +kernel
  have hcode (d : Char) : inRanges [(0x130, 0x130)] d = true ↔ d = '\u0130' := by
    rw [← Char.toNat_inj]
    simp [inRanges]
    omega
  intro heq
  exact h ((hcode c).1 (inRanges_of_moveCase havoid ((hcode _).2 heq)))

/-- What is put into small letters is made of small characters. -/
theorem isSmall_of_mem_lowerFrom {before s : List Char} {d : Char} (h : d ∈ lowerFrom before s) :
    IsSmall d := by
  have hothers : ∀ d ∈ unrunLetters, IsSmall d := by
    have hall : (unrunLetters.all fun d => decide (IsSmall d)) = true := by decide +kernel
    exact fun d hd => of_decide_eq_true (List.all_eq_true.1 hall d hd)
  rcases mem_lowerFrom h with h | ⟨c, -, hc, rfl⟩
  · exact hothers d h
  · unfold IsSmall lowerChar
    rw [if_neg (by simpa using moveCase_ne_dotted hc), moveCase_eq_self (not_holds_moveCase c)]

/-- Small characters stay, whatever stands before them. -/
theorem lowerFrom_eq_self {s : List Char} (before : List Char) (h : ∀ c ∈ s, IsSmall c) :
    lowerFrom before s = s := by
  have hcapital : ¬IsSmall '\u03A3' := by decide +kernel
  induction s generalizing before with
  | nil => rfl
  | cons c rest ih =>
    obtain ⟨hc, hrest⟩ := List.forall_mem_cons.1 h
    have hsigma : (c == '\u03A3') = false := by
      apply beq_eq_false_iff_ne.2
      rintro rfl
      exact hcapital hc
    simp only [lowerFrom, hsigma, Bool.false_and, Bool.false_eq_true, if_false, ih _ hrest]
    rw [hc, List.singleton_append]

/-- A text in small letters stays as it is. -/
theorem lower_lower (s : String) : lower (lower s) = lower s := by
  unfold lower
  rw [String.toList_ofList, lowerFrom_eq_self [] fun c => isSmall_of_mem_lowerFrom]

/-- A text in small letters lies in ranges that all runs avoid only where the text lay in them. -/
theorem inRanges_of_mem_lowerFrom {ranges : List (Nat × Nat)} {before s : List Char} {d : Char}
    (havoid : ∀ run ∈ lowerRuns, ∀ range ∈ ranges, avoids (moved run) range = true)
    (hothers : ∀ d ∈ unrunLetters, inRanges ranges d = false)
    (hd : d ∈ lowerFrom before s) (h : inRanges ranges d = true) :
    ∃ c ∈ s, inRanges ranges c = true := by
  rcases mem_lowerFrom hd with hother | ⟨c, hc, -, rfl⟩
  · rw [hothers d hother] at h
    cases h
  · exact ⟨c, hc, inRanges_of_moveCase havoid h⟩

end StoryRegistry.Text
