import Mathlib.Data.Bool.AllAny
import StoryRegistry.Proofs.Naming
import StoryRegistry.Proofs.Text.Utf8
import StoryRegistry.Text.Quoted

/-!
# Texts made from texts that have a UTF-8 form

Cutting a text, joining texts and changing the case of letters make no surrogates: the tables of
cases lead to none. A literal holds none at all, as it shows a surrogate by its number.
-/

set_option autoImplicit false

namespace StoryRegistry.Text

/-- None of the characters is a surrogate. -/
def NoSurrogates (cs : List Char) : Prop := ∀ c ∈ cs, surrogate? c = none

/-- A text has a UTF-8 form exactly if no character of it is a surrogate. -/
theorem isWritable_iff {s : String} : isWritable s = true ↔ NoSurrogates s.toList := by
  simp [isWritable, NoSurrogates]

theorem NoSurrogates.append {cs ds : List Char} (h : NoSurrogates cs) (h' : NoSurrogates ds) :
    NoSurrogates (cs ++ ds) := List.forall_mem_append.2 ⟨h, h'⟩

theorem NoSurrogates.flatMap {cs : List Char} {f : Char → List Char} (h : NoSurrogates cs)
    (hf : ∀ c, surrogate? c = none → NoSurrogates (f c)) : NoSurrogates (cs.flatMap f) := by
  intro d hd
  obtain ⟨c, hc, hd⟩ := List.mem_flatMap.1 hd
  exact hf c (h c hc) d hd

/-! ## Capital letters -/

/-- A number that is no code point gives the character with the number nought. -/
theorem toNat_ofNat_le (n : Nat) : (Char.ofNat n).toNat ≤ n := by
  unfold Char.ofNat
  by_cases hvalid : n.isValidChar
  · rw [dif_pos hvalid]
    exact Nat.le_refl n
  · rw [dif_neg hvalid]
    exact Nat.zero_le n

theorem surrogate?_moveCase_upper {c : Char} (h : surrogate? c = none) :
    surrogate? (moveCase upperRuns c) = none := by
  have hruns : ∀ run ∈ upperRuns, (run.2.1 : Int) + run.2.2.2 < 0x10D800 :=
    List.all_iff_forall_prop.1 (by decide +kernel)
  unfold moveCase
  split
  · rename_i first last step distance hrun
    have hlast : (last : Int) + distance < 0x10D800 := hruns _ (List.mem_of_find?_eq_some hrun)
    have hinside := List.find?_some hrun
    simp only [Bool.and_eq_true, decide_eq_true_eq] at hinside
    refine surrogate?_of_lt (Nat.lt_of_le_of_lt (toNat_ofNat_le _) ?_)
    omega
  · exact h

/-- The capital form of a character holds no surrogate, unless the character is one. -/
theorem noSurrogates_upperChar {c : Char} (h : surrogate? c = none) :
    NoSurrogates (upperChar c) := by
  have hexpansions : ∀ entry ∈ upperExpansions, (entry.2.all (· < 0x10D800)) = true :=
    List.all_eq_true.1 (by decide +kernel)
  unfold upperChar
  split
  · rename_i codes hcodes
    intro d hd
    obtain ⟨code, hcode, rfl⟩ := List.mem_map.1 hd
    obtain ⟨before, after, hentry, -⟩ := List.lookup_eq_some_iff.1 hcodes
    have hall := hexpansions (c.toNat, codes) (by rw [hentry]; simp)
    have hbelow : code < 0x10D800 := by simpa using List.all_eq_true.1 hall code hcode
    exact surrogate?_of_lt (Nat.lt_of_le_of_lt (toNat_ofNat_le code) hbelow)
  · intro d hd
    rw [List.mem_singleton.1 hd]
    exact surrogate?_moveCase_upper h

/-! ## Names -/

theorem NoSurrogates.capitalizeWords {s : List Char} (h : NoSurrogates s) (inWord : Bool) :
    NoSurrogates (Naming.capitalizeWords inWord s) := by
  induction s generalizing inWord with
  | nil => exact h
  | cons c rest ih =>
    obtain ⟨hfirst, hrest⟩ := List.forall_mem_cons.1 h
    rw [Naming.capitalizeWords]
    split
    · exact (noSurrogates_upperChar hfirst).append (ih hrest _)
    · exact List.forall_mem_cons.2 ⟨hfirst, ih hrest _⟩

theorem toNat_digitChar_lt (d : Nat) : (Nat.digitChar d).toNat < 0x10D800 := by
  fun_cases Nat.digitChar d <;> decide

theorem mem_toDigitsCore {base fuel n : Nat} {digits : List Char} {c : Char}
    (h : c ∈ Nat.toDigitsCore base fuel n digits) : (∃ d, c = Nat.digitChar d) ∨ c ∈ digits := by
  induction fuel generalizing n digits with
  | zero => exact .inr h
  | succ fuel ih =>
    rw [Nat.toDigitsCore] at h
    split at h
    · exact (List.mem_cons.1 h).imp_left fun hc => ⟨_, hc⟩
    · rcases ih h with hdigit | h
      · exact .inl hdigit
      · exact (List.mem_cons.1 h).imp_left fun hc => ⟨_, hc⟩

theorem noSurrogates_hexDigits (count n : Nat) : NoSurrogates (hexDigits count n) := by
  refine NoSurrogates.append (fun c hc => ?_) fun c hc => ?_
  · rw [List.eq_of_mem_replicate hc]
    decide
  · rcases mem_toDigitsCore hc with ⟨d, rfl⟩ | hc
    · exact surrogate?_of_lt (toNat_digitChar_lt d)
    · cases hc

/-- A character of a literal is shown without surrogates, as long as the quote is none. -/
theorem noSurrogates_literalChar {quote : Char} (hquote : surrogate? quote = none) (c : Char) :
    NoSurrogates (literalChar quote c) := by
  have hmarked {mark : Char} (hmark : surrogate? mark = none) {rest : List Char}
      (hrest : NoSurrogates rest) : NoSurrogates ('\\' :: mark :: rest) :=
    List.forall_mem_cons.2 ⟨by decide, List.forall_mem_cons.2 ⟨hmark, hrest⟩⟩
  have hnothing : NoSurrogates [] := List.forall_mem_nil _
  have hbackslash : surrogate? '\\' = none := by decide
  unfold literalChar
  split
  · rename_i hescaped
    refine hmarked ?_ hnothing
    rcases Bool.or_eq_true_iff.1 hescaped with heq | heq
    · rwa [beq_iff_eq.1 heq]
    · rwa [beq_iff_eq.1 heq]
  · -- what follows is a mark, a number, or the character itself
    repeat' split
    all_goals first
      | exact hmarked (by decide) hnothing
      | exact hmarked (by decide) (noSurrogates_hexDigits _ _)
      | exact List.forall_mem_singleton.2 ‹surrogate? c = none›

/-- A literal has a UTF-8 form, whatever text it shows. -/
theorem isWritable_literal (s : String) : isWritable (literal s) = true := by
  have hquoted (quote : Char) (hquote : surrogate? quote = none) :
      NoSurrogates (quote :: s.toList.flatMap (literalChar quote) ++ [quote]) := by
    refine NoSurrogates.append (List.forall_mem_cons.2 ⟨hquote, fun d hd => ?_⟩)
      (List.forall_mem_singleton.2 hquote)
    obtain ⟨c, -, hd⟩ := List.mem_flatMap.1 hd
    exact noSurrogates_literalChar hquote c d hd
  refine isWritable_of_chars (hquoted _ ?_)
  split <;> decide

end StoryRegistry.Text
