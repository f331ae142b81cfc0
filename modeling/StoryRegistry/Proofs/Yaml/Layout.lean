import StoryRegistry.Proofs.Value.Json
import StoryRegistry.Proofs.Text.Ascii
import StoryRegistry.Proofs.Text.Writable
import StoryRegistry.Yaml.Layout

/-!
# Characters of YAML texts

The YAML text of a document holds line feeds and printing ASCII characters and nothing else, whatever
texts are in the document. It can therefore always be written, and is read from a file as it was
written. It is not blank if the document has an entry.
-/

set_option autoImplicit false

namespace StoryRegistry

namespace Text

/-- Every character is plain. -/
def ArePlain (cs : List Char) : Prop := ∀ c ∈ cs, IsPlain c

instance (cs : List Char) : Decidable (ArePlain cs) := List.decidableBAll IsPlain cs

namespace ArePlain

variable {cs ds : List Char} {c : Char}

theorem nil : ArePlain [] := List.forall_mem_nil _

theorem cons (hc : IsPlain c) (h : ArePlain cs) : ArePlain (c :: cs) := List.forall_mem_cons.2 ⟨hc, h⟩

theorem append (h : ArePlain cs) (h' : ArePlain ds) : ArePlain (cs ++ ds) :=
  List.forall_mem_append.2 ⟨h, h'⟩

theorem reverse (h : ArePlain cs) : ArePlain cs.reverse := fun c hc => h c (List.mem_reverse.1 hc)

theorem replicate (hc : IsPlain c) (n : Nat) : ArePlain (List.replicate n c) := fun _ hd =>
  List.eq_of_mem_replicate hd ▸ hc

end ArePlain

/-- What stands before and after something in a text is in the text. -/
theorem mem_of_cutAt? {needle s before after : List Char} (h : cutAt? needle s = some (before, after))
    {c : Char} (hc : c ∈ before ∨ c ∈ after) : c ∈ s := by
  rw [eq_append_of_cutAt? h]
  rcases hc with hc | hc <;> simp [hc]

/-- Of a text that is trimmed away every character is blank. -/
theorem isBlank_of_trim_eq_nil {s : List Char} (h : trim s = []) : ∀ c ∈ s, isBlank c = true := by
  rw [trim, List.reverse_eq_nil_iff, List.dropWhile_eq_nil_iff] at h
  have hnil : s.dropWhile isBlank = [] := by
    by_contra hne
    obtain ⟨c, rest, hdrop⟩ := List.exists_cons_of_ne_nil hne
    have hblank := h c (by simp [hdrop])
    have hnot := List.head?_dropWhile_not isBlank s
    rw [hdrop] at hnot
    simp [hblank] at hnot
  exact List.dropWhile_eq_nil_iff.1 hnil

end Text

namespace Yaml

open Text (IsPlain AllPlain ArePlain)

/-! ## Scalars -/

theorem isPlain_iff {c : Char} : IsPlain c ↔ isSpecial c = false := by
  simp only [isSpecial, IsPlain, Bool.not_eq_false', Bool.or_eq_true, beq_iff_eq, Bool.and_eq_true,
    decide_eq_true_eq, Nat.lt_succ_iff]

/-- A text that is not written in double quotes holds plain characters. -/
theorem arePlain_of_styleOf {asKey : Bool} {s : String} (h : styleOf asKey s ≠ .double) :
    ArePlain s.toList := by
  have hsingle (hallows : allowsSingle s.toList = true) : ArePlain s.toList := by
    intro c hc
    simp only [allowsSingle, Bool.and_eq_true, Bool.not_eq_true'] at hallows
    have hspecial := List.any_eq_false.1 hallows.1.1 c hc
    exact isPlain_iff.2 (by simpa using hspecial)
  unfold styleOf at h
  dsimp only at h
  split at h
  · rename_i hplain
    simp only [allowsPlain, Bool.and_eq_true] at hplain
    exact hsingle hplain.1.2.1.1.1.1.1
  · split at h
    · rename_i hquoted
      rcases Bool.or_eq_true_iff.1 (Bool.and_eq_true_iff.1 hquoted).1 with hempty | hallows
      · rw [List.isEmpty_iff.1 hempty]
        exact .nil
      · exact hsingle hallows
    · exact absurd rfl h

theorem arePlain_newLine (indent : Nat) : ArePlain (newLine indent) :=
  .cons (.inl rfl) (.replicate (by decide) _)

theorem mem_of_mem_runs {s run : List Char} {c : Char} (hrun : run ∈ runs s) (hc : c ∈ run) : c ∈ s := by
  induction s generalizing run with
  | nil => simp [runs] at hrun
  | cons d rest ih =>
    rw [runs] at hrun
    split at hrun
    · rename_i e first more heq
      have hfirst := @ih (e :: first) (heq ▸ List.mem_cons_self)
      have hmore (other : List Char) (hother : other ∈ more) :=
        @ih other (heq ▸ List.mem_cons_of_mem _ hother)
      have hjoined : run ∈ (d :: e :: first) :: more ∨ run ∈ [d] :: (e :: first) :: more := by
        dsimp only at hrun
        generalize (if (isSpaceOrFeed d || isSpaceOrFeed e) = true then d == e else true) = alike at hrun
        cases alike
        · exact .inr hrun
        · exact .inl hrun
      simp only [List.mem_cons] at hjoined
      rcases hjoined with (rfl | hrun) | rfl | rfl | hrun
      · rcases List.mem_cons.1 hc with rfl | hc
        · exact List.mem_cons_self
        · exact List.mem_cons_of_mem _ (hfirst hc)
      · exact List.mem_cons_of_mem _ (hmore run hrun hc)
      · exact List.mem_singleton.1 hc ▸ List.mem_cons_self
      · exact List.mem_cons_of_mem _ (hfirst hc)
      · exact List.mem_cons_of_mem _ (hmore run hrun hc)
    · rcases List.mem_cons.1 hrun with rfl | hrun
      · exact List.mem_singleton.1 hc ▸ List.mem_cons_self
      · exact List.mem_cons_of_mem _ (ih hrun hc)

theorem arePlain_foldRuns {keepEnds : Bool} {indent column : Nat} {first : Bool}
    {parts : List (List Char)} (h : ∀ part ∈ parts, ArePlain part) :
    ArePlain (foldRuns keepEnds indent first column parts) := by
  induction parts generalizing first column with
  | nil => exact .nil
  | cons part rest ih =>
    obtain ⟨hpart, hrest⟩ := List.forall_mem_cons.1 h
    rw [foldRuns]
    split
    · exact (arePlain_newLine _).append (ih hrest)
    · split
      · exact ((ArePlain.replicate (.inl rfl) _).append (arePlain_newLine _)).append (ih hrest)
      · exact hpart.append (ih hrest)

theorem arePlain_doubleQuotes {s : List Char} (h : ArePlain s) : ArePlain (doubleQuotes s) := by
  intro d hd
  obtain ⟨c, hc, hd⟩ := List.mem_flatMap.1 hd
  split at hd
  · simp only [List.mem_cons, List.not_mem_nil, or_false, or_self] at hd
    exact hd ▸ h c hc
  · exact List.mem_singleton.1 hd ▸ h c hc

theorem arePlain_singleQuoted {split : Bool} {indent column : Nat} {s : List Char} (h : ArePlain s) :
    ArePlain (singleQuoted split indent column s) := by
  refine ArePlain.append (.cons (by decide) ?_) (.cons (by decide) .nil)
  split
  · refine arePlain_foldRuns fun part hpart => ?_
    obtain ⟨run, hrun, rfl⟩ := List.mem_map.1 hpart
    exact arePlain_doubleQuotes fun c hc => h c (mem_of_mem_runs hrun hc)
  · exact arePlain_doubleQuotes h

theorem isPlain_digitChar (d : Nat) : IsPlain (Nat.digitChar d) := by
  fun_cases Nat.digitChar d <;> decide

theorem isPlain_toUpper {c : Char} (h : IsPlain c) : IsPlain c.toUpper := by
  have hall : ∀ n < 128, IsPlain (Char.ofNat n) → IsPlain (Char.ofNat n).toUpper := by decide
  refine @Text.forall_ascii (fun c => IsPlain c → IsPlain c.toUpper) hall c ?_ h
  rcases h with rfl | ⟨-, hc⟩
  · decide
  · omega

theorem arePlain_capitalHex (count n : Nat) : ArePlain (capitalHex count n) := by
  intro d hd
  obtain ⟨c, hc, rfl⟩ := List.mem_map.1 hd
  apply isPlain_toUpper
  rcases List.mem_append.1 hc with hc | hc
  · exact List.eq_of_mem_replicate hc ▸ by decide
  · rcases Text.mem_toDigitsCore hc with ⟨d, rfl⟩ | hc
    · exact isPlain_digitChar d
    · cases hc

/-- A character that is not escaped is plain, and so is every character of an escape. -/
theorem arePlain_escaped? (c : Char) : ArePlain ((escaped? c).getD [c]) := by
  unfold escaped?
  split
  · rename_i letter hletter
    refine .cons (by decide) (.cons ?_ .nil)
    unfold escapeLetter? at hletter
    split at hletter <;> cases hletter <;> decide
  · split
    · rename_i hprints
      refine .cons (isPlain_iff.2 ?_) .nil
      rw [isSpecial, hprints, Bool.or_true, Bool.not_true]
    · dsimp only
      repeat' split
      all_goals exact .cons (by decide) (.cons (by decide) (arePlain_capitalHex _ _))

theorem arePlain_doubleChars {split : Bool} {indent column : Nat} {first : Bool}
    {pending s : List Char} (h : ArePlain pending) :
    ArePlain (doubleChars split indent first column pending s) := by
  have hbreak : ArePlain ('\\' :: newLine indent) := .cons (by decide) (arePlain_newLine _)
  have hmark (next : Option Char) : ArePlain (if (next == some ' ') = true then ['\\'] else []) := by
    split <;> decide
  induction s generalizing first column pending with
  | nil => exact h.reverse
  | cons c rest ih =>
    have hescaped := arePlain_escaped? c
    rw [doubleChars]
    dsimp only
    split
    · rename_i text heq
      rw [heq] at hescaped
      have hwritten : ArePlain (pending.reverse ++ text) := h.reverse.append hescaped
      split
      · exact ((hwritten.append hbreak).append (hmark _)).append (ih .nil)
      · exact hwritten.append (ih .nil)
    · rename_i heq
      rw [heq] at hescaped
      split
      · exact ((h.reverse.append hbreak).append (hmark _)).append (ih hescaped)
      · exact ih (.cons (hescaped c List.mem_cons_self) h)

theorem arePlain_scalarText (asKey : Bool) (indent column : Nat) (s : String) :
    ArePlain (scalarText asKey indent column s) := by
  have hplain (h : styleOf asKey s ≠ .double) : ArePlain s.toList := arePlain_of_styleOf h
  unfold scalarText
  cases hstyle : styleOf asKey s with
  | plain =>
    have hchars := hplain (by simp [hstyle])
    cases asKey with
    | true => exact hchars
    | false => exact arePlain_foldRuns fun run hrun c hc => hchars c (mem_of_mem_runs hrun hc)
  | single => exact arePlain_singleQuoted (hplain (by simp [hstyle]))
  | double => exact .append (.cons (by decide) (arePlain_doubleChars .nil)) (.cons (by decide) .nil)

theorem allPlain_numberText (x : Double) : AllPlain (numberText x) := by
  have htext : AllPlain (x.textWith ⟨".inf", ".nan"⟩) :=
    Double.allPlain_textWith (by decide) (by decide) x
  have hpoint : ArePlain ".0e".toList := by decide
  unfold numberText
  dsimp only
  split
  · rename_i mantissa exponent hcut
    have hmantissa : ArePlain mantissa := fun c hc => htext c (Text.mem_of_cutAt? hcut (.inl hc))
    have hexponent : ArePlain exponent := fun c hc => htext c (Text.mem_of_cutAt? hcut (.inr hc))
    split
    · exact htext
    · exact Text.allPlain_ofList ((hmantissa.append hpoint).append hexponent)
  · exact htext

/-! ## Values -/

theorem arePlain_inlineText? {indent column : Nat} {v : Value} :
    ArePlain ((inlineText? indent column v).getD []) := by
  unfold inlineText?
  split
  · decide
  · rename_i b
    cases b <;> decide
  · exact Text.allPlain_toString _
  · exact allPlain_numberText _
  · exact arePlain_scalarText _ _ _ _
  · exact arePlain_scalarText _ _ _ _
  · decide
  · decide
  · exact .nil

theorem arePlain_stack {indent : Nat} {parts : List (List Char)} (h : ∀ part ∈ parts, ArePlain part) :
    ArePlain (stack indent parts) := by
  unfold stack
  induction parts with
  | nil => exact .nil
  | cons part rest ih =>
    obtain ⟨hpart, hrest⟩ := List.forall_mem_cons.1 h
    cases rest with
    | nil => simpa [List.intercalate] using hpart
    | cons next more =>
      have hcons : (newLine indent).intercalate (part :: next :: more) =
          part ++ newLine indent ++ (newLine indent).intercalate (next :: more) := by
        simp [List.intercalate]
      rw [hcons]
      exact (hpart.append (arePlain_newLine _)).append (ih hrest)

mutual

theorem arePlain_afterMark : ∀ (v : Value) (column : Nat), ArePlain (afterMark column v)
  | .list (v :: rest), column => by
    rw [afterMark]
    exact arePlain_stack (arePlain_itemLines (v :: rest) column)
  | .map (e :: rest), column => by
    rw [afterMark]
    exact arePlain_stack (arePlain_entryLines (e :: rest) column)
  | .null, column | .bool _, column | .int _, column | .double _, column | .string _, column
  | .code _, column | .list [], column | .map [], column => by
    simp only [afterMark]
    exact arePlain_inlineText?

theorem arePlain_afterKey : ∀ (v : Value) (indent column : Nat), ArePlain (afterKey indent column v)
  | .list (v :: rest), indent, column => by
    rw [afterKey]
    exact (arePlain_newLine _).append (arePlain_stack (arePlain_itemLines (v :: rest) indent))
  | .map (e :: rest), indent, column => by
    rw [afterKey]
    exact (arePlain_newLine _).append (arePlain_stack (arePlain_entryLines (e :: rest) (indent + 2)))
  | .null, indent, column | .bool _, indent, column | .int _, indent, column
  | .double _, indent, column | .string _, indent, column | .code _, indent, column
  | .list [], indent, column | .map [], indent, column => by
    simp only [afterKey]
    exact .cons (by decide) arePlain_inlineText?

theorem arePlain_itemLines : ∀ (items : List Value) (indent : Nat),
    ∀ line ∈ itemLines indent items, ArePlain line
  | [], indent => by simp [itemLines]
  | v :: rest, indent => by
    rw [itemLines]
    refine List.forall_mem_cons.2 ⟨?_, arePlain_itemLines rest indent⟩
    exact .cons (by decide) (.cons (by decide) (arePlain_afterMark v (indent + 2)))

theorem arePlain_entryLines : ∀ (entries : List (String × Value)) (indent : Nat),
    ∀ line ∈ entryLines indent entries, ArePlain line
  | [], indent => by simp [entryLines]
  | (key, v) :: rest, indent => by
    rw [entryLines]
    refine List.forall_mem_cons.2 ⟨?_, arePlain_entryLines rest indent⟩
    dsimp only
    split
    · exact ((arePlain_scalarText _ _ _ _).append (.cons (by decide) .nil)).append
        (arePlain_afterKey v _ _)
    · refine .append (.append (.cons (by decide) (.cons (by decide) (arePlain_scalarText _ _ _ _)))
        (arePlain_newLine _)) ?_
      exact .cons (by decide) (.cons (by decide) (arePlain_afterMark v (indent + 2)))

end

/-- The text of a document holds plain characters. -/
theorem allPlain_documentText (entries : Table Value) : AllPlain (documentText entries) := by
  unfold documentText
  split
  · decide
  · exact Text.allPlain_ofList ((arePlain_stack (arePlain_entryLines entries 0)).append (by decide))

/-- The text of a document can be written. -/
theorem isWritable_documentText (entries : Table Value) : Text.isWritable (documentText entries) = true :=
  Text.isWritable_iff.2 fun c hc => (allPlain_documentText entries c hc).surrogate?

theorem return_not_mem_documentText (entries : Table Value) : '\r' ∉ (documentText entries).toList :=
  fun h => absurd (allPlain_documentText entries _ h) (by decide)

/-- The text of a document is not blank. -/
theorem trim_documentText_ne_nil (entries : Table Value) :
    Text.trim (documentText entries).toList ≠ [] := by
  intro htrim
  have hblank := Text.isBlank_of_trim_eq_nil htrim
  cases entries with
  | nil => exact absurd (hblank '\x7b' (by decide)) (by decide)
  | cons e rest =>
    obtain ⟨key, v⟩ := e
    refine absurd (hblank ':' ?_) (by decide)
    have hentry : ∃ line more, entryLines 0 ((key, v) :: rest) = line :: more ∧ ':' ∈ line := by
      rw [entryLines]
      refine ⟨_, _, rfl, ?_⟩
      dsimp only
      split <;> simp
    obtain ⟨line, more, hlines, hmem⟩ := hentry
    have hstack : ':' ∈ stack 0 (line :: more) := by
      cases more with
      | nil => simpa [stack, List.intercalate] using hmem
      | cons next others => simp [stack, List.intercalate, hmem]
    show ':' ∈ (String.ofList (stack 0 (entryLines 0 ((key, v) :: rest)) ++ ['\n'])).toList
    rw [String.toList_ofList, hlines]
    exact List.mem_append_left _ hstack

end Yaml

end StoryRegistry
