import Mathlib.Data.List.Sort
import StoryRegistry.Text.Order
import StoryRegistry.Glob.Alternation

/-!
# Texts in order

Texts put in order, each once, depend only on which texts there are.
-/

set_option autoImplicit false

namespace StoryRegistry

/-! ## The order -/

namespace Text

/-- Different characters stand for different code points. -/
theorem codeOf_injective : Function.Injective codeOf := by
  -- a character that carries a surrogate stands for what no character is
  have hcode (c : Char) : (codeOf c = c.toNat - 0x100000 ∧ 0x10D800 ≤ c.toNat ∧ c.toNat ≤ 0x10DFFF) ∨
      (codeOf c = c.toNat ∧ (c.toNat < 0xD800 ∨ 0xDFFF < c.toNat)) := by
    unfold codeOf surrogate?
    split
    · rename_i hc
      exact .inl ⟨Option.getD_some, by simpa using hc⟩
    · rename_i hc
      exact .inr ⟨Option.getD_none, c.valid.imp id And.left⟩
  intro c d h
  refine Char.toNat_inj.1 ?_
  rcases hcode c with ⟨hc, hc'⟩ | ⟨hc, hc'⟩ <;> rcases hcode d with ⟨hd, hd'⟩ | ⟨hd, hd'⟩ <;> omega

theorem precedes_total (s t : List Char) : precedes s t = true ∨ precedes t s = true := by
  induction s generalizing t with
  | nil => exact .inl rfl
  | cons a s ih =>
    cases t with
    | nil => exact .inr rfl
    | cons b t =>
      unfold precedes
      rcases Nat.lt_trichotomy (codeOf a) (codeOf b) with h | h | h
      · simp [h]
      · simpa [h] using ih t
      · simp [h]

theorem precedes_trans {s t u : List Char} (h : precedes s t = true) (h' : precedes t u = true) :
    precedes s u = true := by
  induction s generalizing t u with
  | nil => rfl
  | cons a s ih =>
    cases t with
    | nil => cases h
    | cons b t =>
      cases u with
      | nil => cases h'
      | cons c u =>
        unfold precedes at h h' ⊢
        grind

theorem precedes_antisymm {s t : List Char} (h : precedes s t = true) (h' : precedes t s = true) :
    s = t := by
  induction s generalizing t with
  | nil =>
    cases t with
    | nil => rfl
    | cons b t => cases h'
  | cons a s ih =>
    cases t with
    | nil => cases h
    | cons b t =>
      unfold precedes at h h'
      rcases Nat.lt_trichotomy (codeOf a) (codeOf b) with hlt | heq | hgt
      · simp [hlt, Nat.not_lt.2 hlt.le] at h'
      · rw [codeOf_injective heq] at h h' ⊢
        simp only [lt_irrefl, if_false] at h h'
        rw [ih h h']
      · simp [hgt, Nat.not_lt.2 hgt.le] at h

/-- The first text comes before the second one or equals it. -/
def Precedes (s t : String) : Prop := precedes s.toList t.toList = true

instance : DecidableRel Precedes := fun _ _ => inferInstanceAs (Decidable (_ = true))

instance : Std.Total Precedes := ⟨fun s t => precedes_total s.toList t.toList⟩

instance : IsTrans String Precedes := ⟨fun _ _ _ => precedes_trans⟩

instance : Std.Antisymm Precedes := ⟨fun _ _ h h' => String.toList_inj.1 (precedes_antisymm h h')⟩

theorem sorted_eq (texts : List String) : sorted texts = texts.insertionSort Precedes := by
  have hplace (s : String) (texts : List String) : place s texts = texts.orderedInsert Precedes s := by
    induction texts with
    | nil => rfl
    | cons t rest ih =>
      rw [place, List.orderedInsert_cons, ih]
      rfl
  unfold sorted
  induction texts with
  | nil => rfl
  | cons s rest ih => rw [List.foldr_cons, ih, hplace, List.insertionSort_cons]

theorem mem_sorted {s : String} {texts : List String} : s ∈ sorted texts ↔ s ∈ texts := by
  rw [sorted_eq, List.mem_insertionSort]

theorem pairwise_sorted (texts : List String) : (sorted texts).Pairwise Precedes := by
  rw [sorted_eq]
  exact List.pairwise_insertionSort _ _

theorem nodup_sorted {texts : List String} (h : texts.Nodup) : (sorted texts).Nodup := by
  rw [sorted_eq]
  exact (List.perm_insertionSort _ _).nodup_iff.2 h

/-- A text that comes before another one is below it in the order of the code points. -/
theorem map_codeOf_lt {s t : List Char} (h : precedes s t = true) (hne : s ≠ t) :
    s.map codeOf < t.map codeOf := by
  induction s generalizing t with
  | nil =>
    cases t with
    | nil => exact absurd rfl hne
    | cons b t => exact List.nil_lt_cons _ _
  | cons a s ih =>
    cases t with
    | nil => cases h
    | cons b t =>
      rw [List.map_cons, List.map_cons, List.cons_lt_cons_iff]
      unfold precedes at h
      rcases Nat.lt_trichotomy (codeOf a) (codeOf b) with hlt | heq | hgt
      · exact .inl hlt
      · simp only [heq, lt_irrefl, if_false] at h
        exact .inr ⟨heq, ih h fun hst => hne (by rw [codeOf_injective heq, hst])⟩
      · simp [hgt, Nat.not_lt.2 hgt.le] at h

/-- The texts ascend by their code points, each of them once. -/
def Ascending (texts : List String) : Prop :=
  texts.Pairwise fun s t => s.toList.map codeOf < t.toList.map codeOf

theorem ascending_sorted {texts : List String} (h : texts.Nodup) : Ascending (sorted texts) := by
  refine (pairwise_sorted texts).imp₂ ?_ (nodup_sorted h)
  intro s t hprecedes hne
  exact map_codeOf_lt hprecedes fun heq => hne (String.toList_inj.1 heq)

/-- Texts that ascend are determined by which texts there are. -/
theorem Ascending.eq_of_mem_iff {texts texts' : List String} (h : Ascending texts)
    (h' : Ascending texts') (hmem : ∀ s, s ∈ texts ↔ s ∈ texts') : texts = texts' := by
  have : Std.Asymm fun s t : String => s.toList.map codeOf < t.toList.map codeOf :=
    ⟨fun _ _ => List.lt_asymm⟩
  exact List.Pairwise.eq_of_mem_iff h h' hmem

end Text

/-! ## Each once -/

namespace Glob

variable {α : Type} [BEq α] [LawfulBEq α]

theorem mem_distinct {a : α} {items : List α} : a ∈ distinct items ↔ a ∈ items := by
  induction items with
  | nil => rfl
  | cons first rest ih =>
    unfold distinct
    by_cases h : a = first <;> simp [h, ih]

theorem nodup_distinct (items : List α) : (distinct items).Nodup := by
  induction items with
  | nil => exact List.nodup_nil
  | cons first rest ih =>
    unfold distinct
    exact List.nodup_cons.2 ⟨by simp, ih.filter _⟩

end Glob

end StoryRegistry
