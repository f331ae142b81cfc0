import StoryRegistry.Text.Utf8

/-!
# Texts that have a UTF-8 form

A text put together from others has a UTF-8 form exactly when they have one, and the form tells the
text.
-/

set_option autoImplicit false

namespace StoryRegistry.Text

theorem surrogate?_of_lt {c : Char} (h : c.toNat < 0x10D800) : surrogate? c = none := by
  unfold surrogate?
  rw [if_neg (by simp; omega)]

/-- A text made of characters has a UTF-8 form if none of them is a surrogate. -/
theorem isWritable_ofList {cs : List Char} :
    isWritable (String.ofList cs) = cs.all fun c => (surrogate? c).isNone := by
  simp [isWritable]

/-- Characters that are no surrogates make a text that has a UTF-8 form. -/
theorem isWritable_of_chars {cs : List Char} (h : ∀ c ∈ cs, surrogate? c = none) :
    isWritable (String.ofList cs) = true := by
  rw [isWritable_ofList, List.all_eq_true]
  intro c hc
  rw [h c hc]
  rfl

/-- Two texts in a row have a UTF-8 form exactly when both have one. -/
theorem isWritable_append {s t : String} :
    isWritable (s ++ t) = (isWritable s && isWritable t) := by
  simp [isWritable]

/-- Texts with another one between them have a UTF-8 form if all of them have one. -/
theorem isWritable_intercalate {between : String} {texts : List String}
    (hbetween : isWritable between = true) (h : ∀ s ∈ texts, isWritable s = true) :
    isWritable (between.intercalate texts) = true := by
  induction texts with
  | nil => rfl
  | cons first rest ih =>
    have hfirst := h first List.mem_cons_self
    cases rest with
    | nil => rwa [String.intercalate_singleton]
    | cons next more =>
      have hrest := ih fun s hs => h s (List.mem_cons_of_mem _ hs)
      rw [String.intercalate_cons_cons, isWritable_append, isWritable_append, hfirst, hbetween,
        hrest]
      rfl

namespace Utf8

/-- A text has the bytes of its UTF-8 form exactly when it has one. -/
theorem encode?_eq_some {s : String} (h : isWritable s = true) :
    encode? s = some s.toUTF8.data.toList := if_pos h

/-- Two texts with one UTF-8 form are equal. -/
theorem encode?_injective {s t : String} {bytes : List UInt8} (hs : encode? s = some bytes)
    (ht : encode? t = some bytes) : s = t := by
  have hform {u : String} (hu : encode? u = some bytes) : u.toByteArray.data.toList = bytes := by
    unfold encode? at hu
    split at hu
    · exact Option.some.inj hu
    · cases hu
  have hdata : s.toByteArray.data = t.toByteArray.data :=
    Array.toList_inj.1 ((hform hs).trans (hform ht).symm)
  exact String.toByteArray_inj.1 (ByteArray.ext hdata)

end Utf8

end StoryRegistry.Text
