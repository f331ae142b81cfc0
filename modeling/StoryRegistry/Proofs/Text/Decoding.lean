import Mathlib.Data.Nat.Notation
import Mathlib.Tactic.IntervalCases
import StoryRegistry.Text.Utf8

/-!
# Reading what was written as UTF-8

The bytes of a text are read as the text (`decode_toUTF8`). A character has up to four bytes, of
which the first one says how many follow it and each further one carries six bits of the code point.
The second one is the place where a form that is longer than it has to be, half a pair, or what is
beyond the last character would show.
-/

set_option autoImplicit false

namespace StoryRegistry.Text.Utf8

/-! ## One character -/

/-- Where a second byte is one that may follow the first, the others continue the two. -/
theorem first?_of_lead {b second : ℕ} {lead : Lead} {bytes : List ℕ} (hb : 0x80 ≤ b)
    (hlead : lead? b = some lead) (hleast : lead.least ≤ second) (hmost : second ≤ lead.most) :
    first? (b :: second :: bytes) = continue? lead.more 1 lead.bits (second :: bytes) := by
  have hrange : (decide (second < lead.least) || decide (lead.most < second)) = false := by
    simp [hleast, hmost]
  simp only [first?, if_neg (not_lt.2 hb), hlead, hrange, Bool.false_eq_true, if_false]

/-- A byte that continues a character adds the six bits that it carries. -/
theorem continue?_cons {more done code low : ℕ} {bytes : List ℕ} (h : low < 64) :
    continue? (more + 1) done code ((low + 0x80) :: bytes) =
      continue? more (done + 1) (code * 64 + low) bytes := by
  have hbyte : isContinuation (low + 0x80) = true := by
    simp only [isContinuation, Bool.and_eq_true, decide_eq_true_eq]
    omega
  simp only [continue?, hbyte, if_true, Nat.add_sub_cancel]

theorem lead?_two {bits : ℕ} (h : 2 ≤ bits) (h' : bits < 32) :
    lead? (bits + 0xC0) = some ⟨1, 0x80, 0xBF, bits⟩ := by
  interval_cases bits <;> rfl

theorem lead?_three {bits : ℕ} (h : bits < 16) :
    lead? (bits + 0xE0) =
      some ⟨2, if bits = 0 then 0xA0 else 0x80, if bits = 13 then 0x9F else 0xBF, bits⟩ := by
  interval_cases bits <;> rfl

theorem lead?_four {bits : ℕ} (h : bits < 5) :
    lead? (bits + 0xF0) =
      some ⟨3, if bits = 0 then 0x90 else 0x80, if bits = 4 then 0x8F else 0xBF, bits⟩ := by
  interval_cases bits <;> rfl

/-- The bytes of a character, as numbers. -/
def charBytes (c : Char) : List ℕ := (String.utf8EncodeChar c).map UInt8.toNat

/-- The code point of a character is read from its bytes. -/
theorem first?_charBytes (c : Char) (rest : List ℕ) :
    first? (charBytes c ++ rest) = .ok (c.toNat, rest) := by
  have hvalid : c.toNat < 0xD800 ∨ 0xDFFF < c.toNat ∧ c.toNat < 0x110000 := c.valid
  have hcode : c.val.toNat = c.toNat := rfl
  have hbyte {b : ℕ} (hb : b < 256) : (UInt8.ofNat b).toNat = b := Nat.mod_eq_of_lt hb
  have hsame {n : ℕ} (hn : n = c.toNat) :
      (Except.ok (n, rest) : Except (ℕ × Malformed) (ℕ × List ℕ)) = .ok (c.toNat, rest) := by
    rw [hn]
  unfold charBytes String.utf8EncodeChar
  dsimp only
  rw [hcode]
  generalize c.toNat = v at hvalid hsame ⊢
  -- the cases are the numbers of bytes
  by_cases hone : v ≤ 0x7f
  · rw [if_pos hone, List.map_singleton, hbyte (by omega)]
    show first? (v :: rest) = _
    rw [first?, if_pos (by omega)]
  rw [if_neg hone]
  by_cases htwo : v ≤ 0x7ff
  · rw [if_pos htwo]
    simp only [List.map_cons, List.map_nil, List.cons_append, List.nil_append]
    rw [hbyte (by omega), hbyte (by omega),
      first?_of_lead (by omega) (lead?_two (by omega) (by omega)) (by dsimp only; omega)
        (by dsimp only; omega), continue?_cons (by omega)]
    exact hsame (by dsimp only; omega)
  rw [if_neg htwo]
  by_cases hthree : v ≤ 0xffff
  · rw [if_pos hthree]
    simp only [List.map_cons, List.map_nil, List.cons_append, List.nil_append]
    rw [hbyte (by omega), hbyte (by omega), hbyte (by omega),
      first?_of_lead (by omega) (lead?_three (by omega)) (by dsimp only; split <;> omega)
        (by dsimp only; split <;> omega), continue?_cons (by omega), continue?_cons (by omega)]
    exact hsame (by dsimp only; omega)
  · rw [if_neg hthree]
    simp only [List.map_cons, List.map_nil, List.cons_append, List.nil_append]
    rw [hbyte (by omega), hbyte (by omega), hbyte (by omega), hbyte (by omega),
      first?_of_lead (by omega) (lead?_four (by omega)) (by dsimp only; split <;> omega)
        (by dsimp only; split <;> omega), continue?_cons (by omega), continue?_cons (by omega),
      continue?_cons (by omega)]
    exact hsame (by dsimp only; omega)

/-! ## A text -/

/-- Characters are read from their bytes; the fuel is the number of bytes. -/
theorem charsFrom_flatMap (cs : List Char) {fuel : ℕ} (h : (cs.flatMap charBytes).length ≤ fuel)
    (done : ℕ) : charsFrom fuel done (cs.flatMap charBytes) = .ok cs := by
  induction cs generalizing fuel done with
  | nil => cases fuel <;> rfl
  | cons c rest ih =>
    obtain ⟨b, bytes, hbytes⟩ : ∃ b bytes, charBytes c = b :: bytes :=
      List.exists_cons_of_ne_nil fun hempty =>
        String.utf8EncodeChar_ne_nil (List.map_eq_nil_iff.1 hempty)
    have hfirst := first?_charBytes c (rest.flatMap charBytes)
    rw [List.flatMap_cons, hbytes, List.cons_append] at h ⊢
    rw [hbytes, List.cons_append] at hfirst
    rw [List.length_cons, List.length_append] at h
    obtain ⟨fuel, rfl⟩ : ∃ k, fuel = k + 1 := ⟨fuel - 1, by omega⟩
    unfold charsFrom
    simp only [hfirst, ih (show (rest.flatMap charBytes).length ≤ fuel by omega), bind, Except.bind]
    exact congrArg (fun c => Except.ok (c :: rest)) (Char.ofNat_toNat c)

/-- A text is read from the bytes of its UTF-8 form. -/
theorem decode_toUTF8 (s : String) : decode s.toUTF8.data.toList = .ok s := by
  have hbytes : s.toUTF8.data.toList.map UInt8.toNat = s.toList.flatMap charBytes := by
    have hform : s.toUTF8 = s.toList.utf8Encode := String.utf8Encode_toList.symm
    rw [hform, List.utf8Encode, List.data_toByteArray, List.toList_toArray, List.map_flatMap]
    rfl
  unfold decode
  rw [hbytes, charsFrom_flatMap s.toList (by rw [← hbytes, List.length_map])]
  exact congrArg Except.ok String.ofList_toList

/-- What was written is read as it was. -/
theorem decode_of_encode? {s : String} {bytes : List UInt8} (h : encode? s = some bytes) :
    decode bytes = .ok s := by
  unfold encode? at h
  split at h
  · cases h
    exact decode_toUTF8 s
  · cases h

end StoryRegistry.Text.Utf8
