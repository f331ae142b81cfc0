import StoryRegistry.Proofs.Double.Rounding
import StoryRegistry.Value.Json.Reading

/-!
# Reading written numbers

A number is written as digits, perhaps with a point among them and an exponent behind. Reading takes
the digits before the point, those after it and the exponent one after another, and what it makes of
them has the value of the digits (`readSize_of_parts`). So a written integer is read as the integer,
and the written digits of a number as the number.
-/

set_option autoImplicit false

namespace StoryRegistry

open Double (ofDecimal ofDigitValues rounded)

namespace Value

/-! ## Runs of digits -/

/-- The characters are ASCII digits. -/
def AreDigits (cs : List Char) : Prop := ∀ c ∈ cs, c.isDigit = true

theorem areDigits_toDigits (n : ℕ) : AreDigits (Nat.toDigits 10 n) := fun _ hc =>
  Nat.isDigit_of_mem_toDigits (by decide) (by decide) hc

theorem areDigits_replicate (n : ℕ) : AreDigits (List.replicate n '0') := fun _ hc =>
  List.eq_of_mem_replicate hc ▸ rfl

theorem AreDigits.append {cs ds : List Char} (h : AreDigits cs) (h' : AreDigits ds) :
    AreDigits (cs ++ ds) := List.forall_mem_append.2 ⟨h, h'⟩

/-- The values of digits. -/
def digitValues (cs : List Char) : List ℕ := cs.map fun c => c.toNat - 48

theorem AreDigits.filterMap {cs : List Char} (h : AreDigits cs) :
    cs.filterMap asciiDigit? = digitValues cs := by
  induction cs with
  | nil => rfl
  | cons c rest ih =>
    have hc : asciiDigit? c = some (c.toNat - 48) := if_pos (h c List.mem_cons_self)
    rw [List.filterMap_cons_some hc, ih fun d hd => h d (List.mem_cons_of_mem _ hd)]
    rfl

theorem ofDigitValues_digitValues (cs : List Char) :
    ofDigitValues (digitValues cs) = Nat.ofDigitChars 10 cs 0 := by
  unfold ofDigitValues digitValues
  rw [List.foldl_map]
  rfl

theorem exists_digitValues {cs : List Char} (h : cs ≠ []) : ∃ v vs, digitValues cs = v :: vs :=
  List.exists_cons_of_ne_nil (by simpa [digitValues] using h)

theorem AreDigits.ofDigitChars_lt {cs : List Char} (h : AreDigits cs) :
    Nat.ofDigitChars 10 cs 0 < 10 ^ cs.length := by
  induction cs with
  | nil => decide
  | cons c rest ih =>
    have hrest := ih fun d hd => h d (List.mem_cons_of_mem _ hd)
    have hc : c.toNat - '0'.toNat ≤ 9 := by
      have hdigit := h c List.mem_cons_self
      simp only [Char.isDigit, Bool.and_eq_true, decide_eq_true_eq] at hdigit
      have hmost : c.toNat ≤ 57 := hdigit.2
      have hnought : '0'.toNat = 48 := rfl
      omega
    rw [Nat.ofDigitChars_cons, Nat.ofDigitChars_eq_ofDigitChars_zero, List.length_cons, pow_succ]
    calc 10 ^ rest.length * (10 * 0 + (c.toNat - '0'.toNat)) + Nat.ofDigitChars 10 rest 0
        ≤ 10 ^ rest.length * 9 + Nat.ofDigitChars 10 rest 0 := by gcongr; omega
      _ < 10 ^ rest.length * 10 := by omega

/-- The digits of a number above nought do not begin with a nought. -/
theorem head?_toDigits {n : ℕ} (h : n ≠ 0) : (Nat.toDigits 10 n).head? ≠ some '0' := by
  intro hhead
  obtain ⟨rest, hdigits⟩ := List.head?_eq_some_iff.1 hhead
  have hrest : AreDigits rest := fun c hc =>
    areDigits_toDigits n c (hdigits ▸ List.mem_cons_of_mem _ hc)
  have hvalue : n = Nat.ofDigitChars 10 rest 0 := by
    conv_lhs => rw [← @Nat.ofDigitChars_ten_toDigits n, hdigits, Nat.ofDigitChars_cons]
    rfl
  obtain rfl | hne := eq_or_ne rest []
  · exact h hvalue
  · have hshort := (Nat.length_toDigits_le_iff (by decide) (List.length_pos_iff.2 hne)).2
      (hvalue ▸ hrest.ofDigitChars_lt)
    rw [hdigits] at hshort
    exact absurd hshort (by simp)

/-- No digit comes first. -/
def NoDigit (s : List Char) : Prop := ∀ c ∈ s.head?, c.isDigit = false

theorem spanDigits_append {cs rest : List Char} (h : AreDigits cs) (hrest : NoDigit rest) :
    spanDigits (cs ++ rest) = (digitValues cs, rest) := by
  have hstop : rest.takeWhile Char.isDigit = [] ∧ rest.dropWhile Char.isDigit = rest := by
    cases rest with
    | nil => exact ⟨rfl, rfl⟩
    | cons c more =>
      have hc := hrest c rfl
      simp [hc]
  unfold spanDigits
  rw [List.takeWhile_append_of_pos h, List.dropWhile_append_of_pos h, hstop.1, hstop.2,
    List.append_nil, h.filterMap]

/-! ## The parts of a number -/

theorem readWhole_append {cs rest : List Char} (h : AreDigits cs)
    (hzero : cs = ['0'] ∨ cs.head? ≠ some '0') (hne : cs ≠ []) (hrest : NoDigit rest) :
    readWhole (cs ++ rest) = (digitValues cs, rest) := by
  obtain rfl | hzero := hzero
  · rfl
  · obtain ⟨c, more, rfl⟩ := List.exists_cons_of_ne_nil hne
    have hc : c ≠ '0' := fun heq => hzero (by rw [heq]; rfl)
    rw [← spanDigits_append h hrest, readWhole.eq_def]
    split
    · rename_i heq
      cases heq
      exact absurd rfl hc
    · rfl

theorem readFraction_point {cs rest : List Char} (h : AreDigits cs) (hne : cs ≠ [])
    (hrest : NoDigit rest) :
    readFraction ('.' :: (cs ++ rest)) = (digitValues cs, rest) := by
  obtain ⟨v, vs, hvalues⟩ := exists_digitValues hne
  have hspan := spanDigits_append h hrest
  rw [hvalues] at hspan ⊢
  simp only [readFraction, hspan]

theorem readFraction_of_ne {s : List Char} (h : s.head? ≠ some '.') :
    readFraction s = ([], s) := by
  unfold readFraction
  split
  · exact absurd rfl h
  · rfl

theorem readExponent_sign (negative : Bool) {cs rest : List Char} (h : AreDigits cs) (hne : cs ≠ [])
    (hrest : NoDigit rest) :
    readExponent ('e' :: (if negative then '-' else '+') :: (cs ++ rest)) =
      (some (if negative then -(Nat.ofDigitChars 10 cs 0 : ℤ) else Nat.ofDigitChars 10 cs 0),
        rest) := by
  obtain ⟨v, vs, hvalues⟩ := exists_digitValues hne
  have hspan := spanDigits_append h hrest
  rw [← ofDigitValues_digitValues]
  rw [hvalues] at hspan ⊢
  cases negative <;> simp [readExponent, hspan]

theorem readExponent_of_ne {s : List Char} (h : ∀ c ∈ s.head?, c ≠ 'e' ∧ c ≠ 'E') :
    readExponent s = (none, s) := by
  cases s with
  | nil => rfl
  | cons c rest =>
    obtain ⟨hsmall, hlarge⟩ := h c rfl
    simp [readExponent, hsmall, hlarge]

/-- What is read from the parts of a number has the value of its digits. -/
theorem readSize_of_parts (negative : Bool) (text : List Char) {whole fraction s t rest : List Char}
    {exponent : Option ℤ} (hwhole : AreDigits whole) (hne : whole ≠ [])
    (hzero : whole = ['0'] ∨ whole.head? ≠ some '0') (hs : NoDigit s)
    (hfraction : AreDigits fraction)
    (hpoint : readFraction s = (digitValues fraction, t))
    (hexponent : readExponent t = (exponent, rest)) (hparts : fraction ≠ [] ∨ exponent.isSome = true) :
    readSize negative text (whole ++ s) =
      .ok (double (rounded negative
        (Nat.ofDigitChars 10 (whole ++ fraction) 0 *
          10 ^ (exponent.getD 0 - fraction.length))), rest) := by
  obtain ⟨v, vs, hvalues⟩ := exists_digitValues hne
  have hread := readWhole_append hwhole hzero hne hs
  have hparted : ((digitValues fraction).isEmpty && exponent.isNone) = false := by
    rw [Bool.and_eq_false_iff]
    refine hparts.imp (fun h => ?_) fun h => ?_
    · simpa [digitValues] using h
    · simpa using h
  have hsmall := (hwhole.append hfraction).ofDigitChars_lt
  have hlength (cs : List Char) : (digitValues cs).length = cs.length := List.length_map _
  have hjoined : digitValues whole ++ digitValues fraction = digitValues (whole ++ fraction) :=
    List.map_append.symm
  rw [hvalues] at hread
  unfold readSize
  simp only [hread, hpoint, hexponent, hparted, Bool.false_eq_true, if_false]
  rw [← hvalues, hjoined, ofDigitValues_digitValues, hlength, hlength,
    Double.ofDecimal_clampExponent _ hsmall _ (by simp), Double.ofDecimal_eq_rounded]

/-! ## Written numbers -/

/-- What stands behind a written value: nothing, a comma, or the end of the line. -/
def Follows (rest : List Char) : Prop := ∀ c ∈ rest.head?, c = ',' ∨ c = '\n'

namespace Follows

variable {rest : List Char}

theorem noDigit (h : Follows rest) : NoDigit rest := by
  intro c hc
  rcases h c hc with rfl | rfl <;> rfl

theorem readFraction_eq (h : Follows rest) : readFraction rest = ([], rest) := by
  refine readFraction_of_ne fun hpoint => ?_
  rcases h '.' hpoint with heq | heq <;> exact absurd heq (by decide)

theorem readExponent_eq (h : Follows rest) : readExponent rest = (none, rest) := by
  refine readExponent_of_ne fun c hc => ?_
  rcases h c hc with rfl | rfl <;> decide

end Follows

theorem exists_exponentText (k : ℤ) : ∃ cs, AreDigits cs ∧ cs ≠ [] ∧
    (Double.exponentText k).toList = (if k < 0 then '-' else '+') :: cs ∧
    Nat.ofDigitChars 10 cs 0 = k.natAbs := by
  have hdigits := areDigits_toDigits k.natAbs
  have hvalue := @Nat.ofDigitChars_ten_toDigits k.natAbs
  have hsign : (if k < 0 then "-" else "+" : String).toList = [if k < 0 then '-' else '+'] := by
    split <;> rfl
  by_cases hshort : k.natAbs < 10
  · refine ⟨'0' :: Nat.toDigits 10 k.natAbs, ?_, by simp, ?_, ?_⟩
    · exact List.forall_mem_cons.2 ⟨rfl, hdigits⟩
    · simp [Double.exponentText, hshort, hsign]
    · rw [Nat.ofDigitChars_cons]
      exact hvalue
  · refine ⟨Nat.toDigits 10 k.natAbs, hdigits, by simp, ?_, hvalue⟩
    simp [Double.exponentText, hshort, hsign]

theorem ite_neg_natAbs (k : ℤ) : (if decide (k < 0) then -(k.natAbs : ℤ) else k.natAbs) = k := by
  by_cases hk : k < 0
  · simp only [hk, decide_true, if_true]
    rw [Int.ofNat_natAbs_of_nonpos hk.le, neg_neg]
  · simp only [hk, decide_false, Bool.false_eq_true, if_false]
    rw [Int.natAbs_of_nonneg (not_lt.1 hk)]

/-- In exponent form, what is read has the value of the digits. -/
theorem readSize_exponentForm (negative : Bool) (text : List Char) {first rest : List Char}
    {more : List Char} {k : ℤ} (hfirst : AreDigits first) (hone : first.length = 1)
    (hzero : first.head? ≠ some '0') (hmore : AreDigits more) (h : Follows rest) :
    readSize negative text ((if more.isEmpty then first else first ++ '.' :: more) ++
        'e' :: ((Double.exponentText k).toList ++ rest)) =
      .ok (double (rounded negative
        (Nat.ofDigitChars 10 (first ++ more) 0 * 10 ^ (k - more.length))), rest) := by
  obtain ⟨cs, hcs, hne, htext, hvalue⟩ := exists_exponentText k
  have hexponent : readExponent ('e' :: (if decide (k < 0) then '-' else '+') :: (cs ++ rest)) =
      (some k, rest) := by
    rw [readExponent_sign _ hcs hne h.noDigit, hvalue, ite_neg_natAbs]
  have hstop (tail : List Char) : NoDigit ('e' :: tail) := by
    rintro c ⟨⟩
    rfl
  have hfilled : first ≠ [] := by
    rintro rfl
    simp at hone
  simp only [decide_eq_true_eq] at hexponent
  rw [htext]
  by_cases hempty : more = []
  · subst hempty
    have hread := readSize_of_parts negative text hfirst hfilled (.inr hzero) (hstop _) hmore
      (readFraction_of_ne (by simp)) hexponent (.inr rfl)
    simpa using hread
  · have hread := readSize_of_parts negative text hfirst hfilled (.inr hzero)
      (by rintro c ⟨⟩; rfl) hmore (readFraction_point hmore hempty (hstop _)) hexponent (.inr rfl)
    simpa [hempty] using hread

theorem noDigit_point (s : List Char) : NoDigit ('.' :: s) := by
  rintro c ⟨⟩
  rfl

/-- In positional form, what is read has the value of the digits before and after the point. -/
theorem readSize_positionalForm (negative : Bool) (text : List Char)
    {whole fraction rest : List Char} (hwhole : AreDigits whole) (hne : whole ≠ [])
    (hzero : whole = ['0'] ∨ whole.head? ≠ some '0') (hfraction : AreDigits fraction)
    (hfilled : fraction ≠ []) (h : Follows rest) :
    readSize negative text (whole ++ '.' :: (fraction ++ rest)) =
      .ok (double (rounded negative
        (Nat.ofDigitChars 10 (whole ++ fraction) 0 * 10 ^ (-fraction.length : ℤ))), rest) := by
  have hread := readSize_of_parts negative text hwhole hne hzero (noDigit_point _) hfraction
    (readFraction_point hfraction hfilled h.noDigit) h.readExponent_eq (.inl hfilled)
  simpa using hread

/-- The written digits of a number are read as the number with their value. -/
theorem readSize_layOut (negative : Bool) (text : List Char) (style : Double.Style)
    {d : Double.Digits} (hd : d.digits ≠ 0) {rest : List Char} (h : Follows rest) :
    readSize negative text ((Double.layOut style d).toList ++ rest) =
      .ok (double (rounded negative d.value), rest) := by
  have hdigits := areDigits_toDigits d.digits
  have hvalue := @Nat.ofDigitChars_ten_toDigits d.digits
  have hhead := head?_toDigits hd
  have hpos : 0 < (Nat.toDigits 10 d.digits).length := Nat.length_toDigits_pos
  unfold Double.layOut Double.Digits.value
  generalize Nat.toDigits 10 d.digits = cs at hdigits hvalue hhead hpos
  have hne : cs ≠ [] := List.length_pos_iff.1 hpos
  dsimp only
  generalize hk : d.exponent + cs.length - 1 = k
  have htake (n : ℕ) : AreDigits (cs.take n) := fun c hc => hdigits c (List.mem_of_mem_take hc)
  have hdrop (n : ℕ) : AreDigits (cs.drop n) := fun c hc => hdigits c (List.mem_of_mem_drop hc)
  have hfront {n : ℕ} (hn : 0 < n) : (cs.take n).head? ≠ some '0' := by
    rwa [List.head?_take, if_neg hn.ne']
  simp only [List.splitAt_eq]
  by_cases hform : (decide (k < style.lowest) || decide (style.highest ≤ k)) = true
  · -- the exponent is that of the digit before the point
    have hread := @readSize_exponentForm negative text (cs.take 1) rest (cs.drop 1) k (htake 1)
      (by rw [List.length_take]; omega) (hfront one_pos) (hdrop 1) h
    have hexponent : k - (cs.drop 1).length = d.exponent := by
      rw [List.length_drop]
      omega
    rw [List.take_append_drop, hvalue, hexponent] at hread
    rw [if_pos hform, ← hread]
    simp
  rw [if_neg hform]
  by_cases hwhole : 0 ≤ d.exponent
  · -- noughts up to the point, and one behind it
    obtain ⟨n, hn⟩ := Int.eq_ofNat_of_zero_le hwhole
    have hread := readSize_positionalForm negative text (hdigits.append (areDigits_replicate n))
      (by simp [hne]) (.inr (by rwa [List.head?_append_of_ne_nil _ hne])) (areDigits_replicate 1)
      (by simp) h
    have hsize : (Nat.ofDigitChars 10 (cs ++ List.replicate n '0' ++ List.replicate 1 '0') 0 : ℚ) *
        10 ^ (-(List.replicate 1 '0').length : ℤ) = d.digits * 10 ^ d.exponent := by
      rw [Nat.ofDigitChars_append, Nat.ofDigitChars_append, hvalue, hn]
      simp only [Nat.ofDigitChars_replicate_zero, List.length_replicate, zpow_natCast]
      push_cast
      ring
    rw [hsize] at hread
    rw [if_pos hwhole, ← hread, hn]
    simp
  rw [if_neg hwhole]
  by_cases hbelow : k < 0
  · -- noughts behind the point
    have hread := readSize_positionalForm negative text (areDigits_replicate 1) (by simp) (.inl rfl)
      ((areDigits_replicate (-k - 1).toNat).append hdigits) (by simp [hne]) h
    have hexponent :
        (-(List.replicate (-k - 1).toNat '0' ++ cs).length : ℤ) = d.exponent := by
      rw [List.length_append, List.length_replicate]
      omega
    rw [Nat.ofDigitChars_append, Nat.ofDigitChars_append, Nat.ofDigitChars_replicate_zero,
      Nat.ofDigitChars_replicate_zero, mul_zero, mul_zero, hvalue, hexponent] at hread
    rw [if_pos hbelow, ← hread]
    simp
  · -- the point stands among the digits
    have hread := readSize_positionalForm negative text (htake (k + 1).toNat)
      (by simp [hne]; omega) (.inr (hfront (by omega))) (hdrop (k + 1).toNat) (by simp; omega) h
    have hexponent : (-(cs.drop (k + 1).toNat).length : ℤ) = d.exponent := by
      rw [List.length_drop]
      omega
    rw [List.take_append_drop, hvalue, hexponent] at hread
    rw [if_neg hbelow, ← hread]
    simp

theorem length_toDigits_le {n k : ℕ} (hk : 0 < k) (h : n < Nat.pow 10 k) :
    (Nat.toDigits 10 n).length ≤ k := by
  rw [Nat.pow_eq] at h
  exact (Nat.length_toDigits_le_iff (by decide) hk).2 h

/-- The digits of an integer are read as the integer. -/
theorem readSize_toDigits (negative : Bool) (text : List Char) {n : ℕ}
    (hn : n < Nat.pow 10 maxIntDigits) {rest : List Char} (h : Follows rest) :
    readSize negative text (Nat.toDigits 10 n ++ rest) =
      .ok (int (if negative then -n else n), rest) := by
  have hzero : Nat.toDigits 10 n = ['0'] ∨ (Nat.toDigits 10 n).head? ≠ some '0' := by
    obtain rfl | hpos := eq_or_ne n 0
    · exact .inl rfl
    · exact .inr (head?_toDigits hpos)
  have hread := readWhole_append (areDigits_toDigits n) hzero Nat.toDigits_ne_nil h.noDigit
  have hvalue := ofDigitValues_digitValues (Nat.toDigits 10 n)
  rw [Nat.ofDigitChars_ten_toDigits] at hvalue
  have hshort : (digitValues (Nat.toDigits 10 n)).length ≤ maxIntDigits := by
    rw [digitValues, List.length_map]
    exact length_toDigits_le (by decide) hn
  obtain ⟨v, vs, hvalues⟩ := exists_digitValues (@Nat.toDigits_ne_nil n 10)
  rw [hvalues] at hread hvalue hshort
  unfold readSize
  simp only [hread, h.readFraction_eq, h.readExponent_eq, List.isEmpty_nil, Option.isNone_none,
    Bool.and_self, if_true, if_neg (not_lt.2 hshort), hvalue]

theorem exists_digit_of_readSize {negative : Bool} {text s : List Char} {found : Front Value}
    (h : readSize negative text s = .ok found) : ∃ c cs, s = c :: cs ∧ c.isDigit = true := by
  cases s with
  | nil => cases h
  | cons c cs =>
    refine ⟨c, cs, rfl, ?_⟩
    by_contra hc
    have hnone : spanDigits (c :: cs) = ([], c :: cs) := by
      simp [spanDigits, hc]
    have hread : readWhole (c :: cs) = ([], c :: cs) := by
      rw [← hnone, readWhole.eq_def]
      split
      · rename_i heq
        cases heq
        exact absurd rfl hc
      · rfl
    simp only [readSize, hread] at h
    cases h

theorem readWord?_of_isDigit {c : Char} (hc : c.isDigit = true) (cs : List Char) :
    readWord? (c :: cs) = none ∧ readWord? ('-' :: c :: cs) = none := by
  have hne {d : Char} (hd : d.isDigit = false) : d ≠ c := by
    rintro rfl
    rw [hc] at hd
    cases hd
  have hn : 'n' ≠ c := hne rfl
  have ht : 't' ≠ c := hne rfl
  have hf : 'f' ≠ c := hne rfl
  have hN : 'N' ≠ c := hne rfl
  have hI : 'I' ≠ c := hne rfl
  have hminus : '-' ≠ c := hne rfl
  simp [readWord?, Text.dropStart?, hn, ht, hf, hN, hI, hminus]

/-- A number with its sign is read as its size is. -/
theorem readScalar_of_readSize (negative : Bool) {cs : List Char} {found : Front Value}
    (h : ∀ text, readSize negative text cs = .ok found) :
    readScalar ((if negative then ['-'] else []) ++ cs) = .ok found := by
  obtain ⟨c, more, rfl, hc⟩ := exists_digit_of_readSize (h [])
  obtain ⟨hplain, hsigned⟩ := readWord?_of_isDigit hc more
  cases negative with
  | true => simpa [readScalar, hsigned] using h _
  | false =>
    have hminus : c ≠ '-' := by
      rintro rfl
      cases hc
    simpa [readScalar, hplain, hminus] using h _

/-- The text of an integer: its digits, behind a sign if it is negative. -/
theorem toList_toString (n : ℤ) : (toString n).toList =
    (if decide (n < 0) then ['-'] else []) ++ Nat.toDigits 10 n.natAbs := by
  cases n with
  | ofNat n => exact String.toList_ofList
  | negSucc n =>
    have hneg : Int.negSucc n < 0 := Int.negSucc_lt_zero n
    have hsigned : toString (Int.negSucc n) = "-" ++ String.ofList (Nat.toDigits 10 (n + 1)) := rfl
    rw [hsigned]
    simp [hneg, Int.natAbs_negSucc]

/-- A written integer is read as the integer. -/
theorem readScalar_toString {n : ℤ} (hn : intFits n = true) {rest : List Char} (h : Follows rest) :
    readScalar ((toString n).toList ++ rest) = .ok (int n, rest) := by
  have hfits : n.natAbs < Nat.pow 10 maxIntDigits := by simpa [intFits] using hn
  have hread (text : List Char) :=
    readSize_toDigits (decide (n < 0)) text hfits h
  rw [ite_neg_natAbs] at hread
  rw [toList_toString, List.append_assoc]
  exact readScalar_of_readSize _ hread

/-- A written number is read as the number. -/
theorem readScalar_textWith (names : Double.Names) (negative : Bool) (size : Double.Magnitude)
    {rest : List Char} (h : Follows rest) :
    readScalar ((Double.textWith names (.finite negative size)).toList ++ rest) =
      .ok (double (.finite negative size), rest) := by
  have hread (text : List Char) : readSize negative text
      ((if size.mantissa == 0 then "0.0" else
        Double.layOut Double.plain (Double.shortest size) : String).toList ++ rest) =
          .ok (double (.finite negative size), rest) := by
    by_cases hzero : size.mantissa = 0
    · have hsize := readSize_positionalForm negative text (areDigits_replicate 1) (by simp)
        (.inl rfl) (areDigits_replicate 1) (by simp) h
      have hnought : rounded negative (Nat.ofDigitChars 10 ['0', '0'] 0 * 10 ^ (-1 : ℤ)) =
          .finite negative size := by
        rw [Double.Magnitude.eq_zero hzero]
        simp [rounded, Nat.ofDigitChars_cons]
      rw [← hnought]
      simpa [hzero] using hsize
    · have hsize := readSize_layOut negative text Double.plain
        (Double.digits_shortest_ne_zero hzero) h
      rw [Double.rounded_shortest] at hsize
      simpa [hzero] using hsize
  have htext : (Double.textWith names (.finite negative size)).toList ++ rest =
      (if negative then ['-'] else []) ++ ((if size.mantissa == 0 then "0.0" else
        Double.layOut Double.plain (Double.shortest size) : String).toList ++ rest) := by
    cases negative <;> simp [Double.textWith]
  rw [htext]
  exact readScalar_of_readSize negative hread

end Value

end StoryRegistry
