import StoryRegistry.Proofs.Double.Rounding

/-!
# Arithmetic with binary64 numbers

Rounding keeps the order of sizes (`roundedSize_mono`), and it gives an infinite number exactly from the
middle between the greatest number of the format and the next power of two on
(`rounded_eq_infinite_iff`). Hence a bound that is itself a number of the format is kept when numbers
are rounded (`isAtLeast_rounded`, `isAtMost_rounded`) and when they are added up (`IsAtLeast.add`,
`IsAtMost.add`), however much is lost in between.
-/

set_option autoImplicit false

namespace StoryRegistry.Double

/-! ## Rounding keeps the order -/

theorem nearest_le_floor_add_one (x : ℚ) : nearest x ≤ ⌊x⌋₊ + 1 := by
  unfold nearest
  dsimp only
  split_ifs <;> omega

theorem floor_le_nearest (x : ℚ) : ⌊x⌋₊ ≤ nearest x := by
  unfold nearest
  dsimp only
  split_ifs <;> omega

theorem nearest_mono {x y : ℚ} (h : x ≤ y) : nearest x ≤ nearest y := by
  have hfloor : ⌊x⌋₊ ≤ ⌊y⌋₊ := Nat.floor_le_floor h
  rcases hfloor.lt_or_eq with hlt | heq
  · calc nearest x ≤ ⌊x⌋₊ + 1 := nearest_le_floor_add_one x
      _ ≤ ⌊y⌋₊ := hlt
      _ ≤ nearest y := floor_le_nearest y
  rcases lt_or_ge (x - ⌊x⌋₊) (1 / 2) with hx | hx
  · calc nearest x = ⌊x⌋₊ := if_pos hx
      _ ≤ ⌊y⌋₊ := hfloor
      _ ≤ nearest y := floor_le_nearest y
  rcases lt_or_ge (1 / 2) (y - ⌊y⌋₊) with hy | hy
  · calc nearest x ≤ ⌊x⌋₊ + 1 := nearest_le_floor_add_one x
      _ = ⌊y⌋₊ + 1 := by rw [heq]
      _ = nearest y := ((if_neg hy.not_gt).trans (if_pos hy)).symm
  · -- halfway between the same natural numbers there is only one number
    have hle : y ≤ x := by
      rw [heq] at hx
      linarith
    rw [le_antisymm h hle]

theorem nearest_le_of_lt {x : ℚ} {n : ℕ} (h : x < n + 1 / 2) : nearest x ≤ n := by
  have hfloor : ⌊x⌋₊ < n + 1 := by
    rw [Nat.floor_lt' (Nat.succ_ne_zero n)]
    push_cast
    linarith
  rcases (Nat.lt_succ_iff.1 hfloor).lt_or_eq with hlt | heq
  · exact (nearest_le_floor_add_one x).trans hlt
  · unfold nearest
    rw [heq]
    dsimp only
    rw [if_pos (by linarith)]

/-- What a size above nought is rounded to, be it within the format or beyond it. -/
def roundedSize (x : ℚ) : ℚ := nearest (x / 2 ^ unit x) * 2 ^ unit x

/-- The mantissa of a rounded size: at most `2^53`, and at least `2^52` unless the exponent is the least
one. -/
theorem nearest_unit {x : ℚ} (h : 0 < x) :
    nearest (x / 2 ^ unit x) ≤ 2 ^ 53 ∧ (unit x = -1074 ∨ 2 ^ 52 ≤ nearest (x / 2 ^ unit x)) := by
  have hcast (k : ℕ) : nearest ((2 : ℚ) ^ k) = 2 ^ k := by
    have hnat := nearest_natCast (2 ^ k)
    rwa [Nat.cast_pow, Nat.cast_ofNat] at hnat
  constructor
  · rw [← hcast 53]
    refine nearest_mono ?_
    have hlog : Int.log 2 x < unit x + 53 := by
      unfold unit
      omega
    rw [div_le_iff₀ (two_zpow_pos _), ← zpow_natCast, ← zpow_add₀ two_ne_zero, add_comm]
    exact ((log_lt_iff h).1 hlog).le
  · rw [or_iff_not_imp_left]
    intro hunit
    rw [← hcast 52]
    refine nearest_mono ?_
    have hlog : unit x + 52 ≤ Int.log 2 x := by
      unfold unit at hunit ⊢
      omega
    rw [le_div_iff₀ (two_zpow_pos _), ← zpow_natCast, ← zpow_add₀ two_ne_zero, add_comm]
    exact (le_log_iff h).1 hlog

theorem unit_mono {x y : ℚ} (hx : 0 < x) (h : x ≤ y) : unit x ≤ unit y := by
  have hlog : Int.log 2 x ≤ Int.log 2 y :=
    (le_log_iff (hx.trans_le h)).2 (((le_log_iff hx).1 le_rfl).trans h)
  unfold unit
  omega

theorem roundedSize_mono {x y : ℚ} (hx : 0 < x) (h : x ≤ y) : roundedSize x ≤ roundedSize y := by
  unfold roundedSize
  rcases (unit_mono hx h).lt_or_eq with hlt | heq
  · -- in a coarser unit the mantissa is full
    obtain ⟨hmost, -⟩ := nearest_unit hx
    have hfull := (nearest_unit (hx.trans_le h)).2.resolve_left (by unfold unit at *; omega)
    calc (nearest (x / 2 ^ unit x) : ℚ) * 2 ^ unit x
        ≤ 2 ^ 53 * 2 ^ unit x :=
          mul_le_mul_of_nonneg_right (by exact_mod_cast hmost) (two_zpow_pos _).le
      _ = 2 ^ 52 * 2 ^ (unit x + 1) := by rw [zpow_add₀ two_ne_zero]; ring
      _ ≤ 2 ^ 52 * 2 ^ unit y :=
          mul_le_mul_of_nonneg_left (zpow_le_zpow_right₀ one_le_two (by omega)) (by positivity)
      _ ≤ nearest (y / 2 ^ unit y) * 2 ^ unit y :=
          mul_le_mul_of_nonneg_right (by exact_mod_cast hfull) (two_zpow_pos _).le
  · rw [heq]
    refine mul_le_mul_of_nonneg_right ?_ (two_zpow_pos _).le
    exact_mod_cast nearest_mono (div_le_div_of_nonneg_right h (two_zpow_pos _).le)

/-- A size that is a whole number of its units is rounded to itself. -/
theorem roundedSize_eq_self {x : ℚ} {m : ℕ} (h : x = m * 2 ^ unit x) : roundedSize x = x := by
  have hdiv : x / 2 ^ unit x = m := by
    rw [div_eq_iff (two_zpow_pos _).ne']
    exact h
  unfold roundedSize
  rw [hdiv, nearest_natCast]
  exact h.symm

/-! ## Sizes within the format -/

theorem Magnitude.value_nonneg (size : Magnitude) : 0 ≤ size.value :=
  mul_nonneg (Nat.cast_nonneg _) (two_zpow_pos _).le

theorem two_pow_eq : (2 : ℚ) ^ (1024 : ℤ) = 2 ^ 53 * 2 ^ (971 : ℤ) := by
  rw [show (1024 : ℤ) = ((53 : ℕ) : ℤ) + 971 by rfl, zpow_add₀ two_ne_zero, zpow_natCast]

theorem Magnitude.value_lt (size : Magnitude) : size.value < (2 : ℚ) ^ (1024 : ℤ) := by
  obtain ⟨m, e, hm, -, he, -⟩ := size
  rw [Nat.pow_eq] at hm
  rw [two_pow_eq]
  calc (m : ℚ) * 2 ^ e < 2 ^ 53 * 2 ^ e := mul_lt_mul_of_pos_right (by exact_mod_cast hm) (two_zpow_pos e)
    _ ≤ 2 ^ 53 * 2 ^ (971 : ℤ) :=
      mul_le_mul_of_nonneg_left (zpow_le_zpow_right₀ one_le_two he) (by positivity)

/-- What is beyond the greatest exponent is at least `2^1024`. -/
theorem two_pow_le_of_lt {m : ℕ} {e : ℤ} (hm : 2 ^ 52 ≤ m) (he : 971 < e) :
    (2 : ℚ) ^ (1024 : ℤ) ≤ m * 2 ^ e := by
  have hm' : (2 : ℚ) ^ (52 : ℤ) ≤ m := by exact_mod_cast hm
  calc (2 : ℚ) ^ (1024 : ℤ) = 2 ^ (52 : ℤ) * 2 ^ (972 : ℤ) := by rw [← zpow_add₀ two_ne_zero]; rfl
    _ ≤ m * 2 ^ e := mul_le_mul hm' (zpow_le_zpow_right₀ one_le_two (by omega))
      (two_zpow_pos _).le (Nat.cast_nonneg m)

/-- A mantissa with an exponent is packed with its value, unless it lies beyond the format. -/
theorem pack_cases (negative : Bool) {m : ℕ} {e : ℤ} (hm : m ≤ 2 ^ 53) (he : -1074 ≤ e)
    (hfull : e = -1074 ∨ 2 ^ 52 ≤ m) :
    (∃ size, pack negative m e = .finite negative size ∧ size.value = m * 2 ^ e) ∨
      pack negative m e = .infinite negative ∧ (2 : ℚ) ^ (1024 : ℤ) ≤ m * 2 ^ e := by
  unfold pack
  rw [Nat.pow_eq, Nat.pow_eq]
  rcases hm.lt_or_eq with hlt | rfl
  · rw [if_neg (by simpa using hlt.ne)]
    dsimp only
    by_cases hmost : e ≤ 971
    · exact .inl ⟨⟨m, e, hlt, he, hmost, hfull⟩, dif_pos _, rfl⟩
    · refine .inr ⟨dif_neg fun hnormal => hmost hnormal.2.2.1, two_pow_le_of_lt ?_ (by omega)⟩
      exact hfull.resolve_left (by omega)
  · -- a mantissa of `2^53` is half as great in the next unit
    rw [if_pos (by rfl)]
    dsimp only
    have hvalue : ((2 ^ 52 : ℕ) : ℚ) * 2 ^ (e + 1) = (2 ^ 53 : ℕ) * 2 ^ e := by
      rw [zpow_add₀ two_ne_zero]
      push_cast
      ring
    by_cases hmost : e + 1 ≤ 971
    · refine .inl ⟨⟨2 ^ 52, e + 1, by decide, by omega, hmost, .inr le_rfl⟩, dif_pos _, hvalue⟩
    · refine .inr ⟨dif_neg fun hnormal => hmost hnormal.2.2.1, ?_⟩
      rw [← hvalue]
      exact two_pow_le_of_lt le_rfl (by omega)

/-- A size above nought is rounded to a number of the format, or to an infinite one. -/
theorem rounded_cases (negative : Bool) {x : ℚ} (h : 0 < x) :
    (∃ size, rounded negative x = .finite negative size ∧ size.value = roundedSize x) ∨
      rounded negative x = .infinite negative ∧ (2 : ℚ) ^ (1024 : ℤ) ≤ roundedSize x := by
  obtain ⟨hmost, hfull⟩ := nearest_unit h
  unfold rounded
  rw [if_neg (not_le.2 h)]
  exact pack_cases negative hmost (le_max_left _ _) hfull

theorem roundedSize_value {size : Magnitude} (h : 0 < size.value) :
    roundedSize size.value = size.value := by
  rcases rounded_cases false h with ⟨other, heq, hvalue⟩ | ⟨hinfinite, -⟩
  · rw [rounded_value] at heq
    cases heq
    exact hvalue.symm
  · rw [rounded_value] at hinfinite
    cases hinfinite

/-! ## The end of the format -/

/-- The least size that is rounded to an infinite number. -/
def limit : ℕ := (2 ^ 54 - 1) * 2 ^ 970

theorem limit_eq : (limit : ℚ) = (2 ^ 53 - 1 / 2) * 2 ^ (971 : ℤ) := by
  rw [limit, show (971 : ℤ) = ((970 : ℕ) : ℤ) + 1 by rfl, zpow_add₀ two_ne_zero, zpow_natCast,
    Nat.cast_mul, Nat.cast_pow, Nat.cast_ofNat]
  generalize (2 : ℚ) ^ 970 = x
  push_cast
  ring

theorem limit_pos : (0 : ℚ) < limit := by
  rw [limit_eq]
  exact mul_pos (by norm_num) (two_zpow_pos _)

/-- Up to half a unit below a mantissa of `2^53` the greatest exponent is enough. -/
theorem unit_le_of_lt {x : ℚ} (hx : 0 < x) (h : x < (2 : ℚ) ^ (1024 : ℤ)) : unit x ≤ 971 := by
  have hlog : Int.log 2 x < 1024 := (log_lt_iff hx).2 h
  unfold unit
  omega

theorem roundedSize_limit : roundedSize limit = (2 : ℚ) ^ (1024 : ℤ) := by
  have hbelow : (limit : ℚ) < (2 : ℚ) ^ (1024 : ℤ) := by
    rw [limit_eq, two_pow_eq]
    exact mul_lt_mul_of_pos_right (by norm_num) (two_zpow_pos _)
  have habove : (2 : ℚ) ^ (1023 : ℤ) ≤ limit := by
    rw [limit_eq, show (1023 : ℤ) = ((52 : ℕ) : ℤ) + 971 by rfl, zpow_add₀ two_ne_zero, zpow_natCast]
    exact mul_le_mul_of_nonneg_right (by norm_num) (two_zpow_pos _).le
  have hunit : unit limit = 971 := by
    have hmost := unit_le_of_lt limit_pos hbelow
    have hleast : 1023 ≤ Int.log 2 (limit : ℚ) := (le_log_iff limit_pos).2 habove
    unfold unit at *
    omega
  -- a tie, and the mantissa below it is odd
  have hnearest : nearest (2 ^ 53 - 1 / 2) = 2 ^ 53 := by
    have hfloor : ⌊(2 ^ 53 - 1 / 2 : ℚ)⌋₊ = 2 ^ 53 - 1 := by
      rw [Nat.floor_eq_iff (by norm_num)]
      norm_num
    unfold nearest
    rw [hfloor]
    norm_num
  rw [roundedSize, hunit, limit_eq, mul_div_cancel_right₀ _ (two_zpow_pos _).ne', hnearest, two_pow_eq,
    Nat.cast_pow, Nat.cast_ofNat]

theorem roundedSize_lt_of_lt_limit {x : ℚ} (hx : 0 < x) (h : x < limit) :
    roundedSize x < (2 : ℚ) ^ (1024 : ℤ) := by
  have hlt : x < (2 : ℚ) ^ (1024 : ℤ) := by
    rw [two_pow_eq]
    refine h.trans ?_
    rw [limit_eq]
    exact mul_lt_mul_of_pos_right (by norm_num) (two_zpow_pos _)
  rcases (unit_le_of_lt hx hlt).lt_or_eq with hless | heq
  · obtain ⟨hmost, -⟩ := nearest_unit hx
    rw [two_pow_eq, roundedSize]
    calc (nearest (x / 2 ^ unit x) : ℚ) * 2 ^ unit x
        ≤ 2 ^ 53 * 2 ^ unit x :=
          mul_le_mul_of_nonneg_right (by exact_mod_cast hmost) (two_zpow_pos _).le
      _ < 2 ^ 53 * 2 ^ (971 : ℤ) :=
          mul_lt_mul_of_pos_left (zpow_lt_zpow_right₀ one_lt_two hless) (by norm_num)
  · rw [roundedSize, heq, two_pow_eq]
    have hdiv : x / 2 ^ (971 : ℤ) < 2 ^ 53 - 1 / 2 := by
      rw [div_lt_iff₀ (two_zpow_pos _), ← limit_eq]
      exact h
    have hnearest : nearest (x / 2 ^ (971 : ℤ)) ≤ 2 ^ 53 - 1 :=
      nearest_le_of_lt (hdiv.trans_le (by norm_num))
    refine mul_lt_mul_of_pos_right ?_ (two_zpow_pos _)
    calc (nearest (x / 2 ^ (971 : ℤ)) : ℚ) ≤ (2 ^ 53 - 1 : ℕ) := Nat.cast_le.2 hnearest
      _ < 2 ^ 53 := by norm_num

/-- Sizes are rounded to an infinite number from the limit on. -/
theorem rounded_eq_infinite_iff (negative : Bool) {x : ℚ} :
    rounded negative x = .infinite negative ↔ (limit : ℚ) ≤ x := by
  rcases le_or_gt x 0 with hx | hx
  · have hfinite : rounded negative x = .finite negative .zero := if_pos hx
    simp only [hfinite, reduceCtorEq, false_iff, not_le]
    exact hx.trans_lt limit_pos
  · rcases rounded_cases negative hx with ⟨size, heq, hvalue⟩ | ⟨heq, hgreat⟩
    · rw [heq]
      simp only [reduceCtorEq, false_iff, not_le]
      by_contra hlimit
      have hmono := roundedSize_mono limit_pos (not_lt.1 hlimit)
      rw [roundedSize_limit, ← hvalue] at hmono
      exact absurd size.value_lt (not_lt.2 hmono)
    · simp only [heq, true_iff]
      by_contra hlimit
      exact absurd (roundedSize_lt_of_lt_limit hx (not_le.1 hlimit)) (not_lt.2 hgreat)

theorem exists_rounded_of_lt (negative : Bool) {x : ℚ} (h : x < limit) :
    ∃ size, rounded negative x = .finite negative size := by
  rcases le_or_gt x 0 with hx | hx
  · exact ⟨.zero, if_pos hx⟩
  · rcases rounded_cases negative hx with ⟨size, heq, -⟩ | ⟨heq, -⟩
    · exact ⟨size, heq⟩
    · exact absurd ((rounded_eq_infinite_iff negative).1 heq) (not_le.2 h)

/-! ## Numbers of the format -/

/-- The size is one of the format. -/
def Fits (q : ℚ) : Prop := ∃ size : Magnitude, size.value = q

theorem Fits.nonneg {q : ℚ} (h : Fits q) : 0 ≤ q := by
  obtain ⟨size, rfl⟩ := h
  exact size.value_nonneg

@[simp]
theorem Magnitude.value_zero : Magnitude.zero.value = 0 := by
  simp [Magnitude.value, Magnitude.zero]

/-- A fraction with a mantissa of at most 53 binary places is a number of the format. -/
theorem fits_ratio {n k : ℕ} (hn : n < 2 ^ 53) (hk : k ≤ 1074) : Fits (n / 2 ^ k) := by
  obtain rfl | hpos := Nat.eq_zero_or_pos n
  · exact ⟨.zero, by simp⟩
  · have hzpow : (n : ℚ) / 2 ^ k = n * 2 ^ (-(k : ℤ)) := by
      rw [zpow_neg, zpow_natCast, div_eq_mul_inv]
    have hx : (0 : ℚ) < n / 2 ^ k := div_pos (by exact_mod_cast hpos) (by positivity)
    have hn' : (n : ℚ) < 2 ^ (53 : ℤ) := by exact_mod_cast hn
    have hlog : Int.log 2 ((n : ℚ) / 2 ^ k) < 53 - k := by
      rw [log_lt_iff hx, hzpow, sub_eq_add_neg, zpow_add₀ two_ne_zero]
      exact mul_lt_mul_of_pos_right hn' (two_zpow_pos _)
    obtain ⟨j, hj⟩ : ∃ j : ℕ, -(k : ℤ) = j + unit ((n : ℚ) / 2 ^ k) :=
      ⟨(-(k : ℤ) - unit ((n : ℚ) / 2 ^ k)).toNat, by unfold unit; omega⟩
    have hself : roundedSize ((n : ℚ) / 2 ^ k) = n / 2 ^ k := by
      refine roundedSize_eq_self (m := n * 2 ^ j) ?_
      calc (n : ℚ) / 2 ^ k = n * (2 ^ j * 2 ^ unit ((n : ℚ) / 2 ^ k)) := by
            rw [← zpow_natCast 2 j, ← zpow_add₀ two_ne_zero, ← hj, hzpow]
        _ = (n * 2 ^ j : ℕ) * 2 ^ unit ((n : ℚ) / 2 ^ k) := by
            push_cast
            ring
    have hsmall : (n : ℚ) / 2 ^ k < 2 ^ (1024 : ℤ) :=
      calc (n : ℚ) / 2 ^ k ≤ n := div_le_self (Nat.cast_nonneg n) (one_le_pow₀ one_le_two)
        _ < 2 ^ (53 : ℤ) := hn'
        _ ≤ 2 ^ (1024 : ℤ) := zpow_le_zpow_right₀ one_le_two (by decide)
    rcases rounded_cases false hx with ⟨size, -, hvalue⟩ | ⟨-, hgreat⟩
    · exact ⟨size, hvalue.trans hself⟩
    · rw [hself] at hgreat
      exact absurd hsmall (not_lt.2 hgreat)

/-! ## Bounds that rounding keeps -/

/-- The number is positive or nought, and at least `q`. -/
def IsAtLeast (x : Double) (q : ℚ) : Prop :=
  x = .infinite false ∨ ∃ size, x = .finite false size ∧ q ≤ size.value

/-- The number is positive or nought, finite, and at most `q`. -/
def IsAtMost (x : Double) (q : ℚ) : Prop := ∃ size, x = .finite false size ∧ size.value ≤ q

theorem IsAtLeast.mono {x : Double} {p q : ℚ} (h : IsAtLeast x q) (hle : p ≤ q) : IsAtLeast x p :=
  h.imp_right fun ⟨size, heq, hsize⟩ => ⟨size, heq, hle.trans hsize⟩

theorem IsAtMost.mono {x : Double} {p q : ℚ} (h : IsAtMost x p) (hle : p ≤ q) : IsAtMost x q :=
  h.imp fun _ ⟨heq, hsize⟩ => ⟨heq, hsize.trans hle⟩

/-- A number of the format below a size is below what the size is rounded to. -/
theorem isAtLeast_rounded {x q : ℚ} (hq : Fits q) (h : q ≤ x) : IsAtLeast (rounded false x) q := by
  rcases hq.nonneg.eq_or_lt with rfl | hpos
  · rcases h.eq_or_lt with rfl | hx
    · exact .inr ⟨.zero, if_pos le_rfl, by simp⟩
    · rcases rounded_cases false hx with ⟨size, heq, -⟩ | ⟨heq, -⟩
      · exact .inr ⟨size, heq, size.value_nonneg⟩
      · exact .inl heq
  · rcases rounded_cases false (hpos.trans_le h) with ⟨size, heq, hvalue⟩ | ⟨heq, -⟩
    · refine .inr ⟨size, heq, ?_⟩
      obtain ⟨least, rfl⟩ := hq
      rw [hvalue, ← roundedSize_value hpos]
      exact roundedSize_mono hpos h
    · exact .inl heq

/-- A number of the format above a size is above what the size is rounded to. -/
theorem isAtMost_rounded {x q : ℚ} (hq : Fits q) (h : x ≤ q) : IsAtMost (rounded false x) q := by
  rcases le_or_gt x 0 with hx | hx
  · exact ⟨.zero, if_pos hx, by simpa using hq.nonneg⟩
  · obtain ⟨most, rfl⟩ := hq
    have hmono : roundedSize x ≤ most.value :=
      (roundedSize_mono hx h).trans_eq (roundedSize_value (hx.trans_le h))
    rcases rounded_cases false hx with ⟨size, heq, hvalue⟩ | ⟨-, hgreat⟩
    · exact ⟨size, heq, hvalue.trans_le hmono⟩
    · exact absurd most.value_lt (not_lt.2 (hgreat.trans hmono))

/-! ## Sums -/

theorem powTwo_pos (k : ℕ) : 0 < Nat.pow 2 k := Nat.pow_pos two_pos

/-- Units of `2^-j` and what they amount to. -/
theorem units_div (m k j : ℕ) : ((m * 2 ^ k : ℕ) : ℚ) / (Nat.pow 2 j : ℕ) = m * 2 ^ ((k : ℤ) - j) := by
  rw [zpow_sub₀ two_ne_zero, zpow_natCast, zpow_natCast, Nat.pow_eq]
  push_cast
  rw [mul_div_assoc]

/-- A quotient by a power of two is rounded by its value. -/
theorem ofRatio_powTwo (n j : ℕ) :
    ofRatio false n (Nat.pow 2 j) = rounded false ((n : ℚ) / (Nat.pow 2 j : ℕ)) :=
  ofRatio_eq_rounded _ _ (powTwo_pos j)

theorem units?_finite (size : Magnitude) :
    ∃ units : ℕ, (finite false size).units? = some (units : ℤ) ∧
      (units : ℚ) / (Nat.pow 2 1074 : ℕ) = size.value := by
  obtain ⟨m, e, hnormal⟩ := size
  obtain ⟨-, hleast, -, -⟩ := id hnormal
  obtain ⟨k, hk⟩ : ∃ k : ℕ, e + 1074 = k := ⟨(e + 1074).toNat, by omega⟩
  obtain rfl : e = (k : ℤ) - (1074 : ℕ) := by push_cast; omega
  refine ⟨m * 2 ^ k, ?_, ?_⟩
  · simp [units?]
  · exact units_div m k 1074

/-- The sum of two numbers is their exact sum, rounded. -/
theorem add_finite (m n : Magnitude) :
    (finite false m).add (finite false n) = rounded false (m.value + n.value) := by
  obtain ⟨p, hp, hm⟩ := units?_finite m
  obtain ⟨q, hq, hn⟩ := units?_finite n
  have hsum : m.value + n.value = ((p + q : ℕ) : ℚ) / (Nat.pow 2 1074 : ℕ) := by
    rw [← hm, ← hn, Nat.cast_add, add_div]
  have hcast : (p : ℤ) + q = ((p + q : ℕ) : ℤ) := (Nat.cast_add p q).symm
  unfold add
  simp only [hp, hq, hcast]
  rw [hsum, ← ofRatio_powTwo, ofUnits, Int.natAbs_natCast]
  split
  · rename_i hzero
    have hnone : p + q = 0 := by exact_mod_cast eq_of_beq hzero
    simp [ofRatio, hnone]
  · rw [decide_eq_false (by omega)]

theorem IsAtLeast.add {x y : Double} {p q : ℚ} (hx : IsAtLeast x p) (hy : IsAtLeast y q)
    (hfits : Fits (p + q)) : IsAtLeast (x.add y) (p + q) := by
  rcases hx with rfl | ⟨m, rfl, hm⟩ <;> rcases hy with rfl | ⟨n, rfl, hn⟩
  · exact .inl rfl
  · exact .inl rfl
  · exact .inl rfl
  · rw [add_finite]
    exact isAtLeast_rounded hfits (add_le_add hm hn)

theorem IsAtMost.add {x y : Double} {p q : ℚ} (hx : IsAtMost x p) (hy : IsAtMost y q)
    (hfits : Fits (p + q)) : IsAtMost (x.add y) (p + q) := by
  obtain ⟨m, rfl, hm⟩ := hx
  obtain ⟨n, rfl, hn⟩ := hy
  rw [add_finite]
  exact isAtMost_rounded hfits (add_le_add hm hn)

/-! ## Comparison with an integer -/

theorem le_finite (size : Magnitude) (n : ℤ) : (finite false size).le n = true ↔ size.value ≤ n := by
  obtain ⟨units, hunits, hvalue⟩ := units?_finite size
  unfold le
  simp only [hunits, decide_eq_true_eq]
  have hpos : 0 < Nat.pow 2 1074 := powTwo_pos 1074
  generalize Nat.pow 2 1074 = units at *
  rw [← hvalue, div_le_iff₀ (by exact_mod_cast hpos)]
  exact_mod_cast Iff.rfl

theorem ofInt_natCast (n : ℕ) : ofInt n = rounded false n := by
  rw [ofInt, Int.natAbs_natCast, decide_eq_false (by omega), ofRatio_eq_rounded _ _ one_pos, Nat.cast_one,
    div_one]

theorem fits_natCast {n : ℕ} (h : n < 2 ^ 53) : Fits n := by
  simpa using fits_ratio h (Nat.zero_le 1074)

theorem exists_ofInt {n : ℕ} (h : n < 2 ^ 53) : ∃ size, ofInt n = .finite false size ∧ size.value = n := by
  obtain ⟨size, hsize⟩ := fits_natCast h
  exact ⟨size, by rw [ofInt_natCast, ← hsize, rounded_value], hsize⟩

/-- The lower end of a range leaves a bound from below, if the range begins with nought. -/
theorem IsAtLeast.atLeast_zero {x : Double} {q : ℚ} (h : IsAtLeast x q) : IsAtLeast (x.atLeast 0) q := by
  rcases h with rfl | ⟨size, rfl, hsize⟩
  · exact .inl rfl
  · unfold Double.atLeast
    split
    · rename_i hle
      obtain ⟨zero, hzero, hvalue⟩ := exists_ofInt (n := 0) (by decide)
      refine .inr ⟨zero, hzero, ?_⟩
      rw [hvalue]
      exact hsize.trans ((le_finite _ _).1 hle)
    · exact .inr ⟨size, rfl, hsize⟩

theorem IsAtMost.atLeast_zero {x : Double} {q : ℚ} (h : IsAtMost x q) : IsAtMost (x.atLeast 0) q := by
  obtain ⟨size, rfl, hsize⟩ := h
  unfold Double.atLeast
  split
  · obtain ⟨zero, hzero, hvalue⟩ := exists_ofInt (n := 0) (by decide)
    refine ⟨zero, hzero, ?_⟩
    rw [hvalue]
    exact size.value_nonneg.trans hsize
  · exact ⟨size, rfl, hsize⟩

/-- The upper end of a range leaves a bound from below that lies in the range, and is itself one from
above. -/
theorem IsAtLeast.atMost {x : Double} {q : ℚ} (h : IsAtLeast x q) {n : ℕ} (hn : n < 2 ^ 53)
    (hq : q ≤ n) : IsAtLeast (x.atMost n) q ∧ IsAtMost (x.atMost n) n := by
  obtain ⟨most, hmost, hvalue⟩ := exists_ofInt hn
  have hend : IsAtLeast (ofInt n) q ∧ IsAtMost (ofInt n) n :=
    ⟨.inr ⟨most, hmost, hq.trans_eq hvalue.symm⟩, most, hmost, hvalue.le⟩
  rcases h with rfl | ⟨size, rfl, hsize⟩
  · exact hend
  · unfold Double.atMost
    split
    · rename_i hle
      exact ⟨.inr ⟨size, rfl, hsize⟩, size, rfl, (le_finite _ _).1 hle⟩
    · exact hend

theorem IsAtMost.atMost {x : Double} {q : ℚ} (h : IsAtMost x q) {n : ℕ} (hn : n < 2 ^ 53) :
    IsAtMost (x.atMost n) q := by
  obtain ⟨size, rfl, hsize⟩ := h
  unfold Double.atMost
  split
  · exact ⟨size, rfl, hsize⟩
  · rename_i hgreat
    obtain ⟨most, hmost, hvalue⟩ := exists_ofInt hn
    refine ⟨most, hmost, hvalue.trans_le (le_trans ?_ hsize)⟩
    rw [le_finite, not_le] at hgreat
    exact hgreat.le

/-! ## The greatest integer below -/

theorem floor?_finite (size : Magnitude) : (finite false size).floor? = some ⌊size.value⌋ := by
  obtain ⟨units, hunits, hvalue⟩ := units?_finite size
  have hfloor : ⌊(units : ℚ) / (Nat.pow 2 1074 : ℕ)⌋ = (units : ℤ) / (Nat.pow 2 1074 : ℕ) :=
    Rat.floor_intCast_div_natCast (units : ℤ) (Nat.pow 2 1074)
  rw [floor?, hunits, ← hvalue, hfloor, Option.map_some]

/-- The greatest integer below a number between two bounds, if they have it in common. -/
theorem floor?_of_bounds {x : Double} {p q : ℚ} {n : ℤ} (hp : IsAtLeast x p) (hq : IsAtMost x q)
    (hleast : n ≤ p) (hmost : q < n + 1) : x.floor? = some n := by
  obtain ⟨size, rfl, hsize⟩ := hq
  have hp' : p ≤ size.value := by
    rcases hp with hp | ⟨other, heq, hother⟩
    · cases hp
    · cases heq
      exact hother
  rw [floor?_finite, Option.some_inj, Int.floor_eq_iff]
  exact ⟨hleast.trans hp', hsize.trans_lt hmost⟩

end StoryRegistry.Double
