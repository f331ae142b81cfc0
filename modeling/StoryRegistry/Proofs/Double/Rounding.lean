import Mathlib.Algebra.Order.Field.Power
import Mathlib.Algebra.Order.Floor.Semifield
import Mathlib.Data.Int.Log
import Mathlib.Data.Rat.Floor
import Mathlib.Tactic.FieldSimp
import Mathlib.Tactic.Linarith
import Mathlib.Tactic.NormNum
import Mathlib.Tactic.Positivity
import Mathlib.Tactic.Ring
import StoryRegistry.Double.Decimal

/-!
# Rounding to binary64

A rational number is rounded to the format in three steps: its size gives the unit of the mantissa,
the number is brought to units, and these are rounded to the nearest natural number. Quotients of
natural numbers and decimal numbers are rounded in this way, whatever they are written with
(`ofRatio_eq_rounded`, `ofDecimal_eq_rounded`), and a number of the format is rounded to itself
(`rounded_value`).

The digits that are found for a number read back as the number: they were tried before they were
taken, noughts moved into the exponent change no value, and if none are found all the digits are
there to be taken.
-/

set_option autoImplicit false

namespace StoryRegistry.Double

/-- The nearest natural number, a tie going to the even one. -/
def nearest (x : ℚ) : ℕ :=
  let q := ⌊x⌋₊
  if x - q < 1 / 2 then q
  else if 1 / 2 < x - q then q + 1
  else if q % 2 = 0 then q else q + 1

/-- The exponent of two that the last place of the mantissa stands for. -/
def unit (x : ℚ) : ℤ := max (-1074) (Int.log 2 x - 52)

/-- The number of the format nearest to a size, with a sign. -/
def rounded (negative : Bool) (x : ℚ) : Double :=
  if x ≤ 0 then .finite negative .zero else pack negative (nearest (x / 2 ^ unit x)) (unit x)

/-- The size as a rational number. -/
def Magnitude.value (size : Magnitude) : ℚ := size.mantissa * 2 ^ size.exponent

theorem Magnitude.eq_zero {size : Magnitude} (h : size.mantissa = 0) : size = .zero := by
  obtain ⟨m, e, hnormal⟩ := size
  obtain rfl : m = 0 := h
  obtain ⟨-, -, -, hfull⟩ := id hnormal
  obtain rfl : e = -1074 := hfull.resolve_right (by simp)
  rfl

/-! ## Natural numbers nearby -/

theorem roundDiv_eq_nearest {num den : ℕ} (h : 0 < den) :
    roundDiv num den = nearest ((num : ℚ) / den) := by
  have hden : (0 : ℚ) < den := by exact_mod_cast h
  have hfloor : ⌊(num : ℚ) / den⌋₊ = num / den := Nat.floor_div_eq_div num den
  have hover : (num : ℚ) / den - (num / den : ℕ) = (num % den : ℕ) / den := by
    have hsplit : (num : ℚ) = den * (num / den : ℕ) + (num % den : ℕ) := by
      exact_mod_cast (Nat.div_add_mod num den).symm
    rw [eq_div_iff hden.ne', sub_mul, div_mul_cancel₀ _ hden.ne']
    linarith
  have hbelow : ((num % den : ℕ) : ℚ) / den < 1 / 2 ↔ 2 * (num % den) < den := by
    rw [div_lt_div_iff₀ hden two_pos, one_mul, mul_comm]
    exact_mod_cast Iff.rfl
  have habove : 1 / 2 < ((num % den : ℕ) : ℚ) / den ↔ den < 2 * (num % den) := by
    rw [div_lt_div_iff₀ two_pos hden, one_mul, mul_comm (_ : ℚ) 2]
    exact_mod_cast Iff.rfl
  simp only [roundDiv, nearest, hfloor, hover, hbelow, habove, beq_iff_eq]

theorem nearest_natCast (n : ℕ) : nearest n = n := by
  simp [nearest]

theorem nearest_of_lt_half {x : ℚ} (h : x < 1 / 2) : nearest x = 0 := by
  have hfloor : ⌊x⌋₊ = 0 := Nat.floor_eq_zero.2 (by linarith)
  simp only [nearest, hfloor, Nat.cast_zero, sub_zero, if_pos h]

/-! ## Powers of two -/

theorem two_zpow_pos (e : ℤ) : (0 : ℚ) < 2 ^ e := zpow_pos two_pos e

theorem le_log_iff {x : ℚ} (h : 0 < x) {e : ℤ} : e ≤ Int.log 2 x ↔ (2 : ℚ) ^ e ≤ x := by
  have hbase := Int.zpow_le_iff_le_log one_lt_two h (x := e)
  exact_mod_cast hbase.symm

theorem log_lt_iff {x : ℚ} (h : 0 < x) {e : ℤ} : Int.log 2 x < e ↔ x < (2 : ℚ) ^ e := by
  rw [← not_le, le_log_iff h, not_le]

theorem scaled_spec (num : ℕ) {den : ℕ} (h : 0 < den) (e : ℤ) :
    0 < (scaled num den e).2 ∧
      ((scaled num den e).1 : ℚ) / (scaled num den e).2 = (num : ℚ) / den / 2 ^ e := by
  unfold scaled
  split
  · rename_i hsign
    obtain ⟨n, rfl⟩ := Int.eq_ofNat_of_zero_le hsign
    refine ⟨Nat.mul_pos h (Nat.pow_pos two_pos), ?_⟩
    simp only [Int.toNat_natCast, Nat.pow_eq, zpow_natCast]
    push_cast
    rw [div_div]
  · rename_i hsign
    obtain ⟨n, rfl⟩ : ∃ n : ℕ, e = -n := ⟨(-e).toNat, by omega⟩
    refine ⟨h, ?_⟩
    simp only [neg_neg, Int.toNat_natCast, Nat.pow_eq, zpow_neg, zpow_natCast, div_inv_eq_mul]
    push_cast
    rw [div_mul_eq_mul_div]

/-- A quotient lies between the powers of two that the lengths of its parts tell. -/
theorem log_ratio {num den : ℕ} (hnum : 0 < num) (hden : 0 < den) :
    (Nat.log2 num : ℤ) - Nat.log2 den - 1 ≤ Int.log 2 ((num : ℚ) / den) ∧
      Int.log 2 ((num : ℚ) / den) ≤ (Nat.log2 num : ℤ) - Nat.log2 den := by
  have hnum' : (0 : ℚ) < num := by exact_mod_cast hnum
  have hden' : (0 : ℚ) < den := by exact_mod_cast hden
  have hpos : (0 : ℚ) < (num : ℚ) / den := div_pos hnum' hden'
  have below (n : ℕ) (hn : 0 < n) : (2 : ℚ) ^ (Nat.log2 n : ℤ) ≤ n := by
    rw [zpow_natCast]
    exact_mod_cast Nat.log2_self_le hn.ne'
  have above (n : ℕ) : (n : ℚ) < 2 ^ ((Nat.log2 n : ℤ) + 1) := by
    have hlt : n < 2 ^ (Nat.log2 n + 1) := Nat.lt_log2_self
    have hcast : ((Nat.log2 n : ℤ) + 1) = ((Nat.log2 n + 1 : ℕ) : ℤ) := by push_cast; rfl
    rw [hcast, zpow_natCast]
    exact_mod_cast hlt
  constructor
  · rw [le_log_iff hpos, le_div_iff₀ hden']
    calc (2 : ℚ) ^ ((Nat.log2 num : ℤ) - Nat.log2 den - 1) * den
        ≤ 2 ^ ((Nat.log2 num : ℤ) - Nat.log2 den - 1) * 2 ^ ((Nat.log2 den : ℤ) + 1) :=
          mul_le_mul_of_nonneg_left (above den).le (two_zpow_pos _).le
      _ = 2 ^ (Nat.log2 num : ℤ) := by rw [← zpow_add₀ two_ne_zero]; congr 1; ring
      _ ≤ num := below num hnum
  · rw [← Int.lt_add_one_iff, log_lt_iff hpos, div_lt_iff₀ hden']
    calc (num : ℚ) < 2 ^ ((Nat.log2 num : ℤ) + 1) := above num
      _ = 2 ^ ((Nat.log2 num : ℤ) - Nat.log2 den + 1) * 2 ^ (Nat.log2 den : ℤ) := by
        rw [← zpow_add₀ two_ne_zero]; congr 1; ring
      _ ≤ 2 ^ ((Nat.log2 num : ℤ) - Nat.log2 den + 1) * den :=
        mul_le_mul_of_nonneg_left (below den hden) (two_zpow_pos _).le

/-! ## Quotients and decimal numbers -/

/-- A quotient is rounded by its value alone. -/
theorem ofRatio_eq_rounded (negative : Bool) (num : ℕ) {den : ℕ} (h : 0 < den) :
    ofRatio negative num den = rounded negative ((num : ℚ) / den) := by
  obtain rfl | hnum := Nat.eq_zero_or_pos num
  · simp [ofRatio, rounded]
  · have hpos : (0 : ℚ) < (num : ℚ) / den :=
      div_pos (by exact_mod_cast hnum) (by exact_mod_cast h)
    obtain ⟨hleast, hmost⟩ := log_ratio hnum h
    -- the first guess at the unit is right or one too small, and the quotient tells which
    have hguess (low : ℤ) : Nat.pow 2 53 ≤ (scaled num den low).1 / (scaled num den low).2 ↔
        low + 53 ≤ Int.log 2 ((num : ℚ) / den) := by
      obtain ⟨hd, hvalue⟩ := scaled_spec num h low
      rw [le_log_iff hpos, Nat.le_div_iff_mul_le hd, zpow_add₀ two_ne_zero,
        mul_comm (2 ^ low : ℚ), ← le_div_iff₀ (two_zpow_pos low), ← hvalue, le_div_iff₀ (by exact_mod_cast hd)]
      norm_cast
    have hunit : (if Nat.pow 2 53 ≤
        (scaled num den (max (-1074) ((Nat.log2 num : ℤ) - Nat.log2 den - 53))).1 /
          (scaled num den (max (-1074) ((Nat.log2 num : ℤ) - Nat.log2 den - 53))).2 then
          max (-1074) ((Nat.log2 num : ℤ) - Nat.log2 den - 53) + 1
        else max (-1074) ((Nat.log2 num : ℤ) - Nat.log2 den - 53)) = unit ((num : ℚ) / den) := by
      unfold unit
      simp only [hguess]
      split <;> omega
    have hnonzero : (num == 0) = false := by simpa using hnum.ne'
    obtain ⟨hd, hvalue⟩ := scaled_spec num h (unit ((num : ℚ) / den))
    unfold ofRatio rounded
    simp only [hnonzero, Bool.false_eq_true, if_false, hunit, not_le.2 hpos]
    rw [roundDiv_eq_nearest hd, hvalue]

/-- A decimal number is rounded by its value alone. -/
theorem ofDecimal_eq_rounded (negative : Bool) (m : ℕ) (e : ℤ) :
    ofDecimal negative m e = rounded negative (m * 10 ^ e) := by
  unfold ofDecimal
  split
  · rename_i hsign
    obtain ⟨n, rfl⟩ := Int.eq_ofNat_of_zero_le hsign
    rw [ofRatio_eq_rounded _ _ one_pos]
    simp
  · rename_i hsign
    obtain ⟨n, rfl⟩ : ∃ n : ℕ, e = -n := ⟨(-e).toNat, by omega⟩
    have hden : 0 < Nat.pow 10 (- -(n : ℤ)).toNat := Nat.pow_pos (by decide)
    rw [ofRatio_eq_rounded _ _ hden]
    simp [div_eq_mul_inv]

/-! ## What rounding gives -/

theorem pack_sign {m : ℕ} {e : ℤ} {size : Magnitude} (h : pack false m e = .finite false size)
    (negative : Bool) : pack negative m e = .finite negative size := by
  unfold pack at h ⊢
  generalize (if m == Nat.pow 2 53 then (Nat.pow 2 52, e + 1) else (m, e)) = parts at h ⊢
  dsimp only at h ⊢
  split at h
  · rename_i hnormal
    cases h
    rw [dif_pos hnormal]
  · cases h

/-- The sign of a size does not matter for how it is rounded. -/
theorem rounded_sign {x : ℚ} {size : Magnitude} (h : rounded false x = .finite false size)
    (negative : Bool) : rounded negative x = .finite negative size := by
  unfold rounded at h ⊢
  split at h
  · rename_i hx
    cases h
    rw [if_pos hx]
  · rename_i hx
    rw [if_neg hx]
    exact pack_sign h negative

/-- A number of the format is rounded to itself. -/
theorem rounded_value (negative : Bool) (size : Magnitude) :
    rounded negative size.value = .finite negative size := by
  by_cases hzero : size.mantissa = 0
  · rw [Magnitude.eq_zero hzero]
    simp [rounded, Magnitude.value, Magnitude.zero]
  · obtain ⟨m, e, hnormal⟩ := size
    obtain ⟨hm, hleast, hmost, hfull⟩ := hnormal
    rw [Nat.pow_eq] at hm
    have hpos : 0 < m := Nat.pos_of_ne_zero hzero
    have hx : (0 : ℚ) < m * 2 ^ e := mul_pos (by exact_mod_cast hpos) (two_zpow_pos e)
    have habove : Int.log 2 ((m : ℚ) * 2 ^ e) < e + 53 := by
      rw [log_lt_iff hx, zpow_add₀ two_ne_zero, mul_comm]
      exact mul_lt_mul_of_pos_left (by exact_mod_cast hm) (two_zpow_pos e)
    have hbelow (h : Nat.pow 2 52 ≤ m) : e + 52 ≤ Int.log 2 ((m : ℚ) * 2 ^ e) := by
      rw [le_log_iff hx, zpow_add₀ two_ne_zero, mul_comm]
      exact mul_le_mul_of_nonneg_right (by exact_mod_cast h) (two_zpow_pos e).le
    have hunit : unit ((m : ℚ) * 2 ^ e) = e := by
      unfold unit
      rcases hfull with rfl | hfull
      · omega
      · have := hbelow hfull
        omega
    have hdigits : (m : ℚ) * 2 ^ e / 2 ^ e = m := mul_div_cancel_right₀ _ (two_zpow_pos e).ne'
    have hsmall : (m == Nat.pow 2 53) = false := by
      rw [Nat.pow_eq]
      simpa using hm.ne
    unfold rounded Magnitude.value
    simp only [not_le.2 hx, if_false, hunit, hdigits, nearest_natCast, pack, hsmall,
      Bool.false_eq_true]
    exact dif_pos ⟨hm, hleast, hmost, hfull⟩

/-- What is at least `2^1024` is infinite. -/
theorem rounded_of_le {x : ℚ} (h : (2 : ℚ) ^ (1024 : ℤ) ≤ x) (negative : Bool) :
    rounded negative x = .infinite negative := by
  have hx : 0 < x := (two_zpow_pos _).trans_le h
  have hlog : 1024 ≤ Int.log 2 x := (le_log_iff hx).2 h
  have hunit : 971 < unit x := by
    unfold unit
    omega
  unfold rounded pack
  rw [if_neg (not_le.2 hx)]
  dsimp only
  refine dif_neg fun hnormal => ?_
  obtain ⟨-, -, hmost, -⟩ := hnormal
  split at hmost <;> simp only at hmost <;> omega

/-- What is below `2^-1075` is nought. -/
theorem rounded_of_lt {x : ℚ} (h : x < (2 : ℚ) ^ (-1075 : ℤ)) (negative : Bool) :
    rounded negative x = .finite negative .zero := by
  unfold rounded
  split
  · rfl
  · rename_i hpos
    rw [not_le] at hpos
    have hlog : Int.log 2 x < -1075 := (log_lt_iff hpos).2 h
    have hunit : unit x = -1074 := by
      unfold unit
      omega
    have hhalf : x / 2 ^ (-1074 : ℤ) < 1 / 2 := by
      rw [div_lt_iff₀ (two_zpow_pos _)]
      calc x < (2 : ℚ) ^ (-1075 : ℤ) := h
        _ = 1 / 2 * 2 ^ (-1074 : ℤ) := by
          rw [show (-1075 : ℤ) = -1 + -1074 by norm_num, zpow_add₀ two_ne_zero]
          norm_num
    rw [hunit, nearest_of_lt_half hhalf]
    rfl

theorem two_zpow_le_ten_zpow : (2 : ℚ) ^ (1075 : ℤ) ≤ 10 ^ (400 : ℤ) := by
  calc (2 : ℚ) ^ (1075 : ℤ) ≤ 2 ^ (3 * 400 : ℤ) := zpow_le_zpow_right₀ one_le_two (by decide)
    _ = (2 ^ (3 : ℤ)) ^ (400 : ℤ) := zpow_mul _ _ _
    _ ≤ 10 ^ (400 : ℤ) := zpow_le_zpow_left₀ (by decide) (by norm_num) (by norm_num)

/-- A decimal number with too great an exponent is nought or infinite, and stays so when the
exponent is cut. -/
theorem ofDecimal_clampExponent (negative : Bool) {m count : ℕ} (hm : m < 10 ^ count) (e : ℤ)
    {places : ℕ} (hplaces : places ≤ count) :
    ofDecimal negative m (clampExponent count e - places) = ofDecimal negative m (e - places) := by
  obtain rfl | hpos := Nat.eq_zero_or_pos m
  · simp [ofDecimal_eq_rounded, rounded]
  · have hone : (1 : ℚ) ≤ m := by exact_mod_cast hpos
    have hbound : (m : ℚ) < 10 ^ (count : ℤ) := by
      rw [zpow_natCast]
      exact_mod_cast hm
    have hten (k : ℤ) : (0 : ℚ) < 10 ^ k := zpow_pos (by norm_num) k
    have hgreat {k : ℤ} (hk : 400 ≤ k) :
        rounded negative (m * 10 ^ k) = .infinite negative := by
      refine rounded_of_le ?_ negative
      calc (2 : ℚ) ^ (1024 : ℤ) ≤ 2 ^ (1075 : ℤ) := zpow_le_zpow_right₀ one_le_two (by decide)
        _ ≤ 10 ^ (400 : ℤ) := two_zpow_le_ten_zpow
        _ ≤ 10 ^ k := zpow_le_zpow_right₀ (by norm_num) hk
        _ ≤ m * 10 ^ k := le_mul_of_one_le_left (hten k).le hone
    have hsmall {k : ℤ} (hk : k ≤ -(400 + count)) :
        rounded negative (m * 10 ^ k) = .finite negative .zero := by
      refine rounded_of_lt ?_ negative
      calc (m : ℚ) * 10 ^ k < 10 ^ (count : ℤ) * 10 ^ k := mul_lt_mul_of_pos_right hbound (hten k)
        _ = 10 ^ (count + k) := (zpow_add₀ (by norm_num) _ _).symm
        _ ≤ 10 ^ (-400 : ℤ) := zpow_le_zpow_right₀ (by norm_num) (by omega)
        _ ≤ 2 ^ (-1075 : ℤ) := by
          rw [zpow_neg, zpow_neg]
          exact inv_anti₀ (two_zpow_pos _) two_zpow_le_ten_zpow
    rw [ofDecimal_eq_rounded, ofDecimal_eq_rounded]
    unfold clampExponent
    rcases lt_or_ge e (-(400 + count)) with hlow | hlow
    · rw [hsmall (by omega), hsmall (by omega)]
    · rcases lt_or_ge (400 + count : ℤ) e with hhigh | hhigh
      · rw [hgreat (by omega), hgreat (by omega)]
      · rw [min_eq_left hhigh, max_eq_right hlow]

/-! ## The fewest digits -/

/-- The digits as a rational number. -/
def Digits.value (d : Digits) : ℚ := d.digits * 10 ^ d.exponent

theorem value_dropZeros (fuel : ℕ) (d : Digits) : (dropZeros fuel d).value = d.value := by
  induction fuel generalizing d with
  | zero => rfl
  | succ fuel ih =>
    unfold dropZeros
    split
    · rename_i hzero
      obtain ⟨-, hlast⟩ := Bool.and_eq_true_iff.1 hzero
      have hten : (d.digits : ℚ) = (d.digits / 10 : ℕ) * 10 := by
        exact_mod_cast (Nat.div_mul_cancel (Nat.dvd_of_mod_eq_zero (beq_iff_eq.1 hlast))).symm
      rw [ih, Digits.value, Digits.value, hten, zpow_add₀ (by norm_num), zpow_one]
      ring
    · rfl

/-- All the digits of a size make up the size. -/
theorem value_digits (size : Magnitude) : size.digits.value = size.value := by
  obtain ⟨m, e, hnormal⟩ := size
  unfold Magnitude.digits Magnitude.value Digits.value
  dsimp only
  split
  · rename_i hsign
    obtain ⟨n, rfl⟩ := Int.eq_ofNat_of_zero_le hsign
    simp
  · rename_i hsign
    obtain ⟨n, rfl⟩ : ∃ n : ℕ, e = -n := ⟨(-e).toNat, by omega⟩
    have hhalf : (5 : ℚ) ^ n * (10 ^ n)⁻¹ = (2 ^ n)⁻¹ := by
      rw [show (10 : ℚ) = 5 * 2 by norm_num, mul_pow, mul_inv, mul_inv_cancel_left₀ (by positivity)]
    simp only [neg_neg, Int.toNat_natCast, Nat.pow_eq, zpow_neg, zpow_natCast, Nat.cast_mul,
      Nat.cast_pow, Nat.cast_ofNat, mul_assoc, hhalf]

theorem rounded_of_digitsAt? {size : Magnitude} {t : ℤ} {d : Digits}
    (h : digitsAt? size t = some d) : rounded false d.value = .finite false size := by
  obtain ⟨k, hfound, rfl⟩ := Option.map_eq_some_iff.1 h
  have hreads := List.find?_some hfound
  simpa only [beq_iff_eq, ofDecimal_eq_rounded, Digits.value] using hreads

theorem rounded_of_searchDigits {size : Magnitude} {top : ℤ} {more count : ℕ} {d : Digits}
    (h : searchDigits size top more count = some d) :
    rounded false d.value = .finite false size := by
  induction more generalizing count with
  | zero => cases h
  | succ more ih =>
    unfold searchDigits at h
    split at h
    · rename_i hfound
      cases h
      exact rounded_of_digitsAt? hfound
    · exact ih h

/-- The fewest digits of a size are rounded to it. -/
theorem rounded_shortest (negative : Bool) (size : Magnitude) :
    rounded negative (shortest size).value = .finite negative size := by
  refine rounded_sign ?_ negative
  have hvalue : (shortest size).value =
      ((searchDigits size (decade size.ratio.1 size.ratio.2) 17 0).getD size.digits).value :=
    value_dropZeros _ _
  rw [hvalue]
  cases hsearch : searchDigits size (decade size.ratio.1 size.ratio.2) 17 0 with
  | some d => exact rounded_of_searchDigits hsearch
  | none =>
    rw [Option.getD_none, value_digits]
    exact rounded_value false size

/-- A size above nought has a digit other than nought. -/
theorem digits_shortest_ne_zero {size : Magnitude} (h : size.mantissa ≠ 0) :
    (shortest size).digits ≠ 0 := by
  intro hzero
  have hrounded := rounded_shortest false size
  rw [Digits.value, hzero] at hrounded
  simp only [Nat.cast_zero, zero_mul, rounded, le_refl, if_true, finite.injEq, true_and] at hrounded
  exact h (by rw [← hrounded]; rfl)

end StoryRegistry.Double
