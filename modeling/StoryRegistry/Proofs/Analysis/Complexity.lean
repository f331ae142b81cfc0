import StoryRegistry.Analysis.Complexity
import StoryRegistry.Proofs.Double.Arithmetic

/-!
# The score of a component

The score is summed up in binary64 numbers, and a tenth is not a number of that format. Nothing of it is
lost up to the last place the score can show: below the cap the sum lies between a half-integer and
seven sixteenths above it, both of which are numbers of the format, and rounding keeps to them
(`isAtLeast_weight`, `isAtMost_weight`). So the score is the exact weighted size, clamped and rounded
(`score_eq`), unless one of the weighted counts lies beyond the format (`score_eq_error`). It lies
between 0 and 100, no greater count lowers it, and it leaves no block behind (`score_of_counts`).
-/

set_option autoImplicit false

namespace StoryRegistry

open Double

namespace Counts

/-- All counts are natural numbers. -/
structure IsNatural (c : Counts) : Prop where
  files : 0 ≤ c.files
  lines : 0 ≤ c.lines
  dependencies : 0 ≤ c.dependencies
  props : 0 ≤ c.props
  stories : 0 ≤ c.stories

/-- No count is greater than the same one of the others. -/
instance : LE Counts where
  le c d := c.files ≤ d.files ∧ c.lines ≤ d.lines ∧ c.dependencies ≤ d.dependencies ∧
    c.props ≤ d.props ∧ c.stories ≤ d.stories

instance (c d : Counts) : Decidable (c ≤ d) := inferInstanceAs (Decidable (_ ∧ _))

/-- The weighted size as a rational number. -/
def exact (c : Counts) : ℚ :=
  10 * c.files + (min c.lines 1000 : ℤ) / 10 + 5 * c.dependencies + 2 * c.props + 3 * c.stories

/-- The weighted counts, each for itself, are within the binary64 format. -/
structure FitsFormat (c : Counts) : Prop where
  files : 10 * c.files < limit
  dependencies : 5 * c.dependencies < limit
  props : 2 * c.props < limit
  stories : 3 * c.stories < limit

/-! ## The parts of the weight -/

theorem quotient_natCast (n : ℕ) {den : ℕ} (h : 0 < den) :
    quotient n den = if (limit : ℚ) ≤ n / den then .error .tooLarge else .ok (rounded false (n / den)) := by
  rw [quotient, Int.natAbs_natCast, decide_eq_false (by omega), ofRatio_eq_rounded _ _ h]
  split_ifs with hlimit
  · rw [(rounded_eq_infinite_iff false).2 hlimit]
  · obtain ⟨size, hsize⟩ := exists_rounded_of_lt false (not_le.1 hlimit)
    rw [hsize]

theorem fits_halves {n : ℕ} (h : n < 2 ^ 53) : Fits ((n : ℚ) / 2) := by
  simpa using fits_ratio h (k := 1) (by decide)

theorem fits_sixteenths {n : ℕ} (h : n < 2 ^ 53) : Fits ((n : ℚ) / 16) := by
  have hfits := fits_ratio h (k := 4) (by decide)
  norm_num at hfits
  exact hfits

/-- A count is at least as great in the format, up to a number that is great enough for the cap. -/
theorem isAtLeast_part (n : ℕ) : IsAtLeast (rounded false n) (min n 200 : ℕ) :=
  isAtLeast_rounded (fits_natCast (by omega)) (Nat.cast_le.2 (min_le_left n 200))

theorem isAtMost_part {n : ℕ} (h : n < 2 ^ 53) : IsAtMost (rounded false n) n :=
  isAtMost_rounded (fits_natCast h) le_rfl

/-- The tenth of a number of lines is at least half of every whole fifth of it. -/
theorem isAtLeast_tenth {lines : ℕ} (h : lines ≤ 1000) :
    IsAtLeast (rounded false ((lines : ℚ) / 10)) ((lines / 5 : ℕ) / 2) := by
  refine isAtLeast_rounded (fits_halves (by omega)) ?_
  have hfifth : ((5 * (lines / 5) : ℕ) : ℚ) ≤ lines := Nat.cast_le.2 (Nat.mul_div_le lines 5)
  push_cast at hfifth
  linarith

/-- The tenth of a number of lines is less than half a place above that. -/
theorem isAtMost_tenth {lines : ℕ} (h : lines ≤ 1000) :
    IsAtMost (rounded false ((lines : ℚ) / 10)) ((8 * (lines / 5) + 7 : ℕ) / 16) := by
  refine isAtMost_rounded (fits_sixteenths (by omega)) ?_
  have hfifth : (lines : ℚ) ≤ (5 * (lines / 5) + 4 : ℕ) := Nat.cast_le.2 (by omega)
  push_cast at hfifth ⊢
  linarith

theorem isAtLeast_add_part {x : Double} {m : ℕ} (hx : IsAtLeast x (m / 2)) (hm : m < 2 ^ 52) (n : ℕ) :
    IsAtLeast (x.add (rounded false n)) ((m + 2 * min n 200 : ℕ) / 2) := by
  have hsum : ((m + 2 * min n 200 : ℕ) : ℚ) / 2 = m / 2 + (min n 200 : ℕ) := by
    push_cast
    ring
  rw [hsum]
  refine hx.add (isAtLeast_part n) ?_
  rw [← hsum]
  exact fits_halves (by omega)

theorem isAtMost_add_part {x : Double} {m n : ℕ} (hx : IsAtMost x (m / 16)) (h : m + 16 * n < 2 ^ 53) :
    IsAtMost (x.add (rounded false n)) ((m + 16 * n : ℕ) / 16) := by
  have hsum : ((m + 16 * n : ℕ) : ℚ) / 16 = m / 16 + n := by
    push_cast
    ring
  rw [hsum]
  refine hx.add (isAtMost_part (by omega)) ?_
  rw [← hsum]
  exact fits_sixteenths h

/-! ## The weight -/

/-- The parts summed up from left to right. -/
def sum (files lines dependencies props stories : ℕ) : Double :=
  ((((rounded false (10 * files : ℕ)).add (rounded false ((min lines 1000 : ℕ) / 10))).add
    (rounded false (5 * dependencies : ℕ))).add (rounded false (2 * props : ℕ))).add
      (rounded false (3 * stories : ℕ))

theorem quotient_one (factor n : ℕ) :
    quotient (factor * n) 1 =
      if (limit : ℤ) ≤ factor * n then .error .tooLarge else .ok (rounded false (factor * n : ℕ)) := by
  have hquotient := quotient_natCast (factor * n) one_pos
  rw [Nat.cast_one, div_one] at hquotient
  rw [← Nat.cast_mul, hquotient]
  simp only [Nat.cast_le]

theorem quotient_tenth (lines : ℕ) :
    quotient (min lines mostLines) 10 = .ok (rounded false ((min lines 1000 : ℕ) / 10)) := by
  have hcast : min (lines : ℤ) mostLines = ((min lines 1000 : ℕ) : ℤ) := by
    rw [mostLines]
    omega
  have hless : ((min lines 1000 : ℕ) : ℚ) / 10 < limit := by
    have hmost : ((min lines 1000 : ℕ) : ℚ) ≤ (1000 : ℕ) := Nat.cast_le.2 (min_le_right lines 1000)
    have hlimit : (2 : ℚ) ^ 52 * 1 ≤ limit := by
      rw [limit_eq]
      exact mul_le_mul (by norm_num) (one_le_zpow₀ one_le_two (by decide)) one_pos.le (by norm_num)
    push_cast at hmost ⊢
    linarith
  have hquotient := quotient_natCast (min lines 1000) (by decide : 0 < 10)
  rw [hcast, hquotient, Nat.cast_ofNat, if_neg (not_le.2 hless)]

theorem weight_of_fits {files lines dependencies props stories : ℕ}
    (h : FitsFormat ⟨files, lines, dependencies, props, stories⟩) :
    weight ⟨files, lines, dependencies, props, stories⟩ =
      .ok (sum files lines dependencies props stories) := by
  have hfiles := (quotient_one 10 files).trans (if_neg (not_le.2 h.files))
  have hdependencies := (quotient_one 5 dependencies).trans (if_neg (not_le.2 h.dependencies))
  have hprops := (quotient_one 2 props).trans (if_neg (not_le.2 h.props))
  have hstories := (quotient_one 3 stories).trans (if_neg (not_le.2 h.stories))
  rw [weight]
  simp only [Nat.cast_ofNat] at hfiles hdependencies hprops hstories
  rw [hfiles, hdependencies, hprops, hstories, quotient_tenth]
  rfl

theorem weight_of_not_fits {files lines dependencies props stories : ℕ}
    (h : ¬ FitsFormat ⟨files, lines, dependencies, props, stories⟩) :
    weight ⟨files, lines, dependencies, props, stories⟩ = .error .tooLarge := by
  have hfiles := quotient_one 10 files
  have hdependencies := quotient_one 5 dependencies
  have hprops := quotient_one 2 props
  have hstories := quotient_one 3 stories
  simp only [Nat.cast_ofNat] at hfiles hdependencies hprops hstories
  rw [weight]
  simp only [hfiles, hdependencies, hprops, hstories, quotient_tenth]
  by_cases h₁ : (limit : ℤ) ≤ 10 * files
  · rw [if_pos h₁]
    rfl
  by_cases h₂ : (limit : ℤ) ≤ 5 * dependencies
  · rw [if_neg h₁, if_pos h₂]
    rfl
  by_cases h₃ : (limit : ℤ) ≤ 2 * props
  · rw [if_neg h₁, if_neg h₂, if_pos h₃]
    rfl
  by_cases h₄ : (limit : ℤ) ≤ 3 * stories
  · rw [if_neg h₁, if_neg h₂, if_neg h₃, if_pos h₄]
    rfl
  · exact absurd ⟨not_le.1 h₁, not_le.1 h₂, not_le.1 h₃, not_le.1 h₄⟩ h

/-- The weighted counts without the lines. -/
def whole (files dependencies props stories : ℕ) : ℕ :=
  10 * files + 5 * dependencies + 2 * props + 3 * stories

/-- The sum is at least the exact one with the lines cut to half-integers, up to the cap. -/
theorem isAtLeast_sum (files lines dependencies props stories : ℕ) :
    IsAtLeast (sum files lines dependencies props stories)
      ((min (2 * whole files dependencies props stories + min lines 1000 / 5) 199 : ℕ) / 2) := by
  have htenth := isAtLeast_tenth (min_le_right lines 1000)
  have hstart : IsAtLeast
      ((rounded false (10 * files : ℕ)).add (rounded false ((min lines 1000 : ℕ) / 10)))
      ((2 * min (10 * files) 200 + min lines 1000 / 5 : ℕ) / 2) := by
    have hsum : ((2 * min (10 * files) 200 + min lines 1000 / 5 : ℕ) : ℚ) / 2 =
        (min (10 * files) 200 : ℕ) + (min lines 1000 / 5 : ℕ) / 2 := by
      push_cast
      ring
    rw [hsum]
    refine (isAtLeast_part _).add htenth ?_
    rw [← hsum]
    exact fits_halves (by omega)
  have hdependencies := isAtLeast_add_part hstart (by omega) (5 * dependencies)
  have hprops := isAtLeast_add_part hdependencies (by omega) (2 * props)
  have hsum := isAtLeast_add_part hprops (by omega) (3 * stories)
  refine hsum.mono (div_le_div_of_nonneg_right (Nat.cast_le.2 ?_) two_pos.le)
  unfold whole
  omega

/-- Below the cap the sum is less than half a place above that. -/
theorem isAtMost_sum {files dependencies props stories : ℕ} (lines : ℕ)
    (h : whole files dependencies props stories < 100) :
    IsAtMost (sum files lines dependencies props stories)
      ((16 * whole files dependencies props stories + 8 * (min lines 1000 / 5) + 7 : ℕ) / 16) := by
  have htenth := isAtMost_tenth (min_le_right lines 1000)
  unfold whole at *
  have hstart : IsAtMost
      ((rounded false (10 * files : ℕ)).add (rounded false ((min lines 1000 : ℕ) / 10)))
      ((16 * (10 * files) + (8 * (min lines 1000 / 5) + 7) : ℕ) / 16) := by
    have hsum : ((16 * (10 * files) + (8 * (min lines 1000 / 5) + 7) : ℕ) : ℚ) / 16 =
        (10 * files : ℕ) + (8 * (min lines 1000 / 5) + 7 : ℕ) / 16 := by
      push_cast
      ring
    rw [hsum]
    refine (isAtMost_part (by omega)).add htenth ?_
    rw [← hsum]
    exact fits_sixteenths (by omega)
  have hdependencies := isAtMost_add_part (n := 5 * dependencies) hstart (by omega)
  have hprops := isAtMost_add_part (n := 2 * props) hdependencies (by omega)
  have hsum := isAtMost_add_part (n := 3 * stories) hprops (by omega)
  refine hsum.mono (div_le_div_of_nonneg_right (Nat.cast_le.2 ?_) (by norm_num))
  omega

/-! ## The score -/

/-- The sum clamped to the range from 0 to 100, and half a place on. -/
def raised (x : Double) : Double := ((x.atLeast 0).atMost 100).add half

theorem half_bounds : IsAtLeast half (1 / 2) ∧ IsAtMost half (1 / 2) := by
  obtain ⟨size, hsize⟩ := fits_halves (n := 1) (by decide)
  have hhalf : half = .finite false size := by
    rw [half, ofRatio_eq_rounded _ _ two_pos, ← rounded_value, hsize, Nat.cast_two]
  rw [Nat.cast_one] at hsize
  exact ⟨.inr ⟨size, hhalf, hsize.ge⟩, size, hhalf, hsize.le⟩

/-- From half a place below the cap on, the score is the cap. -/
theorem floor?_of_great {x : Double} (h : IsAtLeast x (199 / 2)) : (raised x).floor? = some 100 := by
  obtain ⟨hleast, hmost⟩ := h.atLeast_zero.atMost (n := 100) (by decide) (by norm_num)
  have hbelow := hleast.add half_bounds.1 (by norm_num; exact fits_natCast (n := 100) (by decide))
  have habove := hmost.add half_bounds.2 (by norm_num; exact fits_halves (n := 201) (by decide))
  exact floor?_of_bounds hbelow habove (by norm_num) (by norm_num)

/-- Below the cap, the score is the half-integer that bounds the sum from below, rounded up. -/
theorem floor?_of_small {x : Double} {m : ℕ} (hm : m < 199) (hleast : IsAtLeast x (m / 2))
    (hmost : IsAtMost x ((8 * m + 7 : ℕ) / 16)) : (raised x).floor? = some ((m + 1) / 2 : ℕ) := by
  have hcap : (m : ℚ) / 2 ≤ (100 : ℕ) := by
    have hm' : (m : ℚ) ≤ (199 : ℕ) := Nat.cast_le.2 hm.le
    push_cast at hm' ⊢
    linarith
  have hbelow : IsAtLeast (raised x) ((m + 1 : ℕ) / 2) := by
    have hsum : ((m + 1 : ℕ) : ℚ) / 2 = m / 2 + 1 / 2 := by
      push_cast
      ring
    rw [hsum]
    refine (hleast.atLeast_zero.atMost (by decide) hcap).1.add half_bounds.1 ?_
    rw [← hsum]
    exact fits_halves (by omega)
  have habove : IsAtMost (raised x) ((8 * m + 15 : ℕ) / 16) := by
    have hsum : ((8 * m + 15 : ℕ) : ℚ) / 16 = (8 * m + 7 : ℕ) / 16 + 1 / 2 := by
      push_cast
      ring
    rw [hsum]
    refine (hmost.atLeast_zero.atMost (by decide)).add half_bounds.2 ?_
    rw [← hsum]
    exact fits_sixteenths (by omega)
  refine floor?_of_bounds hbelow habove ?_ ?_
  · rw [Int.cast_natCast, le_div_iff₀ two_pos]
    exact_mod_cast Nat.div_mul_le_self (m + 1) 2
  · rw [Int.cast_natCast, div_lt_iff₀ (by norm_num)]
    have hnat : 8 * m + 15 < ((m + 1) / 2 + 1) * 16 := by omega
    exact_mod_cast hnat

/-- The weighted size in half-integers, the lines cut to them, up to half a place below the cap. -/
def halves (files lines dependencies props stories : ℕ) : ℕ :=
  min (2 * whole files dependencies props stories + min lines 1000 / 5) 199

theorem floor?_sum (files lines dependencies props stories : ℕ) :
    (raised (sum files lines dependencies props stories)).floor? =
      some ((halves files lines dependencies props stories + 1) / 2 : ℕ) := by
  have hleast := isAtLeast_sum files lines dependencies props stories
  rcases Nat.lt_or_ge (2 * whole files dependencies props stories + min lines 1000 / 5) 199 with
    hlt | hge
  · have hmost := isAtMost_sum lines (by omega : whole files dependencies props stories < 100)
    unfold halves
    rw [min_eq_left hlt.le] at hleast ⊢
    refine floor?_of_small hlt hleast (hmost.mono (div_le_div_of_nonneg_right ?_ (by norm_num)))
    exact Nat.cast_le.2 (by omega)
  · unfold halves
    rw [min_eq_right hge] at hleast ⊢
    exact floor?_of_great (by exact_mod_cast hleast)

/-- The lines lie less than half a place above what they are cut to. -/
theorem exact_bounds (files lines dependencies props stories : ℕ) :
    ((2 * whole files dependencies props stories + min lines 1000 / 5 : ℕ) : ℚ) / 2 ≤
        exact ⟨files, lines, dependencies, props, stories⟩ ∧
      exact ⟨files, lines, dependencies, props, stories⟩ ≤
        ((2 * whole files dependencies props stories + min lines 1000 / 5 : ℕ) : ℚ) / 2 + 2 / 5 := by
  have hcast : (min (lines : ℤ) 1000 : ℤ) = ((min lines 1000 : ℕ) : ℤ) := by push_cast; rfl
  have hfifth : ((5 * (min lines 1000 / 5) : ℕ) : ℚ) ≤ (min lines 1000 : ℕ) :=
    Nat.cast_le.2 (Nat.mul_div_le _ 5)
  have hrest : ((min lines 1000 : ℕ) : ℚ) ≤ (5 * (min lines 1000 / 5) + 4 : ℕ) :=
    Nat.cast_le.2 (by omega)
  unfold exact whole
  dsimp only
  rw [hcast, Int.cast_natCast]
  generalize min lines 1000 = counted at *
  generalize counted / 5 = fifths at *
  push_cast at *
  constructor <;> linarith

theorem floor_exact (files lines dependencies props stories : ℕ) :
    ⌊max 0 (min 100 (exact ⟨files, lines, dependencies, props, stories⟩)) + 1 / 2⌋ =
      ((halves files lines dependencies props stories + 1) / 2 : ℕ) := by
  obtain ⟨hleast, hmost⟩ := exact_bounds files lines dependencies props stories
  generalize exact ⟨files, lines, dependencies, props, stories⟩ = size at *
  unfold halves
  generalize 2 * whole files dependencies props stories + min lines 1000 / 5 = m at *
  have hnonneg : 0 ≤ size := (div_nonneg (Nat.cast_nonneg m) two_pos.le).trans hleast
  rw [Int.floor_eq_iff, max_eq_right (le_min (by norm_num) hnonneg), Int.cast_natCast]
  rcases Nat.lt_or_ge m 199 with hlt | hge
  · have hm : (m : ℚ) + 1 ≤ 199 := by exact_mod_cast hlt
    have hbelow : (((m + 1) / 2 : ℕ) : ℚ) * 2 ≤ m + 1 := by
      exact_mod_cast Nat.div_mul_le_self (m + 1) 2
    have habove : (m : ℚ) + 2 ≤ (((m + 1) / 2 : ℕ) : ℚ) * 2 + 2 := by
      exact_mod_cast (by omega : m + 2 ≤ (m + 1) / 2 * 2 + 2)
    rw [min_eq_left hlt.le, min_eq_right (by linarith)]
    constructor <;> linarith
  · have hm : (199 : ℚ) ≤ m := by exact_mod_cast hge
    have hcap : 199 / 2 ≤ min 100 size := le_min (by norm_num) (by linarith)
    have hmost := min_le_left 100 size
    rw [min_eq_right hge]
    push_cast
    constructor <;> linarith

/-! ## The score of natural counts -/

/-- Natural counts, each as the natural number that it is. -/
theorem IsNatural.exists_natCast {c : Counts} (h : c.IsNatural) :
    ∃ files lines dependencies props stories : ℕ,
      c = ⟨files, lines, dependencies, props, stories⟩ := by
  obtain ⟨files, lines, dependencies, props, stories⟩ := c
  obtain ⟨hfiles, hlines, hdependencies, hprops, hstories⟩ := h
  lift files to ℕ using hfiles
  lift lines to ℕ using hlines
  lift dependencies to ℕ using hdependencies
  lift props to ℕ using hprops
  lift stories to ℕ using hstories
  exact ⟨files, lines, dependencies, props, stories, rfl⟩

/-- Within the format the score is the exact weighted size, clamped, with a half rounded up. -/
theorem score_eq {c : Counts} (hc : c.IsNatural) (hfits : c.FitsFormat) :
    c.score = .ok ⌊max 0 (min 100 c.exact) + 1 / 2⌋ := by
  obtain ⟨files, lines, dependencies, props, stories, rfl⟩ := hc.exists_natCast
  have hfloor := floor?_sum files lines dependencies props stories
  rw [raised] at hfloor
  rw [score, weight_of_fits hfits, floor_exact]
  simp only [bind, Except.bind, hfloor]
  rfl

/-- Beyond the format there is no score. -/
theorem score_eq_error {c : Counts} (hc : c.IsNatural) (hfits : ¬ c.FitsFormat) :
    c.score = .error .tooLarge := by
  obtain ⟨files, lines, dependencies, props, stories, rfl⟩ := hc.exists_natCast
  rw [score, weight_of_not_fits hfits]
  rfl

theorem exact_mono {c d : Counts} (h : c ≤ d) : c.exact ≤ d.exact := by
  obtain ⟨hfiles, hlines, hdependencies, hprops, hstories⟩ := h
  have hcounted : (min c.lines 1000 : ℤ) ≤ (min d.lines 1000 : ℤ) := min_le_min_right 1000 hlines
  unfold exact
  gcongr

theorem FitsFormat.of_le {c d : Counts} (hd : d.FitsFormat) (h : c ≤ d) : c.FitsFormat := by
  obtain ⟨hfiles, -, hdependencies, hprops, hstories⟩ := h
  obtain ⟨hf, hdep, hp, hs⟩ := hd
  constructor <;> omega

theorem IsNatural.of_le {c d : Counts} (hc : c.IsNatural) (h : c ≤ d) : d.IsNatural := by
  obtain ⟨hfiles, hlines, hdependencies, hprops, hstories⟩ := h
  exact ⟨hc.files.trans hfiles, hc.lines.trans hlines, hc.dependencies.trans hdependencies,
    hc.props.trans hprops, hc.stories.trans hstories⟩

end Counts

/-- A component is a block for its score or for the number of its files. -/
theorem ItemType.suggested_eq_block_iff (score : Int) (paths : List String) :
    suggested score paths = .block ↔ 70 < score ∨ 3 < paths.length := by
  unfold suggested
  split_ifs with hblock <;> simp_all

namespace Counts

/-- The score of natural counts and of counts that are no less. Within the binary64 format both are the
exact weighted size, clamped to the range from 0 to 100, with a half rounded up; the score does not
sink, and a block stays a block. Beyond the format there is no score. -/
theorem score_of_counts {c d : Counts} (hc : c.IsNatural) (hle : c ≤ d) :
    (d.FitsFormat → ∃ n m, c.score = .ok n ∧ d.score = .ok m ∧
      n = ⌊max 0 (min 100 c.exact) + 1 / 2⌋ ∧ m = ⌊max 0 (min 100 d.exact) + 1 / 2⌋ ∧
      0 ≤ n ∧ n ≤ m ∧ m ≤ 100 ∧
      ∀ paths, ItemType.suggested n paths = .block → ItemType.suggested m paths = .block) ∧
    (¬ d.FitsFormat → d.score = .error .tooLarge) := by
  have hd := hc.of_le hle
  refine ⟨fun hfits => ?_, score_eq_error hd⟩
  refine ⟨_, _, score_eq hc (hfits.of_le hle), score_eq hd hfits, rfl, rfl, ?_⟩
  have hnonneg : 0 ≤ ⌊max 0 (min 100 c.exact) + 1 / 2⌋ := by
    have hclamped := le_max_left 0 (min 100 c.exact)
    exact Int.floor_nonneg.2 (by linarith)
  have hmono : ⌊max 0 (min 100 c.exact) + 1 / 2⌋ ≤ ⌊max 0 (min 100 d.exact) + 1 / 2⌋ := by
    have hexact := exact_mono hle
    gcongr
  have hmost : ⌊max 0 (min 100 d.exact) + 1 / 2⌋ ≤ 100 := by
    have hclamped : max 0 (min 100 d.exact) ≤ 100 := max_le (by norm_num) (min_le_left _ _)
    refine Int.lt_add_one_iff.1 (Int.floor_lt.2 ?_)
    push_cast
    linarith
  refine ⟨hnonneg, hmono, hmost, fun paths hblock => ?_⟩
  rw [ItemType.suggested_eq_block_iff] at hblock ⊢
  exact hblock.imp_left hmono.trans_lt'

/-- Two components, the second with more of everything, and one with more files than the format holds. -/
theorem score_of_grown_counts :
    (∃ n m, score ⟨1, 57, 2, 3, 1⟩ = .ok n ∧ score ⟨5, 1200, 9, 30, 4⟩ = .ok m ∧
      n = ⌊max 0 (min 100 (exact ⟨1, 57, 2, 3, 1⟩)) + 1 / 2⌋ ∧
      m = ⌊max 0 (min 100 (exact ⟨5, 1200, 9, 30, 4⟩)) + 1 / 2⌋ ∧ 0 ≤ n ∧ n ≤ m ∧ m ≤ 100 ∧
      ∀ paths, ItemType.suggested n paths = .block → ItemType.suggested m paths = .block) ∧
    score ⟨10 ^ 309, 57, 2, 3, 1⟩ = .error .tooLarge :=
  ⟨(score_of_counts (c := ⟨1, 57, 2, 3, 1⟩) (by constructor <;> decide) (by decide)).1
      (by constructor <;> decide +kernel),
    (score_of_counts (c := ⟨1, 57, 2, 3, 1⟩) (by constructor <;> decide) (by decide +kernel)).2
      fun hfits => absurd hfits.files (by decide +kernel)⟩

end Counts

end StoryRegistry
