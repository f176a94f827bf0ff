import Mathlib.Algebra.Order.Floor.Ring
import Mathlib.Data.Rat.Floor
import Mathlib.Tactic.GCongr
import Mathlib.Tactic.Linarith
import Mathlib.Tactic.Positivity

/-! Rounding of exact numbers to a number of decimal places, ties to even. -/

set_option autoImplicit false

namespace LibraFlow.Library

/-- The integer nearest to a rational; of two equally near ones, the even one. -/
def roundHalfEven (number : ℚ) : ℤ :=
  let below := ⌊number⌋
  let rest := number - below
  if rest < 1 / 2 then below
  else if 1 / 2 < rest then below + 1
  else if below % 2 = 0 then below
  else below + 1

theorem le_roundHalfEven {bound : ℤ} {number : ℚ} (above : (bound : ℚ) ≤ number) :
    bound ≤ roundHalfEven number := by
  have floor : bound ≤ ⌊number⌋ := Int.le_floor.mpr above
  unfold roundHalfEven
  simp only
  split_ifs <;> omega

theorem roundHalfEven_le {bound : ℤ} {number : ℚ} (below : number ≤ bound) :
    roundHalfEven number ≤ bound := by
  have floor : ⌊number⌋ ≤ bound := by
    exact_mod_cast (Int.floor_le number).trans below
  unfold roundHalfEven
  simp only
  rcases floor.lt_or_eq with less | exact
  · split_ifs <;> omega
  · have none : number - ⌊number⌋ < 1 / 2 := by
      rw [exact]
      linarith
    rw [if_pos none]
    exact floor

/-- The number is rounded to the next integer. -/
def RoundsUp (number : ℚ) : Prop :=
  1 / 2 < Int.fract number ∨ (Int.fract number = 1 / 2 ∧ ⌊number⌋ % 2 ≠ 0)

instance (number : ℚ) : Decidable (RoundsUp number) :=
  inferInstanceAs (Decidable (_ ∨ _))

theorem roundHalfEven_eq (number : ℚ) :
    roundHalfEven number = if RoundsUp number then ⌊number⌋ + 1 else ⌊number⌋ := by
  have part : number - ⌊number⌋ = Int.fract number := rfl
  unfold roundHalfEven
  simp only [part]
  rcases lt_trichotomy (Int.fract number) (1 / 2) with less | tie | more
  · have down : ¬ RoundsUp number := by
      intro up
      rcases up with more | ⟨tie, _⟩
      · exact lt_asymm less more
      · exact less.ne tie
    rw [if_pos less, if_neg down]
  · rw [if_neg tie.not_lt, if_neg tie.not_gt]
    by_cases even : ⌊number⌋ % 2 = 0
    · have down : ¬ RoundsUp number := by
        intro up
        rcases up with more | ⟨_, odd⟩
        · exact tie.not_gt more
        · exact odd even
      rw [if_pos even, if_neg down]
    · have up : RoundsUp number := .inr ⟨tie, even⟩
      rw [if_neg even, if_pos up]
  · have up : RoundsUp number := .inl more
    rw [if_neg (not_lt_of_gt more), if_pos more, if_pos up]

/-- Round to the given number of decimal places. -/
def roundTo (places : Nat) (number : ℚ) : ℚ :=
  (roundHalfEven (number * 10 ^ places) : ℚ) / 10 ^ places

/-- Rounding to cents drops the fraction of a cent, or adds what is missing to the next. -/
theorem roundTo_two (number : ℚ) :
    roundTo 2 number = number - Int.fract (number * 100) / 100 +
      if RoundsUp (number * 100) then 1 / 100 else 0 := by
  have floor : (⌊number * 100⌋ : ℚ) = number * 100 - Int.fract (number * 100) :=
    (Int.self_sub_fract _).symm
  have scale : (10 : ℚ) ^ 2 = 100 := by norm_num
  rw [roundTo, scale, roundHalfEven_eq]
  split
  · push_cast
    rw [floor]
    ring
  · rw [floor]
    ring

/-- Rounding stays between whole numbers. -/
theorem roundTo_mem {places : Nat} {lower upper : ℤ} {number : ℚ} (above : (lower : ℚ) ≤ number)
    (below : number ≤ upper) :
    (lower : ℚ) ≤ roundTo places number ∧ roundTo places number ≤ upper := by
  have scale : (0 : ℚ) < 10 ^ places := by positivity
  have low : lower * 10 ^ places ≤ roundHalfEven (number * 10 ^ places) :=
    le_roundHalfEven (by push_cast; gcongr)
  have high : roundHalfEven (number * 10 ^ places) ≤ upper * 10 ^ places :=
    roundHalfEven_le (by push_cast; gcongr)
  unfold roundTo
  rw [le_div_iff₀ scale, div_le_iff₀ scale]
  exact ⟨by exact_mod_cast low, by exact_mod_cast high⟩

theorem roundTo_nonneg {places : Nat} {number : ℚ} (nonneg : 0 ≤ number) :
    0 ≤ roundTo places number := by
  have scaled : ((0 : ℤ) : ℚ) ≤ number * 10 ^ places := by
    push_cast
    positivity
  have rounded : (0 : ℚ) ≤ roundHalfEven (number * 10 ^ places) := by
    exact_mod_cast le_roundHalfEven scaled
  unfold roundTo
  positivity

/-- The integer nearest to the square root of a rational, ties to even. -/
def roundSqrt (square : ℚ) : ℕ :=
  let below := Nat.sqrt ⌊square⌋.toNat
  let middle : ℚ := below + 1 / 2
  if square < middle ^ 2 then below
  else if middle ^ 2 < square then below + 1
  else if below % 2 = 0 then below
  else below + 1

end LibraFlow.Library
