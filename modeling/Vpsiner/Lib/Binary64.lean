import Mathlib.Algebra.BigOperators.Group.List.Basic
import Mathlib.Algebra.Order.Field.Basic
import Mathlib.Algebra.Order.BigOperators.Group.List
import Mathlib.Algebra.Order.Floor.Ring
import Mathlib.Data.Int.Log
import Mathlib.Data.Rat.Floor
import Mathlib.Tactic.FieldSimp
import Mathlib.Tactic.Linarith
import Mathlib.Tactic.NormNum
import Mathlib.Tactic.Positivity
import Mathlib.Tactic.Ring

/-! Rounding to a `binary64` number, and how far a chain of rounded operations strays. The
exponent is not bounded, so this is the rounding of values that neither overflow nor fall below
the normal numbers. -/

set_option autoImplicit false

namespace Vpsiner.Lib.Binary64

/-! ## Rounding -/

/-- A tie goes to the even neighbour. -/
def nearestEven (x : ℚ) : Int :=
  let rest := x - ⌊x⌋
  if rest < 1 / 2 ∨ rest = 1 / 2 ∧ Even ⌊x⌋ then ⌊x⌋ else ⌊x⌋ + 1

/-- The distance of two neighbours with 53 significant bits at `x`. -/
def spacing (x : ℚ) : ℚ := 2 ^ (Int.log 2 |x| - 52)

def rounded (x : ℚ) : ℚ := nearestEven (x / spacing x) * spacing x

theorem abs_nearestEven_sub_le (x : ℚ) : |(nearestEven x : ℚ) - x| ≤ 1 / 2 := by
  have below := Int.floor_le x
  have above := Int.lt_floor_add_one x
  simp only [nearestEven]
  split
  · next down =>
      have near : x - ⌊x⌋ ≤ 1 / 2 := down.elim le_of_lt fun tie => tie.1.le
      rw [abs_le]
      constructor <;> linarith
  · next up =>
      have far : 1 / 2 ≤ x - ⌊x⌋ := by
        by_contra less
        exact up (.inl (not_le.mp less))
      push_cast
      rw [abs_le]
      constructor <;> linarith

theorem spacing_pos (x : ℚ) : 0 < spacing x := zpow_pos (by norm_num) _

theorem spacing_le {x : ℚ} (nonzero : x ≠ 0) : spacing x ≤ |x| / 2 ^ 52 := by
  have leading : (2 : ℚ) ^ Int.log 2 |x| ≤ |x| :=
    mod_cast Int.zpow_log_le_self (by norm_num) (abs_pos.mpr nonzero)
  rw [spacing, zpow_sub₀ (by norm_num)]
  exact div_le_div_of_nonneg_right leading (by norm_num)

@[simp] theorem rounded_zero : rounded 0 = 0 := by decide +kernel

theorem abs_rounded_sub_le (x : ℚ) : |rounded x - x| ≤ |x| / 2 ^ 53 := by
  by_cases zero : x = 0
  · simp [zero]
  · have positive := spacing_pos x
    have scaled : rounded x - x =
        ((nearestEven (x / spacing x) : ℚ) - x / spacing x) * spacing x := by
      rw [sub_mul, div_mul_cancel₀ x positive.ne', rounded]
    calc |rounded x - x|
        = |(nearestEven (x / spacing x) : ℚ) - x / spacing x| * spacing x := by
          rw [scaled, abs_mul, abs_of_pos positive]
      _ ≤ 1 / 2 * spacing x :=
          mul_le_mul_of_nonneg_right (abs_nearestEven_sub_le _) positive.le
      _ ≤ 1 / 2 * (|x| / 2 ^ 52) := mul_le_mul_of_nonneg_left (spacing_le zero) (by norm_num)
      _ = |x| / 2 ^ 53 := by ring

/-! ## Relative distance -/

/-- One more than the distance from one to its upper neighbour. -/
def slack : ℚ := 1 + 1 / 2 ^ 52

/-- Neither value is larger than the other by more than the error of `steps` roundings. -/
structure Near (steps : Nat) (exact shown : ℚ) : Prop where
  exact_le : exact ≤ shown * slack ^ steps
  shown_le : shown ≤ exact * slack ^ steps

theorem one_le_slack : 1 ≤ slack := by norm_num [slack]

theorem one_le_slack_pow (steps : Nat) : 1 ≤ slack ^ steps := one_le_pow₀ one_le_slack

theorem slack_pow_pos (steps : Nat) : 0 < slack ^ steps :=
  zero_lt_one.trans_le (one_le_slack_pow steps)

namespace Near

theorem refl (exact : ℚ) : Near 0 exact exact := ⟨by simp, by simp⟩

theorem zero (steps : Nat) : Near steps 0 0 := ⟨by simp, by simp⟩

variable {few more steps steps' : Nat} {exact exact' shown shown' : ℚ}

theorem zero_iff : Near steps 0 shown ↔ shown = 0 := by
  constructor
  · intro near
    apply le_antisymm (by simpa using near.shown_le)
    exact nonneg_of_mul_nonneg_left near.exact_le (slack_pow_pos steps)
  · rintro rfl
    exact zero steps

theorem nonneg (near : Near steps exact shown) (exactNonneg : 0 ≤ exact) : 0 ≤ shown :=
  nonneg_of_mul_nonneg_left (exactNonneg.trans near.exact_le) (slack_pow_pos steps)

theorem pos_iff (near : Near steps exact shown) : 0 < shown ↔ 0 < exact :=
  ⟨fun positive => pos_of_mul_pos_left (positive.trans_le near.shown_le) (slack_pow_pos steps).le,
    fun positive => pos_of_mul_pos_left (positive.trans_le near.exact_le)
      (slack_pow_pos steps).le⟩

theorem mono (near : Near few exact shown) (nonneg : 0 ≤ exact) (fewer : few ≤ more) :
    Near more exact shown := by
  have larger : slack ^ few ≤ slack ^ more := pow_le_pow_right₀ one_le_slack fewer
  exact ⟨near.exact_le.trans (mul_le_mul_of_nonneg_left larger (near.nonneg nonneg)),
    near.shown_le.trans (mul_le_mul_of_nonneg_left larger nonneg)⟩

theorem trans {middle : ℚ} (first : Near steps exact middle) (second : Near steps' middle shown) :
    Near (steps + steps') exact shown := by
  constructor
  · calc exact ≤ middle * slack ^ steps := first.exact_le
      _ ≤ shown * slack ^ steps' * slack ^ steps :=
          mul_le_mul_of_nonneg_right second.exact_le (slack_pow_pos steps).le
      _ = shown * slack ^ (steps + steps') := by ring
  · calc shown ≤ middle * slack ^ steps' := second.shown_le
      _ ≤ exact * slack ^ steps * slack ^ steps' :=
          mul_le_mul_of_nonneg_right first.shown_le (slack_pow_pos steps').le
      _ = exact * slack ^ (steps + steps') := by ring

theorem mul (left : Near steps exact shown) (right : Near steps' exact' shown')
    (leftNonneg : 0 ≤ exact) (rightNonneg : 0 ≤ exact') :
    Near (steps + steps') (exact * exact') (shown * shown') := by
  have leftShown := left.nonneg leftNonneg
  have rightShown := right.nonneg rightNonneg
  constructor
  · calc exact * exact' ≤ shown * slack ^ steps * (shown' * slack ^ steps') :=
          mul_le_mul left.exact_le right.exact_le rightNonneg
            (mul_nonneg leftShown (slack_pow_pos steps).le)
      _ = shown * shown' * slack ^ (steps + steps') := by ring
  · calc shown * shown' ≤ exact * slack ^ steps * (exact' * slack ^ steps') :=
          mul_le_mul left.shown_le right.shown_le rightShown
            (mul_nonneg leftNonneg (slack_pow_pos steps).le)
      _ = exact * exact' * slack ^ (steps + steps') := by ring

theorem inv (near : Near steps exact shown) (positive : 0 < exact) :
    Near steps exact⁻¹ shown⁻¹ := by
  have shownPositive := near.pos_iff.mpr positive
  constructor
  · rw [inv_mul_eq_div, le_div_iff₀ shownPositive, inv_mul_le_iff₀ positive]
    exact near.shown_le
  · rw [inv_mul_eq_div, le_div_iff₀ positive, inv_mul_le_iff₀ shownPositive]
    exact near.exact_le

theorem div (left : Near steps exact shown) (right : Near steps' exact' shown')
    (nonneg : 0 ≤ exact) (positive : 0 < exact') :
    Near (steps + steps') (exact / exact') (shown / shown') := by
  rw [div_eq_mul_inv, div_eq_mul_inv]
  exact left.mul (right.inv positive) nonneg (inv_pos.mpr positive).le

theorem add (left : Near steps exact shown) (right : Near steps exact' shown') :
    Near steps (exact + exact') (shown + shown') := by
  constructor
  · rw [add_mul]
    exact add_le_add left.exact_le right.exact_le
  · rw [add_mul]
    exact add_le_add left.shown_le right.shown_le

/-- The rounding of a few steps does not hide a whole multiple. -/
theorem multiple_iff {count : Nat} (near : Near 12 (exact * count) shown) (nonneg : 0 ≤ exact) :
    Near 12 exact shown ↔ exact = 0 ∨ count = 1 := by
  constructor
  · intro same
    rcases nonneg.eq_or_lt with none | positive
    · exact .inl none.symm
    · right
      rcases count with _ | _ | more
      · rw [Nat.cast_zero, mul_zero, zero_iff] at near
        exact absurd (same.pos_iff.mpr positive) (near ▸ lt_irrefl _)
      · rfl
      · have several : (2 : ℚ) ≤ (more + 1 + 1 : Nat) := by
          exact_mod_cast (by omega : 2 ≤ more + 1 + 1)
        have twice : exact * 2 ≤ exact * slack ^ (12 + 12) :=
          calc exact * 2 ≤ exact * (more + 1 + 1 : Nat) :=
                mul_le_mul_of_nonneg_left several nonneg
            _ ≤ shown * slack ^ 12 := near.exact_le
            _ ≤ exact * slack ^ 12 * slack ^ 12 :=
                mul_le_mul_of_nonneg_right same.shown_le (slack_pow_pos 12).le
            _ = exact * slack ^ (12 + 12) := by ring
        have large := le_of_mul_le_mul_left twice positive
        norm_num [slack] at large
  · rintro (rfl | rfl)
    · rwa [zero_mul] at near
    · rwa [Nat.cast_one, mul_one] at near

end Near

theorem near_rounded {x : ℚ} (nonneg : 0 ≤ x) : Near 1 x (rounded x) := by
  have error := abs_le.mp (abs_rounded_sub_le x)
  rw [abs_of_nonneg nonneg] at error
  constructor
  · have least : x * (1 - 1 / 2 ^ 53) ≤ rounded x := by linarith
    calc x ≤ x * ((1 - 1 / 2 ^ 53) * slack ^ 1) :=
          le_mul_of_one_le_right nonneg (by norm_num [slack])
      _ = x * (1 - 1 / 2 ^ 53) * slack ^ 1 := by ring
      _ ≤ rounded x * slack ^ 1 := mul_le_mul_of_nonneg_right least (slack_pow_pos 1).le
  · rw [slack, pow_one, mul_add]
    linarith

theorem Near.rounded {steps : Nat} {exact shown : ℚ} (near : Near steps exact shown)
    (nonneg : 0 ≤ exact) : Near (steps + 1) exact (rounded shown) :=
  near.trans (near_rounded (near.nonneg nonneg))

/-! ## Sums -/

/-- The sum as it is accumulated, rounded after every addition. -/
def sum (start : ℚ) (values : List ℚ) : ℚ :=
  values.foldl (fun total value => Binary64.rounded (total + value)) start

theorem near_sum {values : List ℚ} (nonneg : ∀ value ∈ values, 0 ≤ value) :
    ∀ {steps : Nat} {start shown : ℚ}, 0 ≤ start → Near steps start shown →
      Near (steps + values.length) (start + values.sum) (sum shown values) := by
  induction values with
  | nil =>
      intro steps start shown _ near
      simpa [sum] using near
  | cons value rest ih =>
      intro steps start shown startNonneg near
      simp only [List.forall_mem_cons] at nonneg
      have added : Near steps (start + value) (shown + value) :=
        near.add ((Near.refl value).mono nonneg.1 (Nat.zero_le _))
      have totalNonneg := add_nonneg startNonneg nonneg.1
      have later := ih nonneg.2 totalNonneg (added.rounded totalNonneg)
      have grouped : steps + (value :: rest).length = steps + 1 + rest.length := by
        rw [List.length_cons]
        omega
      rw [grouped, List.sum_cons, ← add_assoc]
      exact later

end Vpsiner.Lib.Binary64
