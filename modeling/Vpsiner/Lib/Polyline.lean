import Mathlib.Analysis.SpecialFunctions.Integrals.Basic
import Vpsiner.Lib.Paging

/-! The piecewise linear curve through points in strict order of their abscissas, and its
area as a sum of trapezoids. -/

set_option autoImplicit false

namespace Vpsiner.Lib.Polyline

open MeasureTheory Paging

abbrev Point := ℝ × ℝ

noncomputable def segment (left right : Point) (place : ℝ) : ℝ :=
  left.2 + (place - left.1) / (right.1 - left.1) * (right.2 - left.2)

noncomputable def curve : List Point → ℝ → ℝ
  | [], _ => 0
  | [point], _ => point.2
  | left :: right :: rest, place =>
      if place ≤ right.1 then segment left right place else curve (right :: rest) place

noncomputable def area : List Point → ℝ
  | [] => 0
  | [_] => 0
  | left :: right :: rest => (left.2 + right.2) / 2 * (right.1 - left.1) + area (right :: rest)

theorem continuous_segment (left right : Point) : Continuous (segment left right) := by
  unfold segment
  fun_prop

theorem integral_segment {left right : Point} (proper : left.1 < right.1) :
    ∫ place in left.1..right.1, segment left right place =
      (left.2 + right.2) / 2 * (right.1 - left.1) := by
  have apart : right.1 - left.1 ≠ 0 := sub_ne_zero.mpr proper.ne'
  have affine : ∀ place, segment left right place =
      (left.2 - left.1 * ((right.2 - left.2) / (right.1 - left.1))) +
        (right.2 - left.2) / (right.1 - left.1) * place := by
    intro place
    rw [segment]
    field_simp
    ring
  simp only [affine]
  have slope : Continuous fun place : ℝ =>
      (right.2 - left.2) / (right.1 - left.1) * place := by fun_prop
  rw [intervalIntegral.integral_add (by simp) (slope.intervalIntegrable _ _), intervalIntegral.integral_const,
    intervalIntegral.integral_const_mul, integral_id, smul_eq_mul]
  field_simp
  ring

/-- The curve is integrable, and the area under it is that of its trapezoids. -/
theorem integral_curve (first : Point) (rest : List Point)
    (ascending : Ascending Prod.fst (first :: rest)) :
    IntervalIntegrable (curve (first :: rest)) volume first.1
        ((first :: rest).getLast (List.cons_ne_nil _ _)).1 ∧
      ∫ place in first.1..((first :: rest).getLast (List.cons_ne_nil _ _)).1,
        curve (first :: rest) place = area (first :: rest) := by
  induction rest generalizing first with
  | nil =>
      refine ⟨IntervalIntegrable.refl, ?_⟩
      rw [List.getLast_singleton, intervalIntegral.integral_same, area]
  | cons next rest ih =>
      obtain ⟨before, onward⟩ := List.pairwise_cons.mp ascending
      have proper : first.1 < next.1 := before next List.mem_cons_self
      obtain ⟨integrable, areas⟩ := ih next onward
      have ends : next.1 ≤ ((next :: rest).getLast (List.cons_ne_nil _ _)).1 :=
        Ascending.head?_le onward rfl (List.getLast_mem _)
      have leading : Set.EqOn (segment first next) (curve (first :: next :: rest))
          (Set.uIoo first.1 next.1) := by
        intro place inside
        rw [Set.uIoo_of_le proper.le] at inside
        rw [curve, if_pos inside.2.le]
      have trailing : Set.EqOn (curve (next :: rest)) (curve (first :: next :: rest))
          (Set.uIoo next.1 ((next :: rest).getLast (List.cons_ne_nil _ _)).1) := by
        intro place inside
        rw [Set.uIoo_of_le ends] at inside
        rw [curve, if_neg (not_le.mpr inside.1)]
      have segments : IntervalIntegrable (segment first next) volume first.1 next.1 :=
        (continuous_segment first next).intervalIntegrable _ _
      rw [List.getLast_cons (List.cons_ne_nil _ _)]
      refine ⟨(segments.congr_uIoo leading).trans (integrable.congr_uIoo trailing), ?_⟩
      rw [← intervalIntegral.integral_add_adjacent_intervals (segments.congr_uIoo leading)
        (integrable.congr_uIoo trailing), ← intervalIntegral.integral_congr_uIoo leading,
        ← intervalIntegral.integral_congr_uIoo trailing, integral_segment proper, areas, area]

theorem area_between {low high : ℝ} (first : Point) (rest : List Point)
    (ascending : Ascending Prod.fst (first :: rest))
    (inside : ∀ point ∈ first :: rest, low ≤ point.2 ∧ point.2 ≤ high) :
    low * (((first :: rest).getLast (List.cons_ne_nil _ _)).1 - first.1) ≤
        area (first :: rest) ∧
      area (first :: rest) ≤
        high * (((first :: rest).getLast (List.cons_ne_nil _ _)).1 - first.1) := by
  induction rest generalizing first with
  | nil => rw [area, List.getLast_singleton, sub_self, mul_zero, mul_zero, and_self]
  | cons next rest ih =>
      obtain ⟨before, onward⟩ := List.pairwise_cons.mp ascending
      have width : 0 ≤ next.1 - first.1 := sub_nonneg.mpr (before next List.mem_cons_self).le
      obtain ⟨laterLow, laterHigh⟩ := ih next onward fun point member =>
        inside point (List.mem_cons_of_mem _ member)
      obtain ⟨leftLow, leftHigh⟩ := inside first List.mem_cons_self
      obtain ⟨rightLow, rightHigh⟩ := inside next (List.mem_cons_of_mem _ List.mem_cons_self)
      have lower : low * (next.1 - first.1) ≤ (first.2 + next.2) / 2 * (next.1 - first.1) :=
        mul_le_mul_of_nonneg_right (by linarith) width
      have upper : (first.2 + next.2) / 2 * (next.1 - first.1) ≤ high * (next.1 - first.1) :=
        mul_le_mul_of_nonneg_right (by linarith) width
      rw [area, List.getLast_cons (List.cons_ne_nil _ _)]
      exact ⟨by linarith, by linarith⟩

end Vpsiner.Lib.Polyline
