import Mathlib
/-!
# DutyCycle — windows that open once in a period

A window of width `w` opens at each multiple of a period `c`, and a cut at `d` ends the last of them.  `sum_windows` is the
closed form of what the cut leaves, `volume_windows` says that it is the measure of the windows up to the cut, and
`share_iff` when the share `w / c` of the whole is as much.
-/
namespace DutyCycle

/-! ## The sum of the cut windows -/

section Sum

variable {K : Type} [Field K] [LinearOrder K] [IsStrictOrderedRing K] [FloorSemiring K] {c w d : K}

theorem mul_floor_le (hc : 0 < c) (hd : 0 ≤ d) : ⌊d / c⌋₊ * c ≤ d :=
  (le_div_iff₀ hc).1 (Nat.floor_le (div_nonneg hd hc.le))

theorem lt_succ_floor_mul (hc : 0 < c) : d < (⌊d / c⌋₊ + 1) * c :=
  (div_lt_iff₀ hc).1 (Nat.lt_floor_add_one _)

/-- A window with a whole period before the cut is whole. -/
theorem window_whole (hc : 0 < c) (hw : w ≤ c) (hd : 0 ≤ d) {k : ℕ} (hk : k < ⌊d / c⌋₊) : min w (d - k * c) = w := by
  apply min_eq_left
  have hsucc : ((k + 1 : ℕ) : K) * c ≤ ⌊d / c⌋₊ * c := by
    apply mul_le_mul_of_nonneg_right _ hc.le
    exact_mod_cast Nat.succ_le_of_lt hk
  have hle := mul_floor_le hc hd
  push_cast at hsucc
  linarith

/-- **What the cut leaves of the windows.** -/
theorem sum_windows (hc : 0 < c) (h0 : 0 ≤ w) (hw : w ≤ c) (hd : 0 ≤ d) :
    ∑ k ∈ Finset.range ⌈d / c⌉₊, min w (d - k * c) = ⌊d / c⌋₊ * w + min w (d - ⌊d / c⌋₊ * c) := by
  have hwhole : ∑ k ∈ Finset.range ⌊d / c⌋₊, min w (d - k * c) = ⌊d / c⌋₊ * w := by
    rw [Finset.sum_congr rfl (fun k hk => window_whole hc hw hd (Finset.mem_range.1 hk)), Finset.sum_const,
      Finset.card_range, nsmul_eq_mul]
  have hle := mul_floor_le hc hd
  rcases (sub_nonneg.2 hle).eq_or_lt with hzero | hopen
  · -- the cut is at a period's end
    have hq : d / c = ⌊d / c⌋₊ := by
      rw [div_eq_iff hc.ne']
      linarith
    have hceil : ⌈d / c⌉₊ = ⌊d / c⌋₊ := by
      rw [hq, Nat.ceil_natCast, Nat.floor_natCast]
    rw [hceil, hwhole, ← hzero, min_eq_right h0, add_zero]
  · have hceil : ⌈d / c⌉₊ = ⌊d / c⌋₊ + 1 := by
      apply le_antisymm (Nat.ceil_le_floor_add_one _)
      apply Nat.succ_le_of_lt
      rw [Nat.lt_ceil, lt_div_iff₀ hc]
      linarith
    rw [hceil, Finset.sum_range_succ, hwhole]

/-- **The share of the whole is what the cut leaves** just when the cut is at a period's end. -/
theorem share_iff (hc : 0 < c) (h0 : 0 < w) (hw : w < c) (hd : 0 ≤ d) :
    w / c * d = ∑ k ∈ Finset.range ⌈d / c⌉₊, min w (d - k * c) ↔ ∃ n : ℕ, d = n * c := by
  have hle := mul_floor_le hc hd
  have hlt := lt_succ_floor_mul (d := d) hc
  rw [sum_windows hc h0.le hw.le hd]
  generalize ⌊d / c⌋₊ = q at hle hlt ⊢
  have hshare : w / c * d = q * w + w / c * (d - q * c) := by
    field_simp
    ring
  have hfrac : w / c < 1 := (div_lt_one hc).2 hw
  have hpart : 0 < w / c := div_pos h0 hc
  constructor
  · intro h
    refine ⟨q, ?_⟩
    by_contra hne
    have hopen : 0 < d - q * c := sub_pos.2 (lt_of_le_of_ne hle (Ne.symm hne))
    have hmore : w / c * (d - q * c) < min w (d - q * c) := by
      apply lt_min
      · rw [div_mul_eq_mul_div, div_lt_iff₀ hc]
        exact mul_lt_mul_of_pos_left (by linarith) h0
      · exact mul_lt_of_lt_one_left hopen hfrac
    linarith
  · rintro ⟨n, rfl⟩
    have hq : (q : K) = n := by
      have h₁ : q ≤ n := by exact_mod_cast (mul_le_mul_iff_of_pos_right hc).1 hle
      have h₂ : n < q + 1 := by exact_mod_cast (mul_lt_mul_iff_of_pos_right hc).1 hlt
      exact_mod_cast le_antisymm h₁ (Nat.lt_succ_iff.1 h₂)
    rw [hshare, hq, sub_self, mul_zero, min_eq_right h0.le]

end Sum

/-! ## The measure of the cut windows -/

section Measure

open MeasureTheory

variable {c w d : ℝ}

/-- The window that opens at `k` periods, up to the cut. -/
def window (c w d : ℝ) (k : ℕ) : Set ℝ := Set.Ico (k * c) (k * c + w) ∩ Set.Icc 0 d

theorem volume_window (hc : 0 ≤ c) (k : ℕ) : volume (window c w d k) = ENNReal.ofReal (min w (d - k * c)) := by
  have hstart : 0 ≤ k * c := mul_nonneg (Nat.cast_nonneg k) hc
  have hend : min (k * c + w) d - k * c = min w (d - k * c) := by
    rw [← min_sub_sub_right, add_sub_cancel_left]
  rw [← hend]
  apply le_antisymm
  · rw [← Real.volume_Icc]
    apply measure_mono
    rintro x ⟨⟨hlo, hhi⟩, -, hcut⟩
    exact ⟨hlo, le_min hhi.le hcut⟩
  · rw [← Real.volume_Ioo]
    apply measure_mono
    rintro x ⟨hlo, hhi⟩
    obtain ⟨hwin, hcut⟩ := lt_min_iff.1 hhi
    exact ⟨⟨hlo.le, hwin⟩, hstart.trans hlo.le, hcut.le⟩

theorem windows_disjoint (hc : 0 ≤ c) (hw : w ≤ c) : Pairwise (Function.onFun Disjoint (window c w d)) := by
  have hlater : ∀ j k : ℕ, j < k → Disjoint (window c w d j) (window c w d k) := by
    intro j k hjk
    apply Set.disjoint_left.2
    rintro x ⟨⟨-, hhi⟩, -⟩ ⟨⟨hlo, -⟩, -⟩
    have hsucc : ((j + 1 : ℕ) : ℝ) * c ≤ k * c := by
      apply mul_le_mul_of_nonneg_right _ hc
      exact_mod_cast Nat.succ_le_of_lt hjk
    push_cast at hsucc
    linarith
  intro j k hjk
  rcases Nat.lt_or_gt_of_ne hjk with h | h
  · exact hlater j k h
  · exact (hlater k j h).symm

/-- **The measure of the windows up to the cut.** -/
theorem volume_windows (hc : 0 < c) (h0 : 0 ≤ w) (hw : w ≤ c) :
    volume (⋃ k, window c w d k) = ENNReal.ofReal (∑ k ∈ Finset.range ⌈d / c⌉₊, min w (d - k * c)) := by
  rw [measure_iUnion (windows_disjoint hc.le hw) (fun k => measurableSet_Ico.inter measurableSet_Icc)]
  simp only [volume_window hc.le]
  have hlate : ∀ k ∉ Finset.range ⌈d / c⌉₊, ENNReal.ofReal (min w (d - k * c)) = 0 := by
    intro k hk
    rw [Finset.mem_range, Nat.lt_ceil, lt_div_iff₀ hc] at hk
    exact ENNReal.ofReal_of_nonpos ((min_le_right _ _).trans (by linarith))
  rw [tsum_eq_sum hlate, ENNReal.ofReal_sum_of_nonneg]
  intro k hk
  rw [Finset.mem_range, Nat.lt_ceil, lt_div_iff₀ hc] at hk
  exact le_min h0 (by linarith)

end Measure

end DutyCycle
