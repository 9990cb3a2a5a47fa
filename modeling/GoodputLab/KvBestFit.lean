import GoodputLab.KvFit
/-!
# KvBestFit — the fit is the best line (`bench/kv_scaling/measure.py`)

Of all lines the one `fitBytesPerToken` computes leaves the least squares, and no other leaves as little; its residuals
cancel and its R² lies between zero and one, so the checks of a `RegressionFit` refuse a negative slope only
(`fitBytesPerToken_best`, `fitBytesPerToken_error_iff`).  The order of the points does not matter
(`fitBytesPerToken_perm`); `fit_least_squares` is all of it.
-/
namespace GoodputLab

open LeastSquares

/-- No line leaves less of the points. -/
def BestLine (points : List (ℚ × ℚ)) (slope intercept : ℚ) : Prop :=
  ∀ a b, squares points Prod.fst Prod.snd slope intercept ≤ squares points Prod.fst Prod.snd a b

def Constant (totalTokens : List ℚ) : Prop := ∃ c, ∀ x ∈ totalTokens, x = c

/-! ## The points -/

section Points

variable {totalTokens kvBytes : List ℚ}

theorem map_fst_points (h : totalTokens.length = kvBytes.length) : (totalTokens.zip kvBytes).map Prod.fst = totalTokens :=
  List.map_fst_zip h.le

theorem map_snd_points (h : totalTokens.length = kvBytes.length) : (totalTokens.zip kvBytes).map Prod.snd = kvBytes :=
  List.map_snd_zip h.ge

theorem length_points (h : totalTokens.length = kvBytes.length) :
    (totalTokens.zip kvBytes).length = totalTokens.length := by
  rw [List.length_zip, h, min_self]

theorem points_ne_nil (h : totalTokens.length = kvBytes.length) (hn : 2 ≤ totalTokens.length) :
    totalTokens.zip kvBytes ≠ [] := by
  apply List.ne_nil_of_length_pos
  rw [length_points h]
  omega

theorem constant_iff (h : totalTokens.length = kvBytes.length) :
    Constant totalTokens ↔ cov (totalTokens.zip kvBytes) Prod.fst Prod.fst = 0 := by
  rw [cov_self_eq_zero_iff]
  apply exists_congr
  intro c
  conv_lhs => rw [← map_fst_points h]
  exact List.forall_mem_map

theorem cov_pos_of_not_constant (h : totalTokens.length = kvBytes.length) (hspread : ¬ Constant totalTokens) :
    0 < cov (totalTokens.zip kvBytes) Prod.fst Prod.fst :=
  lt_of_le_of_ne (cov_self_nonneg _ _) (fun hzero => hspread ((constant_iff h).2 hzero.symm))

/-- The fit of the points. -/
theorem fit_points (h : totalTokens.length = kvBytes.length) (hn : 2 ≤ totalTokens.length) :
    fitBytesPerToken totalTokens kvBytes =
      if cov (totalTokens.zip kvBytes) Prod.fst Prod.fst = 0 then .error .zeroVariance
      else RegressionFit.make? (slope (totalTokens.zip kvBytes) Prod.fst Prod.snd)
        (intercept (totalTokens.zip kvBytes) Prod.fst Prod.snd) (rSquared (totalTokens.zip kvBytes) Prod.fst Prod.snd)
        (residualVariance (totalTokens.zip kvBytes) Prod.fst Prod.snd) := by
  have hfit := fitBytesPerToken_eq (totalTokens.zip kvBytes) Prod.fst Prod.snd (by rw [length_points h]; exact hn)
  rwa [map_fst_points h, map_snd_points h] at hfit

end Points

/-! ## The best line -/

section Best

variable {points : List (ℚ × ℚ)} (hne : points ≠ []) (hx : 0 < cov points Prod.fst Prod.fst)

include hne hx

theorem bestLine_fit : BestLine points (slope points Prod.fst Prod.snd) (intercept points Prod.fst Prod.snd) :=
  fun a b => residual_le_squares hne Prod.snd hx a b

theorem bestLine_unique {a b : ℚ} (h : BestLine points a b) :
    a = slope points Prod.fst Prod.snd ∧ b = intercept points Prod.fst Prod.snd :=
  line_unique hne Prod.snd hx (h _ _)

end Best

theorem make?_refused {a b r2 variance : ℚ} (ha : a < 0) (hr : 0 ≤ r2 ∧ r2 ≤ 1) (hv : 0 ≤ variance) :
    RegressionFit.make? a b r2 variance = .error (.fields ["slope_bpt"]) := by
  rw [RegressionFit.make?, dif_neg (fun h => absurd h.1 (not_le.2 ha))]
  simp [refusedOf, not_le.2 ha, hr, hv]

/-- **The fit is the best line**, and only a negative slope is refused. -/
theorem fitBytesPerToken_best {totalTokens kvBytes : List ℚ} (h : totalTokens.length = kvBytes.length)
    (hn : 2 ≤ totalTokens.length) (hspread : ¬ Constant totalTokens) :
    ∃ a b r2 variance : ℚ, BestLine (totalTokens.zip kvBytes) a b ∧
      (∀ a' b', BestLine (totalTokens.zip kvBytes) a' b' → a' = a ∧ b' = b) ∧
      ((totalTokens.zip kvBytes).map (fun p => p.2 - (a * p.1 + b))).sum = 0 ∧ (0 ≤ r2 ∧ r2 ≤ 1) ∧ 0 ≤ variance ∧
      (0 ≤ a → ∃ fit, fitBytesPerToken totalTokens kvBytes = .ok fit ∧ fit.slopeBpt = a ∧ fit.interceptBytes = b ∧
        fit.r2 = r2 ∧ fit.residualVariance = variance) ∧
      (a < 0 → fitBytesPerToken totalTokens kvBytes = .error (.fields ["slope_bpt"])) := by
  have hne := points_ne_nil h hn
  have hx := cov_pos_of_not_constant h hspread
  have hfit := fit_points h hn
  rw [if_neg hx.ne'] at hfit
  have hr2 := rSquared_mem (totalTokens.zip kvBytes) Prod.snd hx
  have hvariance := residualVariance_nonneg (totalTokens.zip kvBytes) Prod.fst Prod.snd
  refine ⟨_, _, _, _, bestLine_fit hne hx, fun a' b' hbest => bestLine_unique hne hx hbest, sum_residuals hne _ _, hr2,
    hvariance, fun hslope => ?_, fun hslope => ?_⟩
  · rw [hfit]
    exact ⟨_, dif_pos ⟨hslope, hr2, hvariance⟩, rfl, rfl, rfl, rfl⟩
  · rw [hfit, make?_refused hslope hr2 hvariance]

/-- **When a fit raises.** -/
theorem fitBytesPerToken_error_iff (totalTokens kvBytes : List ℚ) :
    (∃ e, fitBytesPerToken totalTokens kvBytes = .error e) ↔
      totalTokens.length ≠ kvBytes.length ∨ totalTokens.length < 2 ∨ Constant totalTokens ∨
        ∃ a b, BestLine (totalTokens.zip kvBytes) a b ∧ a < 0 := by
  by_cases h : totalTokens.length = kvBytes.length
  · by_cases hn : totalTokens.length < 2
    · refine iff_of_true ⟨.tooFewPoints totalTokens.length, ?_⟩ (Or.inr (Or.inl hn))
      simp [fitBytesPerToken, h, h ▸ hn]
    · have hn' := not_lt.1 hn
      by_cases hspread : Constant totalTokens
      · refine iff_of_true ⟨.zeroVariance, ?_⟩ (Or.inr (Or.inr (Or.inl hspread)))
        rw [fit_points h hn', if_pos ((constant_iff h).1 hspread)]
      · obtain ⟨a, b, r2, variance, hbest, hunique, -, -, -, hok, herror⟩ := fitBytesPerToken_best h hn' hspread
        constructor
        · rintro ⟨e, he⟩
          refine Or.inr (Or.inr (Or.inr ⟨a, b, hbest, not_le.1 (fun hslope => ?_)⟩))
          obtain ⟨fit, hfit, -⟩ := hok hslope
          rw [he] at hfit
          cases hfit
        · rintro (hne | hlt | hconst | ⟨a', b', hbest', hslope⟩)
          · exact absurd h hne
          · exact absurd hlt hn
          · exact absurd hconst hspread
          · rw [(hunique a' b' hbest').1] at hslope
            exact ⟨_, herror hslope⟩
  · refine iff_of_true ⟨.lengthsDiffer, ?_⟩ (Or.inl h)
    rw [fitBytesPerToken, if_pos h]

/-- **The order of the points does not matter.** -/
theorem fitBytesPerToken_perm {totalTokens kvBytes totalTokens' kvBytes' : List ℚ}
    (h : totalTokens.length = kvBytes.length) (h' : totalTokens'.length = kvBytes'.length)
    (hperm : (totalTokens.zip kvBytes).Perm (totalTokens'.zip kvBytes')) :
    fitBytesPerToken totalTokens kvBytes = fitBytesPerToken totalTokens' kvBytes' := by
  have hlength : totalTokens.length = totalTokens'.length := by
    rw [← length_points h, ← length_points h', hperm.length_eq]
  by_cases hn : 2 ≤ totalTokens.length
  · have hvariance : residualVariance (totalTokens.zip kvBytes) Prod.fst Prod.snd =
        residualVariance (totalTokens'.zip kvBytes') Prod.fst Prod.snd := by
      rw [residualVariance, residualVariance, hperm.length_eq, residual_perm hperm]
    rw [fit_points h hn, fit_points h' (hlength ▸ hn), cov_perm hperm, slope_perm hperm, intercept_perm hperm,
      rSquared_perm hperm, hvariance]
  · have hfew : ∀ {xs ys : List ℚ}, xs.length = ys.length → ¬ 2 ≤ xs.length →
        fitBytesPerToken xs ys = .error (.tooFewPoints xs.length) := by
      intro xs ys hlen hlt
      have hlt' : ys.length < 2 := by omega
      simp [fitBytesPerToken, hlen, hlt']
    rw [hfew h hn, hfew h' (hlength ▸ hn), hlength]

/-- **The regression is the least-squares optimum.**  On points of equal number, two or more, whose tokens are not constant,
it is the best line and the only one, its residuals cancel and nothing but a negative slope is refused; it raises in the
four cases only, and does not depend on the order of the points. -/
theorem fit_least_squares (totalTokens kvBytes : List ℚ) :
    (totalTokens.length = kvBytes.length → 2 ≤ totalTokens.length → ¬ Constant totalTokens →
      ∃ a b r2 variance : ℚ, BestLine (totalTokens.zip kvBytes) a b ∧
        (∀ a' b', BestLine (totalTokens.zip kvBytes) a' b' → a' = a ∧ b' = b) ∧
        ((totalTokens.zip kvBytes).map (fun p => p.2 - (a * p.1 + b))).sum = 0 ∧ (0 ≤ r2 ∧ r2 ≤ 1) ∧ 0 ≤ variance ∧
        (0 ≤ a → ∃ fit, fitBytesPerToken totalTokens kvBytes = .ok fit ∧ fit.slopeBpt = a ∧ fit.interceptBytes = b ∧
          fit.r2 = r2 ∧ fit.residualVariance = variance) ∧
        (a < 0 → fitBytesPerToken totalTokens kvBytes = .error (.fields ["slope_bpt"]))) ∧
    ((∃ e, fitBytesPerToken totalTokens kvBytes = .error e) ↔
      totalTokens.length ≠ kvBytes.length ∨ totalTokens.length < 2 ∨ Constant totalTokens ∨
        ∃ a b, BestLine (totalTokens.zip kvBytes) a b ∧ a < 0) ∧
    ∀ totalTokens' kvBytes' : List ℚ, totalTokens.length = kvBytes.length → totalTokens'.length = kvBytes'.length →
      (totalTokens.zip kvBytes).Perm (totalTokens'.zip kvBytes') →
        fitBytesPerToken totalTokens kvBytes = fitBytesPerToken totalTokens' kvBytes' :=
  ⟨fun h hn hspread => fitBytesPerToken_best h hn hspread, fitBytesPerToken_error_iff totalTokens kvBytes,
    fun _ _ h h' hperm => fitBytesPerToken_perm h h' hperm⟩

/-- Three points that rise and do not lie on a line. -/
theorem rising_points_fit :
    ∃ a b r2 variance : ℚ, BestLine ([1, 2, 4].zip [3, 3, 7]) a b ∧
      (∀ a' b', BestLine ([1, 2, 4].zip [3, 3, 7]) a' b' → a' = a ∧ b' = b) ∧
      (([1, 2, 4].zip [3, 3, 7]).map (fun p : ℚ × ℚ => p.2 - (a * p.1 + b))).sum = 0 ∧ (0 ≤ r2 ∧ r2 ≤ 1) ∧ 0 ≤ variance ∧
      (0 ≤ a → ∃ fit, fitBytesPerToken [1, 2, 4] [3, 3, 7] = .ok fit ∧ fit.slopeBpt = a ∧ fit.interceptBytes = b ∧
        fit.r2 = r2 ∧ fit.residualVariance = variance) ∧
      (a < 0 → fitBytesPerToken [1, 2, 4] [3, 3, 7] = .error (.fields ["slope_bpt"])) := by
  apply (fit_least_squares [1, 2, 4] [3, 3, 7]).1 rfl (by decide)
  rintro ⟨c, hc⟩
  have hone := hc 1 (by decide)
  have htwo := hc 2 (by decide)
  linarith

end GoodputLab
