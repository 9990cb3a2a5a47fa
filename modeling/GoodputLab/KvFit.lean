import GoodputLab.Base.LeastSquares
import GoodputLab.KvCell
/-!
# KvFit — the regression, its gate and the knee (`bench/kv_scaling/measure.py`, `bench/kv_scaling/schema.py`)

In exact arithmetic `fitBytesPerToken` is the least-squares line, and it returns one whenever its slope is not negative:
the checks of a `RegressionFit` refuse nothing else it computes (`fitBytesPerToken_ok`).
-/
namespace GoodputLab

inductive FitError
  | lengthsDiffer
  | tooFewPoints (n : Nat)
  | zeroVariance
  | zeroDivision
  | fields (refused : List String)
  | injectedBpt (got : Int)
  | slopeOutside (slope lo hi : ℚ)
  | r2Below (r2 : ℚ)
  | baselineBytes (got : Int)
  | noCells
  | neverReached
deriving DecidableEq

/-! ## The regression -/

/-- `residualVariance` is the square of `residual_se`. -/
structure RegressionFit where
  slopeBpt         : ℚ
  interceptBytes   : ℚ
  r2               : ℚ
  residualVariance : ℚ
  slopeNonneg      : 0 ≤ slopeBpt
  r2Bounds         : 0 ≤ r2 ∧ r2 ≤ 1
  residualNonneg   : 0 ≤ residualVariance

def RegressionFit.make? (slope intercept r2 residualVariance : ℚ) : Except FitError RegressionFit :=
  if h : 0 ≤ slope ∧ (0 ≤ r2 ∧ r2 ≤ 1) ∧ 0 ≤ residualVariance then
    .ok ⟨slope, intercept, r2, residualVariance, h.1, h.2.1, h.2.2⟩
  else .error (.fields (refusedOf [("slope_bpt", decide (0 ≤ slope)), ("r2", decide (0 ≤ r2 ∧ r2 ≤ 1)),
    ("residual_se", decide (0 ≤ residualVariance))]))

def fitBytesPerToken (totalTokens kvBytes : List ℚ) : Except FitError RegressionFit :=
  if totalTokens.length ≠ kvBytes.length then .error .lengthsDiffer
  else
    let n := totalTokens.length
    if n < 2 then .error (.tooFewPoints n)
    else
      let meanX := totalTokens.sum / n
      let meanY := kvBytes.sum / n
      let sxx := (totalTokens.map (fun x => (x - meanX) ^ 2)).sum
      if sxx = 0 then .error .zeroVariance
      else
        let points := totalTokens.zip kvBytes
        let sxy := (points.map (fun p => (p.1 - meanX) * (p.2 - meanY))).sum
        let slope := sxy / sxx
        let intercept := meanY - slope * meanX
        let sse := (points.map (fun p => (p.2 - (slope * p.1 + intercept)) ^ 2)).sum
        let sst := (kvBytes.map (fun y => (y - meanY) ^ 2)).sum
        let r2 := if 0 < sst then 1 - sse / sst else 0
        let residualVariance := if 2 < n then sse / ((n : ℚ) - 2) else 0
        RegressionFit.make? slope intercept r2 residualVariance

section Fit

open LeastSquares

variable {ι : Type}

/-- The variance of the residuals, none of two points. -/
def residualVariance (l : List ι) (x y : ι → ℚ) : ℚ := if 2 < l.length then residual l x y / ((l.length : ℚ) - 2) else 0

theorem residualVariance_nonneg (l : List ι) (x y : ι → ℚ) : 0 ≤ residualVariance l x y := by
  unfold residualVariance
  split
  · rename_i hn
    have hn' : (2 : ℚ) < l.length := by exact_mod_cast hn
    exact div_nonneg (residual_nonneg l x y) (by linarith)
  · exact le_refl 0

/-- **A fit of two points or more is the least-squares line, when the first family spreads.** -/
theorem fitBytesPerToken_eq (l : List ι) (x y : ι → ℚ) (hl : 2 ≤ l.length) :
    fitBytesPerToken (l.map x) (l.map y) = if cov l x x = 0 then .error .zeroVariance
      else RegressionFit.make? (slope l x y) (intercept l x y) (rSquared l x y) (residualVariance l x y) := by
  have hsq : ∀ z : ι → ℚ, (l.map (fun i => (z i - avg l z) ^ 2)).sum = cov l z z := by
    intro z
    unfold cov
    simp only [sq]
  have hzip : (l.map x).zip (l.map y) = l.map (fun i => (x i, y i)) := by
    rw [← List.zip_map']
  unfold fitBytesPerToken
  simp only [List.length_map, ne_eq, not_true_eq_false, if_false, List.map_map, hzip]
  have hxx : (l.map ((fun z => (z - (l.map x).sum / l.length) ^ 2) ∘ x)).sum = cov l x x := hsq x
  have hyy : (l.map ((fun z => (z - (l.map y).sum / l.length) ^ 2) ∘ y)).sum = cov l y y := hsq y
  have hxy : (l.map ((fun p => (p.1 - (l.map x).sum / l.length) * (p.2 - (l.map y).sum / l.length)) ∘
      fun i => (x i, y i))).sum = cov l x y := rfl
  rw [if_neg (by omega), hxx, hyy, hxy]
  rfl

/-- **A fit with two points, a spread and a slope that is not negative is the least-squares line.** -/
theorem fitBytesPerToken_ok (l : List ι) (x y : ι → ℚ) (hl : 2 ≤ l.length) (hx : 0 < cov l x x)
    (hslope : 0 ≤ slope l x y) :
    ∃ fit, fitBytesPerToken (l.map x) (l.map y) = .ok fit ∧ fit.slopeBpt = slope l x y ∧ fit.r2 = rSquared l x y := by
  refine ⟨⟨slope l x y, intercept l x y, rSquared l x y, residualVariance l x y, hslope, rSquared_mem l y hx,
    residualVariance_nonneg l x y⟩, ?_, rfl, rfl⟩
  rw [fitBytesPerToken_eq l x y hl, if_neg hx.ne']
  exact dif_pos ⟨hslope, rSquared_mem l y hx, residualVariance_nonneg l x y⟩

/-- **A fit that returns has a spread, and its slope and R² are those of the least-squares line.** -/
theorem fitBytesPerToken_spec {l : List ι} {x y : ι → ℚ} (hl : 2 ≤ l.length) {fit : RegressionFit}
    (h : fitBytesPerToken (l.map x) (l.map y) = .ok fit) :
    0 < cov l x x ∧ fit.slopeBpt = slope l x y ∧ fit.r2 = rSquared l x y := by
  rw [fitBytesPerToken_eq l x y hl] at h
  split at h
  · cases h
  · rename_i hne
    have hx := lt_of_le_of_ne (cov_self_nonneg l x) (Ne.symm hne)
    unfold RegressionFit.make? at h
    split at h
    · cases h
      exact ⟨hx, rfl, rfl⟩
    · cases h

end Fit

/-! ## The gate -/

def dryRunMinR2 : ℚ := 98 / 100

def checkDryRunGate (regression : RegressionFit) (injectedBpt blockSize minSeqLen : Int) : Except FitError Unit :=
  if injectedBpt ≤ 0 then .error (.injectedBpt injectedBpt)
  else if minSeqLen = 0 then .error .zeroDivision
  else
    let lo : ℚ := injectedBpt * (999 / 1000)
    let hi : ℚ := injectedBpt * (1 + (blockSize : ℚ) / minSeqLen)
    if ¬ (lo ≤ regression.slopeBpt ∧ regression.slopeBpt ≤ hi) then .error (.slopeOutside regression.slopeBpt lo hi)
    else if regression.r2 < dryRunMinR2 then .error (.r2Below regression.r2)
    else .ok ()

/-! ## The knee -/

/-- No batch size means that the curves were pooled. -/
structure KneePoint where
  totalTokens : Int
  kvShare     : ℚ
  batchSize   : Option Int
  tokensPos   : 0 < totalTokens
  shareBounds : 0 ≤ kvShare ∧ kvShare ≤ 1
  batchPos    : batchSize.all (fun b => decide (0 < b)) = true

def KneePoint.make? (totalTokens : Int) (kvShare : ℚ) (batchSize : Option Int) : Except FitError KneePoint :=
  if h : 0 < totalTokens ∧ (0 ≤ kvShare ∧ kvShare ≤ 1) ∧ batchSize.all (fun b => decide (0 < b)) = true then
    .ok ⟨totalTokens, kvShare, batchSize, h.1, h.2.1, h.2.2⟩
  else .error (.fields (refusedOf [("total_tokens", decide (0 < totalTokens)),
    ("kv_share", decide (0 ≤ kvShare ∧ kvShare ≤ 1)), ("batch_size", batchSize.all (fun b => decide (0 < b)))]))

/-- The first of the cells whose KV share reaches one half. -/
def firstKnee (baselineBytes : Int) : List KvScalingCell → Except FitError KneePoint
  | []            => .error .neverReached
  | cell :: cells =>
    let total : ℚ := baselineBytes + cell.p50Bytes
    if total = 0 then .error .zeroDivision
    else
      let share := cell.p50Bytes / total
      if 1 / 2 ≤ share then KneePoint.make? cell.totalTokens share (some cell.batchSize)
      else firstKnee baselineBytes cells

def findKnee (cells : List KvScalingCell) (baselineBytes : Int) : Except FitError KneePoint :=
  if baselineBytes < 0 then .error (.baselineBytes baselineBytes)
  else
    let ordered := cells.mergeSort (fun a b => decide (a.totalTokens ≤ b.totalTokens))
    if ordered = [] then .error .noCells else firstKnee baselineBytes ordered

end GoodputLab
