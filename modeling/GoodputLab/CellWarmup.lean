import GoodputLab.CellRunner
/-!
# CellWarmup — whether the warmup requests are left out of a cell's figures

`cellResult` takes its figures over all the telemetries of a cell.  So they depend on the warmup requests of every cell
that has any (`warmup_left_out_iff`): one request that fails among them lowers the success rate.
-/
namespace GoodputLab
namespace CellRunner

/-! ## Success rates -/

theorem rateOf_eq_one_iff {α : Type} (p : α → Bool) {l : List α} (hl : l ≠ []) :
    rateOf p l = 1 ↔ ∀ a ∈ l, p a = true := by
  have hne : (l.length : ℚ) ≠ 0 := by exact_mod_cast List.length_pos_iff.2 hl |>.ne'
  have hempty : ¬ (l.isEmpty = true) := fun h => hl (List.isEmpty_iff.1 h)
  rw [rateOf, if_neg hempty, div_eq_one_iff_eq hne, Nat.cast_inj, List.length_filter_eq_length_iff]

theorem onePrompt_bounds : 1 ≤ 1 ∧ 1 ≤ 200000 := by decide

/-- The telemetry of a one-token request that was answered with this status. -/
def answered (status : Nat) (h : 100 ≤ status ∧ status ≤ 599) : RequestTelemetry where
  requestId := "chat-00000".toList
  promptTokens := 1
  enqueueTsNs := 0
  ttftMs := none
  perTokenTsNs := []
  completionTsNs := none
  statusCode := status
  error := none
  routedPool := none
  promptBounds := onePrompt_bounds
  statusBounds := h
  monotonic := List.Pairwise.nil

theorem status_ok : 100 ≤ 200 ∧ 200 ≤ 599 := by decide

theorem status_unavailable : 100 ≤ 503 ∧ 503 ≤ 599 := by decide

def succeeded : RequestTelemetry := answered 200 status_ok

def refused : RequestTelemetry := answered 503 status_unavailable

def idleReading : ThermalReading where
  gpuTempC := 0
  gpuUtilPct := 0
  gpuMemUsedMb := 0
  tempLe := Nat.zero_le _
  utilLe := Nat.zero_le _

theorem no_time : (0 : ℚ) ≤ 0 := le_refl 0

def measurementOf (telemetries : List RequestTelemetry) : Measurement where
  telemetries := telemetries
  thermal := idleReading
  startedAt := 0
  durationS := 0
  durationGe := no_time

/-! ## Two measurements of one cell -/

/-- Both lists have a telemetry for each request of the cell, and the same ones for its measured requests. -/
structure AgreeOnMeasured (spec : CellSpec) (ts ts' : List RequestTelemetry) : Prop where
  left     : ts.length = spec.nWarmup + spec.nMeasure
  right    : ts'.length = spec.nWarmup + spec.nMeasure
  measured : ts.drop spec.nWarmup = ts'.drop spec.nWarmup

/-- The figures a cell is judged by are the same. -/
structure SameFigures (r r' : CellResult) : Prop where
  meanTtftMs      : r.meanTtftMs = r'.meanTtftMs
  p95TtftMs       : r.p95TtftMs = r'.p95TtftMs
  meanItlMs       : r.meanItlMs = r'.meanItlMs
  successRate     : r.successRate = r'.successRate
  reconcilePasses : r.reconcilePasses = r'.reconcilePasses

theorem sameFigures_of_eq (spec : CellSpec) {m m' : Measurement} (h : m.telemetries = m'.telemetries) :
    SameFigures (cellResult spec m) (cellResult spec m') := by
  have hmetrics : aggregateMetrics m.telemetries = aggregateMetrics m'.telemetries := by rw [h]
  constructor
  · exact congrArg CellMetrics.meanTtftMs hmetrics
  · exact congrArg CellMetrics.p95TtftMs hmetrics
  · exact congrArg CellMetrics.meanItlMs hmetrics
  · exact congrArg CellMetrics.successRate hmetrics
  · exact congrArg (fun c : CellMetrics => decide (99 / 100 ≤ c.successRate)) hmetrics

theorem successRate_eq_one_iff (spec : CellSpec) (m : Measurement) (h : m.telemetries ≠ []) :
    (cellResult spec m).successRate = 1 ↔ ∀ t ∈ m.telemetries, t.statusCode = 200 := by
  rw [show (cellResult spec m).successRate = rateOf (fun t => decide (t.statusCode = 200)) m.telemetries from rfl,
    rateOf_eq_one_iff _ h]
  simp only [decide_eq_true_iff]

/-- All requests of the cell succeed, its first one apart, which this telemetry is of. -/
def onlyFirst (spec : CellSpec) (first : RequestTelemetry) : List RequestTelemetry :=
  first :: List.replicate (spec.nWarmup + spec.nMeasure - 1) succeeded

theorem onlyFirst_length (spec : CellSpec) (first : RequestTelemetry) :
    (onlyFirst spec first).length = spec.nWarmup + spec.nMeasure := by
  have hpos := spec.total_pos
  rw [onlyFirst, List.length_cons, List.length_replicate]
  omega

theorem onlyFirst_agree (spec : CellSpec) (h : 0 < spec.nWarmup) (first first' : RequestTelemetry) :
    AgreeOnMeasured spec (onlyFirst spec first) (onlyFirst spec first') := by
  refine ⟨onlyFirst_length spec first, onlyFirst_length spec first', ?_⟩
  obtain ⟨n, hn⟩ := Nat.exists_eq_succ_of_ne_zero h.ne'
  rw [hn]
  rfl

/-- **The figures are those of the measured requests exactly when the cell has no warmup requests.** -/
theorem warmup_left_out_iff (spec : CellSpec) :
    (∀ m m' : Measurement, AgreeOnMeasured spec m.telemetries m'.telemetries →
      SameFigures (cellResult spec m) (cellResult spec m')) ↔ spec.nWarmup = 0 := by
  constructor
  · intro h
    by_contra hne
    have hsame := (h (measurementOf (onlyFirst spec succeeded)) (measurementOf (onlyFirst spec refused))
      (onlyFirst_agree spec (Nat.pos_of_ne_zero hne) _ _)).successRate
    have hone : (cellResult spec (measurementOf (onlyFirst spec succeeded))).successRate = 1 := by
      rw [successRate_eq_one_iff spec _ (List.cons_ne_nil _ _)]
      intro t ht
      rcases List.mem_cons.1 ht with rfl | ht
      · rfl
      · rw [List.eq_of_mem_replicate ht]
        rfl
    rw [hone, eq_comm, successRate_eq_one_iff spec _ (List.cons_ne_nil _ _)] at hsame
    have hrefused : refused.statusCode = 200 := hsame refused List.mem_cons_self
    cases hrefused
  · intro hzero m m' hagree
    have heq := hagree.measured
    rw [hzero] at heq
    exact sameFigures_of_eq spec heq

/-! ## A refused warmup request -/

/-- The chat cell of the full matrix at one request a second. -/
def fullCell : CellSpec where
  topology := .colocated
  model := .qwen3_1_7b
  rateRps := 1
  mix := .chat
  nWarmup := 5
  nMeasure := 30
  seed := deriveSeed .colocated .qwen3_1_7b 1 .chat
  rateBounds := oneRps_bounds
  measureGe := thirty_measured

/-- **A refused warmup request fails the cell**: all thirty measured requests succeed, under both. -/
theorem refused_warmup_fails_cell :
    AgreeOnMeasured fullCell (onlyFirst fullCell succeeded) (onlyFirst fullCell refused) ∧
      (cellResult fullCell (measurementOf (onlyFirst fullCell succeeded))).reconcilePasses = true ∧
      (cellResult fullCell (measurementOf (onlyFirst fullCell refused))).reconcilePasses = false ∧
      ¬ SameFigures (cellResult fullCell (measurementOf (onlyFirst fullCell succeeded)))
        (cellResult fullCell (measurementOf (onlyFirst fullCell refused))) := by
  have hpasses : (cellResult fullCell (measurementOf (onlyFirst fullCell succeeded))).reconcilePasses = true := by
    decide +kernel
  have hfails : (cellResult fullCell (measurementOf (onlyFirst fullCell refused))).reconcilePasses = false := by
    decide +kernel
  refine ⟨onlyFirst_agree fullCell (by decide) _ _, hpasses, hfails, fun h => ?_⟩
  have hsame := h.reconcilePasses
  rw [hpasses, hfails] at hsame
  cases hsame

end CellRunner
end GoodputLab
