import GoodputLab.MetricsConcat
import GoodputLab.Reconcile
/-!
# ReconcileSuccess — a server that reports no success (`core/metrics.py`, `core/reconcile.py`)

`vllm_request_counts` takes the success series for missing when its sum is zero, so a server that reports zero successes of
requests that did finish is read as one where all succeeded.  `RespectsZero` says what the counts are meant to be, and
`respectsZero_iff` when they are; `zero_success_passes` is a run that the gate lets through.
-/
namespace GoodputLab

/-- The map has a sample of a series of the name. -/
def HasSeries (parsed : OrdDict Text ℚ) (name : Text) : Prop := ∃ key ∈ parsed.keys, isSeriesOf name key = true

/-- The requests the server finished: the latency count, or the first-token count where that is zero. -/
def finishedCount (parsed : OrdDict Text ℚ) : ℚ :=
  if sumMatching parsed vllmE2eRequestLatencySecondsCount = 0 then sumMatching parsed vllmTtftSecondsCount
  else sumMatching parsed vllmE2eRequestLatencySecondsCount

theorem vllmRequestCounts_eq (parsed : OrdDict Text ℚ) : vllmRequestCounts parsed =
    (if sumMatching parsed vllmRequestSuccessTotal = 0 ∧ 0 < finishedCount parsed then finishedCount parsed
      else sumMatching parsed vllmRequestSuccessTotal, finishedCount parsed) := rfl

theorem sumMatching_of_no_series {parsed : OrdDict Text ℚ} {name : Text} (h : ¬ HasSeries parsed name) :
    sumMatching parsed name = 0 := by
  have hnone : parsed.items.filter (fun x => isSeriesOf name x.1) = [] := by
    apply List.filter_eq_nil_iff.2
    intro x hx hseries
    exact h ⟨x.1, List.mem_map_of_mem hx, hseries⟩
  rw [sumMatching, sumWhere, hnone]
  rfl

/-- What the success count is meant to be: the sum of its samples where there are any, the finished requests where there are
none; and a report of zero successes does not pass a gate that a client with a success is held to. -/
structure RespectsZero (parsed : OrdDict Text ℚ) : Prop where
  reported  : HasSeries parsed vllmRequestSuccessTotal →
    (vllmRequestCounts parsed).1 = sumMatching parsed vllmRequestSuccessTotal
  fallsBack : ¬ HasSeries parsed vllmRequestSuccessTotal →
    (vllmRequestCounts parsed).1 = (vllmRequestCounts parsed).2
  rejects   : ∀ (parser : SampleParser) (text : Text) (client : List RequestTelemetry) (windowS threshold : ℚ)
    (report : ReconciliationReport), parsePrometheus parser text = parsed →
      reconcile parser client text windowS = some report → HasSeries parsed vllmRequestSuccessTotal →
      sumMatching parsed vllmRequestSuccessTotal = 0 → 1 ≤ clientSuccess client → threshold < 100 →
        report.gatePasses threshold = false

theorem reported_iff (parsed : OrdDict Text ℚ) :
    (vllmRequestCounts parsed).1 = sumMatching parsed vllmRequestSuccessTotal ↔
      sumMatching parsed vllmRequestSuccessTotal ≠ 0 ∨ finishedCount parsed ≤ 0 := by
  rw [vllmRequestCounts_eq]
  simp only
  by_cases hsum : sumMatching parsed vllmRequestSuccessTotal = 0
  · by_cases hcount : 0 < finishedCount parsed
    · rw [if_pos ⟨hsum, hcount⟩, hsum]
      refine iff_of_false hcount.ne' ?_
      rintro (h | h)
      · exact h rfl
      · exact absurd hcount (not_lt.2 h)
    · rw [if_neg (fun h => hcount h.2)]
      exact iff_of_true rfl (Or.inr (not_lt.1 hcount))
  · rw [if_neg (fun h => hsum h.1)]
    exact iff_of_true rfl (Or.inl hsum)

theorem fallsBack_iff {parsed : OrdDict Text ℚ} (h : ¬ HasSeries parsed vllmRequestSuccessTotal) :
    (vllmRequestCounts parsed).1 = (vllmRequestCounts parsed).2 ↔ 0 ≤ finishedCount parsed := by
  rw [vllmRequestCounts_eq, sumMatching_of_no_series h]
  simp only [true_and]
  by_cases hcount : 0 < finishedCount parsed
  · rw [if_pos hcount]
    exact iff_of_true rfl hcount.le
  · rw [if_neg hcount]
    constructor
    · intro heq
      exact heq.le
    · intro hle
      exact le_antisymm hle (not_lt.1 hcount)

/-- The success difference of a client with a success and a count of zero is at least a hundred percent. -/
theorem hundred_le_deltaPct {n : Nat} (h : 1 ≤ n) : 100 ≤ deltaPct n 0 := by
  have hone : (1 : ℚ) ≤ n := by exact_mod_cast h
  rw [deltaPct_zero (Nat.cast_nonneg n)]
  linarith

/-- **A success count of zero fails the gate** of a client with a success. -/
theorem gate_of_zero_success {parser : SampleParser} {text : Text} {client : List RequestTelemetry} {windowS threshold : ℚ}
    {report : ReconciliationReport} (h : reconcile parser client text windowS = some report)
    (hzero : (vllmRequestCounts (parsePrometheus parser text)).1 = 0) (hclient : 1 ≤ clientSuccess client)
    (ht : threshold < 100) : report.gatePasses threshold = false := by
  have hdelta : report.successCountDeltaPct = deltaPct (clientSuccess client) 0 := by
    unfold reconcile ReconciliationReport.make? at h
    simp only at h
    split at h
    · cases h
      simp only [hzero]
    · cases h
  rw [ReconciliationReport.gatePasses, List.all_eq_false]
  refine ⟨report.successCountDeltaPct, List.mem_cons_self, ?_⟩
  have hlarge := hundred_le_deltaPct hclient
  rw [hdelta, decide_eq_true_eq, not_le]
  linarith

/-- **Zero successes are respected exactly when** they are not taken for a missing series: a success series that is there
does not sum to zero, or nothing was finished, and without one the finished count is not negative. -/
theorem respectsZero_iff (parsed : OrdDict Text ℚ) :
    RespectsZero parsed ↔
      (HasSeries parsed vllmRequestSuccessTotal →
        sumMatching parsed vllmRequestSuccessTotal ≠ 0 ∨ finishedCount parsed ≤ 0) ∧
      (¬ HasSeries parsed vllmRequestSuccessTotal → 0 ≤ finishedCount parsed) := by
  constructor
  · intro h
    exact ⟨fun hseries => (reported_iff parsed).1 (h.reported hseries),
      fun hnone => (fallsBack_iff hnone).1 (h.fallsBack hnone)⟩
  · rintro ⟨hpresent, habsent⟩
    have hreported : HasSeries parsed vllmRequestSuccessTotal →
        (vllmRequestCounts parsed).1 = sumMatching parsed vllmRequestSuccessTotal :=
      fun hseries => (reported_iff parsed).2 (hpresent hseries)
    refine ⟨hreported, fun hnone => (fallsBack_iff hnone).2 (habsent hnone), ?_⟩
    intro parser text client windowS threshold report hparsed hreport hseries hzero hclient ht
    apply gate_of_zero_success hreport _ hclient ht
    rw [hparsed, hreported hseries, hzero]

/-! ## A run that passes -/

/-- One request finished, none of them with success. -/
def zeroSuccessText : Text :=
  "vllm:prompt_tokens_total 20\nvllm:request_success_total 0\nvllm:e2e_request_latency_seconds_count 1".toList

theorem status_200 : 100 ≤ 200 ∧ 200 ≤ 599 := by decide

/-- A request that the client counts as a success. -/
def claimedRequest : RequestTelemetry :=
  { failedRequest with statusCode := 200, error := none, statusBounds := status_200 }

/-- **The gate lets a claimed success of a server with none through.** -/
theorem zero_success_passes :
    HasSeries (parsePrometheus plainParser zeroSuccessText) vllmRequestSuccessTotal ∧
      sumMatching (parsePrometheus plainParser zeroSuccessText) vllmRequestSuccessTotal = 0 ∧
      vllmRequestCounts (parsePrometheus plainParser zeroSuccessText) = (1, 1) ∧ clientSuccess [claimedRequest] = 1 ∧
      (reconcile plainParser [claimedRequest] zeroSuccessText).map (fun report => report.gatePasses) = some true ∧
      ¬ RespectsZero (parsePrometheus plainParser zeroSuccessText) := by
  have hseries : HasSeries (parsePrometheus plainParser zeroSuccessText) vllmRequestSuccessTotal :=
    ⟨vllmRequestSuccessTotal, by decide +kernel, by decide +kernel⟩
  have hzero : sumMatching (parsePrometheus plainParser zeroSuccessText) vllmRequestSuccessTotal = 0 := by decide +kernel
  have hcounts : vllmRequestCounts (parsePrometheus plainParser zeroSuccessText) = (1, 1) := by decide +kernel
  refine ⟨hseries, hzero, hcounts, by decide +kernel, by decide +kernel, fun h => ?_⟩
  have hreported := h.reported hseries
  rw [hcounts, hzero] at hreported
  exact absurd hreported one_ne_zero

end GoodputLab
