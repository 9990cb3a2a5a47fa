import GoodputLab.MetricsConcat
/-!
# MetricsQueue — which samples the queue signal reads (`scripts/autoscaler_live.py`)

`queue_signal` takes every key that begins with the name of a gauge, where `_sum_matching` takes the series of that name.
Every series is among the former (`hasName_of_isSeriesOf`), so the signal is the series' sum and what the other keys add;
it is exact just when `int` cuts that off (`queueSignal_iff`), and so whenever no other key begins with the name.
-/
namespace GoodputLab

theorem hasName_of_isSeriesOf {name key : Text} (h : isSeriesOf name key = true) : hasName name key = true := by
  rw [isSeriesOf, Bool.or_eq_true, decide_eq_true_eq] at h
  rcases h with rfl | h
  · rw [hasName, Text.startsWith, List.isPrefixOf_iff_prefix]
  · rw [Text.startsWith, List.isPrefixOf_iff_prefix] at h
    rw [hasName, Text.startsWith, List.isPrefixOf_iff_prefix]
    exact (List.prefix_append _ _).trans h

/-- What the keys add that begin with the name and are of no series of it. -/
def addedByOthers (parsed : OrdDict Text ℚ) (name : Text) : ℚ :=
  sumWhere (fun k => hasName name k && !isSeriesOf name k) parsed

theorem sumWhere_hasName (parsed : OrdDict Text ℚ) (name : Text) :
    sumWhere (hasName name) parsed = sumMatching parsed name + addedByOthers parsed name := by
  have hsplit := sum_filter_split (fun x : Text × ℚ => x.2) (fun x => hasName name x.1)
    (fun x => isSeriesOf name x.1) parsed.items
  have hseries : parsed.items.filter (fun x => hasName name x.1 && isSeriesOf name x.1) =
      parsed.items.filter (fun x => isSeriesOf name x.1) := by
    apply List.filter_congr
    intro x _
    cases hx : isSeriesOf name x.1 with
    | false => rw [Bool.and_false]
    | true => rw [hasName_of_isSeriesOf hx, Bool.and_true]
  rw [hseries] at hsplit
  exact hsplit

/-- `int` cuts off what the other keys add to the gauge. -/
def OthersCutOff (parsed : OrdDict Text ℚ) (name : Text) : Prop :=
  CutOff (truncate (sumMatching parsed name))
    (sumMatching parsed name - truncate (sumMatching parsed name) + addedByOthers parsed name)

theorem gauge_iff (parsed : OrdDict Text ℚ) (name : Text) :
    truncate (sumWhere (hasName name) parsed) = truncate (sumMatching parsed name) ↔ OthersCutOff parsed name := by
  rw [OthersCutOff, ← truncate_add_iff, sumWhere_hasName]
  ring_nf

/-- Without another key that begins with the name there is nothing to cut off. -/
theorem othersCutOff_of_none {parsed : OrdDict Text ℚ} {name : Text}
    (h : ∀ key ∈ parsed.keys, hasName name key = true → isSeriesOf name key = true) : OthersCutOff parsed name := by
  have hnone : parsed.items.filter (fun x => hasName name x.1 && !isSeriesOf name x.1) = [] := by
    apply List.filter_eq_nil_iff.2
    intro x hx hboth
    rw [Bool.and_eq_true, Bool.not_eq_true'] at hboth
    rw [h x.1 (List.mem_map_of_mem hx) hboth.1] at hboth
    exact Bool.false_ne_true hboth.2.symm
  have hzero : addedByOthers parsed name = 0 := by
    rw [addedByOthers, sumWhere, hnone]
    rfl
  apply (gauge_iff parsed name).1
  rw [sumWhere_hasName, hzero, add_zero]

/-- **The queue signal reads its two metrics exactly when what other keys add to them is cut off.** -/
theorem queueSignal_iff (parser : SampleParser) (metricsText : Text) :
    queueSignal parser metricsText =
        (truncate (sumMatching (parsePrometheus parser metricsText) vllmNumRequestsWaiting),
          truncate (sumMatching (parsePrometheus parser metricsText) vllmNumRequestsRunning)) ↔
      ∀ name ∈ gauges, OthersCutOff (parsePrometheus parser metricsText) name := by
  simp only [queueSignal, gauges, Prod.mk.injEq, gauge_iff, List.forall_mem_cons, List.not_mem_nil, false_implies,
    implies_true, and_true]

def waitingByReason : Text := "vllm:num_requests_waiting_by_reason 5".toList

/-- **A metric whose name begins with a gauge's is counted as waiting.** -/
theorem waitingByReason_counted :
    queueSignal plainParser waitingByReason = (5, 0) ∧
      sumMatching (parsePrometheus plainParser waitingByReason) vllmNumRequestsWaiting = 0 ∧
      queueSignal plainParser waitingByReason ≠
        (truncate (sumMatching (parsePrometheus plainParser waitingByReason) vllmNumRequestsWaiting),
          truncate (sumMatching (parsePrometheus plainParser waitingByReason) vllmNumRequestsRunning)) := by
  decide +kernel

end GoodputLab
