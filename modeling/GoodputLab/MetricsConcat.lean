import GoodputLab.Metrics
import GoodputLab.Proxy
/-!
# MetricsConcat — reading two servers through the proxy's `/metrics`

The served body is the two expositions one after the other, each under a comment, so its samples are those of both
(`samples_metrics`) and the parsed dictionary is the decode stage's over the prefill stage's (`parse_metrics`): a series
both stages expose keeps the decode value only.  A sum over the served body therefore falls short by the prefill values
of the shared series (`sumWhere_metrics`), and the readers agree with the separate readings exactly when that loses
nothing (`readers_additive_iff`).
-/
namespace GoodputLab

open Proxy (UpstreamResponse metrics fetchMetrics)

/-! ## The served body -/

def exposition (body : Text) : Except Text UpstreamResponse := .ok ⟨200, body, none⟩

theorem metrics_eq (p d : Text) :
    metrics (exposition p) (exposition d) =
      "# === [prefill] ===".toList ++ '\n' :: (p ++ '\n' :: ("# === [decode] ===".toList ++ '\n' :: d)) := by
  have hp : fetchMetrics "prefill".toList (exposition p) = "# === [prefill] ===".toList ++ '\n' :: p := rfl
  have hd : fetchMetrics "decode".toList (exposition d) = "# === [decode] ===".toList ++ '\n' :: d := rfl
  rw [metrics, hp, hd]
  simp only [List.append_assoc, List.cons_append, List.nil_append]

theorem samples_append (parser : SampleParser) (s t : Text) :
    parser.samples (s ++ '\n' :: t) = parser.samples s ++ parser.samples t := by
  rw [SampleParser.samples, Text.lines_append, List.filterMap_append]
  rfl

theorem samples_comment (parser : SampleParser) (line : Text) (hline : Text.lines line = [line])
    (hc : Text.startsWith line ['#'] = true) : parser.samples line = [] := by
  rw [SampleParser.samples, hline, List.filterMap_cons, parser.onComment line hc]
  rfl

/-- **Every sample of both stages is served**, the prefill stage's first. -/
theorem samples_metrics (parser : SampleParser) (p d : Text) :
    parser.samples (metrics (exposition p) (exposition d)) = parser.samples p ++ parser.samples d := by
  rw [metrics_eq, samples_append, samples_append, samples_append,
    samples_comment parser "# === [prefill] ===".toList rfl rfl,
    samples_comment parser "# === [decode] ===".toList rfl rfl]
  rfl

theorem samples_blank (parser : SampleParser) (text : Text) (h : Text.strip text = []) : parser.samples text = [] := by
  refine List.filterMap_eq_nil_iff.2 (fun line hline => parser.onBlank line ?_)
  exact Text.strip_eq_nil.2 (fun c hc => Text.strip_eq_nil.1 h c (Text.mem_of_mem_lines hline hc))

/-! ## The parsed dictionary -/

def assignments (parser : SampleParser) (text : Text) : List (Text × ℚ) :=
  (parser.samples text).map (fun s => (s.key, s.value))

theorem parse_eq (parser : SampleParser) (text : Text) :
    parsePrometheus parser text = OrdDict.ofList (assignments parser text) := by
  rw [parsePrometheus, assignments, OrdDict.ofList, List.foldl_map]
  split
  · rename_i h
    rw [samples_blank parser text h]
    rfl
  · rfl

/-- **The decode stage's series are assigned over the prefill stage's.** -/
theorem parse_metrics (parser : SampleParser) (p d : Text) (key : Text) :
    (parsePrometheus parser (metrics (exposition p) (exposition d))).get? key =
      ((parsePrometheus parser d).get? key).or ((parsePrometheus parser p).get? key) := by
  rw [parse_eq, parse_eq, parse_eq, assignments, samples_metrics, List.map_append, OrdDict.ofList, List.foldl_append]
  exact OrdDict.get?_foldl_set_eq (assignments parser d) _ key

/-! ## Sums -/

/-- The sum of the prefill values of the series both stages expose. -/
def lost (parser : SampleParser) (p d : Text) (passes : Text → Bool) : ℚ :=
  sumWhere (fun k => passes k && (parsePrometheus parser d).contains k) (parsePrometheus parser p)

theorem sum_filter_split {α : Type} (f : α → ℚ) (a b : α → Bool) : ∀ l : List α,
    ((l.filter a).map f).sum = ((l.filter (fun x => a x && b x)).map f).sum +
      ((l.filter (fun x => a x && !b x)).map f).sum
  | [] => by simp
  | x :: l => by
    have ih := sum_filter_split f a b l
    cases ha : a x <;> cases hb : b x <;> simp [ha, hb, ih] <;> ring

/-- **A sum over the served body lacks the lost values.** -/
theorem sumWhere_metrics (parser : SampleParser) (p d : Text) (passes : Text → Bool) :
    sumWhere passes (parsePrometheus parser (metrics (exposition p) (exposition d))) =
      sumWhere passes (parsePrometheus parser p) + sumWhere passes (parsePrometheus parser d) - lost parser p d passes := by
  have hperm := OrdDict.items_perm_override (parse_metrics parser p d)
  have hsum : sumWhere passes (parsePrometheus parser (metrics (exposition p) (exposition d))) =
      (((parsePrometheus parser p).items.filter (fun x => passes x.1 && !(parsePrometheus parser d).contains x.1)).map
        (fun x => x.2)).sum + sumWhere passes (parsePrometheus parser d) := by
    rw [sumWhere, ((hperm.filter _).map _).sum_eq, List.filter_append, List.map_append, List.sum_append, List.filter_filter]
    rfl
  have hsplit : sumWhere passes (parsePrometheus parser p) = lost parser p d passes +
      (((parsePrometheus parser p).items.filter (fun x => passes x.1 && !(parsePrometheus parser d).contains x.1)).map
        (fun x => x.2)).sum :=
    sum_filter_split (fun x : Text × ℚ => x.2) (fun x => passes x.1)
      (fun x => (parsePrometheus parser d).contains x.1) (parsePrometheus parser p).items
  rw [hsum, hsplit]
  ring

/-! ## The readers -/

def counters : List Text :=
  [vllmPromptTokensTotal, vllmGenerationTokensTotal, vllmE2eRequestLatencySecondsCount, vllmTtftSecondsCount,
    vllmRequestSuccessTotal]

def gauges : List Text := [vllmNumRequestsWaiting, vllmNumRequestsRunning]

/-- The token totals, the sums behind the request counts and the queue signal read from the served body are those of the
two stages added. -/
def ReadersAdditive (parser : SampleParser) (p d : Text) : Prop :=
  let served := metrics (exposition p) (exposition d)
  vllmTokenTotals (parsePrometheus parser served) =
      vllmTokenTotals (parsePrometheus parser p) + vllmTokenTotals (parsePrometheus parser d) ∧
    (∀ name ∈ [vllmE2eRequestLatencySecondsCount, vllmTtftSecondsCount, vllmRequestSuccessTotal],
      sumMatching (parsePrometheus parser served) name =
        sumMatching (parsePrometheus parser p) name + sumMatching (parsePrometheus parser d) name) ∧
    queueSignal parser served = queueSignal parser p + queueSignal parser d

/-- `int` cuts off an excess `e` over the whole number `t`: less than a unit, away from zero. -/
def CutOff (t : ℤ) (e : ℚ) : Prop := (0 ≤ t → e < 1) ∧ (0 < t → 0 ≤ e) ∧ (t ≤ 0 → -1 < e) ∧ (t < 0 → e ≤ 0)

theorem truncate_add_iff (t : ℤ) (e : ℚ) : truncate ((t : ℚ) + e) = t ↔ CutOff t e := by
  rw [truncate_eq_iff, CutOff]
  refine and_congr ?_ (and_congr ?_ (and_congr ?_ ?_))
  · exact imp_congr_right (fun _ => add_lt_add_iff_left _)
  · exact imp_congr_right (fun _ => le_add_iff_nonneg_right _)
  · exact imp_congr_right (fun _ => by rw [sub_eq_add_neg, add_lt_add_iff_left])
  · exact imp_congr_right (fun _ => add_le_iff_nonpos_right _)

/-- The fractions `int` cuts off of the two stages' gauges make up for what is lost of the first. -/
def GaugeKept (parser : SampleParser) (p d : Text) (name : Text) : Prop :=
  let a := sumWhere (hasName name) (parsePrometheus parser p)
  let b := sumWhere (hasName name) (parsePrometheus parser d)
  CutOff (truncate a + truncate b) (a - truncate a + (b - truncate b) - lost parser p d (hasName name))

theorem sumMatching_additive (parser : SampleParser) (p d name : Text) :
    sumMatching (parsePrometheus parser (metrics (exposition p) (exposition d))) name =
        sumMatching (parsePrometheus parser p) name + sumMatching (parsePrometheus parser d) name ↔
      lost parser p d (isSeriesOf name) = 0 := by
  unfold sumMatching
  rw [sumWhere_metrics, sub_eq_self]

theorem gauge_additive (parser : SampleParser) (p d name : Text) :
    truncate (sumWhere (hasName name) (parsePrometheus parser (metrics (exposition p) (exposition d)))) =
        truncate (sumWhere (hasName name) (parsePrometheus parser p)) +
          truncate (sumWhere (hasName name) (parsePrometheus parser d)) ↔
      GaugeKept parser p d name := by
  rw [GaugeKept, ← truncate_add_iff, sumWhere_metrics]
  push_cast
  ring_nf

/-- **The readers see both stages' sums exactly when the series both stages expose carry nothing**: the prefill values of
each counter's shared series sum to zero, and those of each gauge's are made up by the fractions cut off. -/
theorem readers_additive_iff (parser : SampleParser) (p d : Text) :
    ReadersAdditive parser p d ↔
      (∀ name ∈ counters, lost parser p d (isSeriesOf name) = 0) ∧ ∀ name ∈ gauges, GaugeKept parser p d name := by
  simp only [ReadersAdditive, vllmTokenTotals, queueSignal, counters, gauges, List.forall_mem_cons, List.not_mem_nil,
    false_implies, implies_true, and_true, Prod.mk_add_mk, Prod.mk.injEq, sumMatching_additive, gauge_additive]
  constructor
  · rintro ⟨⟨hprompt, hgen⟩, ⟨he2e, httft, hsuccess⟩, hwaiting, hrunning⟩
    exact ⟨⟨hprompt, hgen, he2e, httft, hsuccess⟩, hwaiting, hrunning⟩
  · rintro ⟨⟨hprompt, hgen, he2e, httft, hsuccess⟩, hwaiting, hrunning⟩
    exact ⟨⟨hprompt, hgen⟩, ⟨he2e, httft, hsuccess⟩, hwaiting, hrunning⟩

/-! ## Two stages of one model -/

/-- A parser of label-free lines, `name digits`. -/
def plainParser : SampleParser where
  sample := fun line =>
    if Text.startsWith line ['#'] = true ∨ Text.strip line = [] then none
    else match Text.split line with
      | [name, digits] => some ⟨name, OrdDict.empty, (digits.foldl (fun n c => 10 * n + (c.toNat - 48)) 0 : Nat)⟩
      | _              => none
  onComment := fun _ h => if_pos (Or.inl h)
  onBlank := fun _ h => if_pos (Or.inr h)

def tenPromptTokens : Text := "vllm:prompt_tokens_total 10".toList

/-- **Ten prompt tokens at each stage are read as ten.** -/
theorem shared_series_lost :
    vllmTokenTotals (parsePrometheus plainParser (metrics (exposition tenPromptTokens) (exposition tenPromptTokens))) =
        (10, 0) ∧
      vllmTokenTotals (parsePrometheus plainParser tenPromptTokens) = (10, 0) ∧
      ¬ ReadersAdditive plainParser tenPromptTokens tenPromptTokens := by
  have hserved : vllmTokenTotals
      (parsePrometheus plainParser (metrics (exposition tenPromptTokens) (exposition tenPromptTokens))) = (10, 0) := by
    decide +kernel
  have hone : vllmTokenTotals (parsePrometheus plainParser tenPromptTokens) = (10, 0) := by decide +kernel
  refine ⟨hserved, hone, fun h => ?_⟩
  have hsum := h.1
  rw [hserved, hone] at hsum
  exact absurd hsum (by decide +kernel)

end GoodputLab
