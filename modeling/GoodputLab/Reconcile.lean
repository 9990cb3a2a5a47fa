import GoodputLab.MetricsKeys
import GoodputLab.Trace
/-!
# Reconcile — the client's totals against a scrape of the server's (`core/reconcile.py`)

Four differences, each in percent of the server's value or of one, whichever is larger; the gate passes while all four
are within a threshold.  A scrape without vLLM series reads as zeros, and then the prompt token difference is a hundred
times the client's prompt tokens: at least 100 after any request, and 0 after none (`gate_without_series`).
-/
namespace GoodputLab

structure ReconciliationReport where
  successCountDeltaPct     : ℚ
  promptTokensDeltaPct     : ℚ
  completionTokensDeltaPct : ℚ
  meanTtftDeltaPct         : ℚ
  windowS                  : ℚ
  nClientRequests          : Nat
  nServerRequests          : Int
  windowPos                : 0 < windowS
  serverNonneg             : 0 ≤ nServerRequests

namespace ReconciliationReport

def deltas (r : ReconciliationReport) : List ℚ :=
  [r.successCountDeltaPct, r.promptTokensDeltaPct, r.completionTokensDeltaPct, r.meanTtftDeltaPct]

def gatePasses (r : ReconciliationReport) (threshold : ℚ := 2) : Bool := r.deltas.all (· ≤ threshold)

/-- The constructor; `none` when a field does not validate. -/
def make? (success prompt completion ttft windowS : ℚ) (nClient : Nat) (nServer : Int) : Option ReconciliationReport :=
  if h : 0 < windowS ∧ 0 ≤ nServer then some ⟨success, prompt, completion, ttft, windowS, nClient, nServer, h.1, h.2⟩
  else none

end ReconciliationReport

def deltaPct (client server : ℚ) : ℚ := |client - server| / max |server| 1 * 100

def meanTtftMs (client : List RequestTelemetry) : ℚ :=
  let vals := client.filterMap (fun r => r.ttftMs)
  if vals = [] then 0 else vals.sum / vals.length

def clientSuccess (client : List RequestTelemetry) : Nat := client.countP (fun r => r.statusCode = 200)

def clientPromptTokens (client : List RequestTelemetry) : Nat := (client.map (fun r => r.promptTokens)).sum

def clientCompletionTokens (client : List RequestTelemetry) : Nat := (client.map (fun r => r.perTokenTsNs.length)).sum

def reconcile (parser : SampleParser) (client : List RequestTelemetry) (vllmMetricsText : Text) (windowS : ℚ := 60) :
    Option ReconciliationReport :=
  let parsed := parsePrometheus parser vllmMetricsText
  let (serverPrompt, serverCompletion) := vllmTokenTotals parsed
  let (serverSuccess, serverTotal) := vllmRequestCounts parsed
  let serverMeanTtftMs := vllmMeanTtftS parsed * 1000
  ReconciliationReport.make? (deltaPct (clientSuccess client) serverSuccess) (deltaPct (clientPromptTokens client) serverPrompt)
    (deltaPct (clientCompletionTokens client) serverCompletion) (deltaPct (meanTtftMs client) serverMeanTtftMs)
    windowS client.length (truncate serverTotal)

/-! ## A scrape without vLLM series -/

def vllmSeries : List Text :=
  [vllmPromptTokensTotal, vllmGenerationTokensTotal, vllmRequestSuccessTotal, vllmE2eRequestLatencySecondsCount,
    vllmTtftSecondsSum, vllmTtftSecondsCount]

/-- No sample is kept under a key of one of the series. -/
def NoVllmSeries (parser : SampleParser) (text : Text) : Prop :=
  ∀ s ∈ parser.samples text, ∀ name ∈ vllmSeries, isSeriesOf name s.key = false

theorem sumMatching_without_series {parser : SampleParser} {text : Text} (h : NoVllmSeries parser text) {name : Text}
    (hname : name ∈ vllmSeries) : sumMatching (parsePrometheus parser text) name = 0 := by
  have hkeys : (OrdDict.lastBy Sample.key (parser.samples text)).filter (fun s => isSeriesOf name s.key) = [] := by
    refine List.filter_eq_nil_iff.2 (fun s hs => ?_)
    have hmem : s ∈ parser.samples text := (OrdDict.lastBy_perm Sample.key _).mem_iff.2 (List.mem_append_left _ hs)
    rw [h s hmem name hname]
    exact Bool.false_ne_true
  rw [sumMatching, sumWhere_parse, hkeys]
  rfl

def vllmPrefix : Text := "vllm:".toList

theorem key_startsWith {s : Sample} {p : Text} (hbrace : '{' ∉ p) (h : Text.startsWith s.key p = true) :
    Text.startsWith s.name p = true := by
  rw [Text.startsWith, List.isPrefixOf_iff_prefix] at h ⊢
  by_cases hk : s.labelKey = []
  · rwa [key_of_nil hk] at h
  · rw [key_of_ne_nil hk] at h
    rcases List.prefix_or_prefix_of_prefix h (List.prefix_append _ _) with hp | ⟨rest, rfl⟩
    · exact hp
    · rw [List.prefix_append_right_inj] at h
      cases rest with
      | nil => rw [List.append_nil]
      | cons c rest =>
        obtain ⟨rfl, -⟩ := List.cons_prefix_cons.1 h
        exact absurd (List.mem_append_right _ List.mem_cons_self) hbrace

/-- No sample of a metric of vLLM's, no vLLM series. -/
theorem noVllmSeries_of_names {parser : SampleParser} {text : Text}
    (h : ∀ s ∈ parser.samples text, Text.startsWith s.name vllmPrefix = false) : NoVllmSeries parser text := by
  intro s hs name hname
  by_contra hseries
  rw [Bool.not_eq_false, isSeriesOf, Bool.or_eq_true, decide_eq_true_eq] at hseries
  have hbegins : vllmPrefix <+: name := by
    have hall : ∀ n ∈ vllmSeries, vllmPrefix.isPrefixOf n = true := by decide +kernel
    exact List.isPrefixOf_iff_prefix.1 (hall name hname)
  have hkey : vllmPrefix <+: s.key := by
    rcases hseries with hkey | hkey
    · rwa [hkey]
    · exact (hbegins.trans (List.prefix_append _ _)).trans (List.isPrefixOf_iff_prefix.1 hkey)
  have hname' := key_startsWith (by decide +kernel) (List.isPrefixOf_iff_prefix.2 hkey)
  rw [h s hs] at hname'
  exact Bool.false_ne_true hname'

/-! ## The gate -/

theorem deltaPct_zero {x : ℚ} (h : 0 ≤ x) : deltaPct x 0 = x * 100 := by
  rw [deltaPct, sub_zero, abs_zero, max_eq_right zero_le_one, div_one, abs_of_nonneg h]

/-- **Without vLLM series** the report holds the client's own totals. -/
theorem reconcile_without_series {parser : SampleParser} {text : Text} (h : NoVllmSeries parser text)
    (client : List RequestTelemetry) {windowS : ℚ} (hw : 0 < windowS) :
    reconcile parser client text windowS =
      some ⟨clientSuccess client * 100, clientPromptTokens client * 100, clientCompletionTokens client * 100,
        |meanTtftMs client| * 100, windowS, client.length, 0, hw, le_refl 0⟩ := by
  have hzero : ∀ name ∈ vllmSeries, sumMatching (parsePrometheus parser text) name = 0 := fun _ hname =>
    sumMatching_without_series h hname
  have hnat : ∀ n : Nat, deltaPct n 0 = n * 100 := fun n => deltaPct_zero (Nat.cast_nonneg n)
  have httft : deltaPct (meanTtftMs client) 0 = |meanTtftMs client| * 100 := by
    rw [deltaPct, sub_zero, abs_zero, max_eq_right zero_le_one, div_one]
  have htokens : vllmTokenTotals (parsePrometheus parser text) = (0, 0) := by
    rw [vllmTokenTotals, hzero _ (by decide +kernel), hzero _ (by decide +kernel)]
  have hcounts : vllmRequestCounts (parsePrometheus parser text) = (0, 0) := by
    rw [vllmRequestCounts, hzero _ (by decide +kernel), hzero _ (by decide +kernel), hzero _ (by decide +kernel)]
    rfl
  have hmean : vllmMeanTtftS (parsePrometheus parser text) = 0 := by
    rw [vllmMeanTtftS, hzero vllmTtftSecondsCount (by decide +kernel)]
    exact if_pos (le_refl 0)
  have hserver : truncate (0 : ℚ) = 0 := by decide +kernel
  simp only [reconcile, htokens, hcounts, hmean, zero_mul, hnat, httft, hserver]
  rw [ReconciliationReport.make?, dif_pos ⟨hw, le_refl 0⟩]

theorem one_le_clientPromptTokens : ∀ {client : List RequestTelemetry}, client ≠ [] → 1 ≤ clientPromptTokens client
  | [], h          => absurd rfl h
  | r :: client, _ => by
    have hr := r.promptBounds.1
    rw [clientPromptTokens, List.map_cons, List.sum_cons]
    omega

/-- **The gate rejects a scrape without vLLM series exactly when a request was sent.** -/
theorem gate_without_series (parser : SampleParser) (client : List RequestTelemetry) (text : Text)
    (h : NoVllmSeries parser text) (threshold : ℚ) (ht : threshold < 100) :
    ∃ report, reconcile parser client text = some report ∧
      (report.gatePasses threshold = false ↔ client ≠ [] ∨ threshold < 0) := by
  refine ⟨_, reconcile_without_series h client (by norm_num), ?_⟩
  by_cases hc : client = []
  · subst hc
    have hdeltas : meanTtftMs [] = 0 := rfl
    simp [ReconciliationReport.gatePasses, ReconciliationReport.deltas, clientSuccess, clientPromptTokens,
      clientCompletionTokens, hdeltas]
  · refine iff_of_true ?_ (.inl hc)
    have hprompt : threshold < clientPromptTokens client * 100 := by
      have hone : (1 : ℚ) ≤ clientPromptTokens client := by exact_mod_cast one_le_clientPromptTokens hc
      linarith
    rw [ReconciliationReport.gatePasses, List.all_eq_false]
    refine ⟨clientPromptTokens client * 100, List.mem_cons_of_mem _ List.mem_cons_self, ?_⟩
    simpa using hprompt

theorem twenty_tokens : 1 ≤ 20 ∧ 20 ≤ 200000 := by decide

theorem no_timestamps : ([] : List Nat).Pairwise (· ≤ ·) := List.Pairwise.nil

theorem status_599 : 100 ≤ 599 ∧ 599 ≤ 599 := by decide

/-- A request that failed before its first token. -/
def failedRequest : RequestTelemetry :=
  { requestId := "r0".toList
    promptTokens := 20
    enqueueTsNs := 0
    ttftMs := none
    perTokenTsNs := []
    completionTsNs := none
    statusCode := 599
    error := some "ConnectError: ".toList
    routedPool := none
    promptBounds := twenty_tokens
    statusBounds := status_599
    monotonic := no_timestamps }

theorem noVllmSeries_empty : NoVllmSeries twoLineParser [] :=
  noVllmSeries_of_names (fun s (hs : s ∈ []) => absurd hs List.not_mem_nil)

theorem failed_scrape_rejected :
    NoVllmSeries twoLineParser [] ∧ (2 : ℚ) < 100 ∧
      ∃ report, reconcile twoLineParser [failedRequest] [] = some report ∧
        (report.gatePasses 2 = false ↔ [failedRequest] ≠ [] ∨ (2 : ℚ) < 0) :=
  ⟨noVllmSeries_empty, by norm_num,
    gate_without_series twoLineParser [failedRequest] [] noVllmSeries_empty 2 (by norm_num)⟩

/-- An empty scrape after an empty run passes the gate. -/
theorem empty_scrape_passes :
    NoVllmSeries twoLineParser [] ∧
      (reconcile twoLineParser [] []).map (fun report => report.gatePasses) = some true :=
  ⟨noVllmSeries_empty, by decide +kernel⟩

end GoodputLab
