import GoodputLab.Base.OrdDict
import GoodputLab.Base.Rounding
import GoodputLab.Base.Text
/-!
# Metrics — reading a Prometheus exposition (`core/metrics.py`, `scripts/autoscaler_live.py`)

The exposition parser is a parameter: the sample on a line, with no sample on a comment or a blank line.  Samples are
folded into a dictionary keyed by name and labels, and the readers sum over its keys.
-/
namespace GoodputLab

structure Sample where
  name   : Text
  labels : OrdDict Text Text
  value  : ℚ

/-- What the exposition parser makes of each line. -/
structure SampleParser where
  sample    : Text → Option Sample
  onComment : ∀ line, Text.startsWith line ['#'] = true → sample line = none
  onBlank   : ∀ line, Text.strip line = [] → sample line = none

def SampleParser.samples (parser : SampleParser) (text : Text) : List Sample :=
  (Text.lines text).filterMap parser.sample

namespace Sample

def labelKey (s : Sample) : Text :=
  Text.join [','] ((s.labels.items.insertionSort (fun a b => a.1 ≤ b.1)).map (fun p => p.1 ++ ['='] ++ p.2))

def key (s : Sample) : Text :=
  if s.labelKey = [] then s.name else s.name ++ ['{'] ++ s.labelKey ++ ['}']

end Sample

def parsePrometheus (parser : SampleParser) (text : Text) : OrdDict Text ℚ :=
  if Text.strip text = [] then OrdDict.empty
  else (parser.samples text).foldl (fun out s => out.set s.key s.value) OrdDict.empty

/-! ## Readers -/

def vllmPromptTokensTotal : Text := "vllm:prompt_tokens_total".toList

def vllmGenerationTokensTotal : Text := "vllm:generation_tokens_total".toList

def vllmRequestSuccessTotal : Text := "vllm:request_success_total".toList

def vllmE2eRequestLatencySecondsCount : Text := "vllm:e2e_request_latency_seconds_count".toList

def vllmTtftSecondsSum : Text := "vllm:time_to_first_token_seconds_sum".toList

def vllmTtftSecondsCount : Text := "vllm:time_to_first_token_seconds_count".toList

def vllmNumRequestsWaiting : Text := "vllm:num_requests_waiting".toList

def vllmNumRequestsRunning : Text := "vllm:num_requests_running".toList

def sumWhere (passes : Text → Bool) (parsed : OrdDict Text ℚ) : ℚ :=
  ((parsed.items.filter (fun p => passes p.1)).map (fun p => p.2)).sum

def isSeriesOf (name key : Text) : Bool := key = name || key.startsWith (name ++ ['{'])

def sumMatching (parsed : OrdDict Text ℚ) (name : Text) : ℚ := sumWhere (isSeriesOf name) parsed

def vllmTokenTotals (parsed : OrdDict Text ℚ) : ℚ × ℚ :=
  (sumMatching parsed vllmPromptTokensTotal, sumMatching parsed vllmGenerationTokensTotal)

def vllmRequestCounts (parsed : OrdDict Text ℚ) : ℚ × ℚ :=
  let e2e := sumMatching parsed vllmE2eRequestLatencySecondsCount
  let total := if e2e = 0 then sumMatching parsed vllmTtftSecondsCount else e2e
  let success := sumMatching parsed vllmRequestSuccessTotal
  (if success = 0 ∧ 0 < total then total else success, total)

def vllmMeanTtftS (parsed : OrdDict Text ℚ) : ℚ :=
  let s := sumMatching parsed vllmTtftSecondsSum
  let c := sumMatching parsed vllmTtftSecondsCount
  if c ≤ 0 then 0 else s / c

def hasName (name key : Text) : Bool := key.startsWith name

def queueSignal (parser : SampleParser) (metricsText : Text) : Int × Int :=
  let parsed := parsePrometheus parser metricsText
  (truncate (sumWhere (hasName vllmNumRequestsWaiting) parsed), truncate (sumWhere (hasName vllmNumRequestsRunning) parsed))

end GoodputLab
