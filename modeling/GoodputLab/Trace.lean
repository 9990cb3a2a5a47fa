import GoodputLab.Base.Text
/-!
# Trace — the request and telemetry records (`core/trace.py`)

A record's validated bounds are fields of its structure, so an invalid one cannot be built; its `make?` is the
constructor a program calls, `none` standing for pydantic's `ValidationError`.
-/
namespace GoodputLab

inductive WorkloadType
  | chat | rag | agentic
deriving DecidableEq, Repr

inductive SloClass
  | interactive | batch
deriving DecidableEq, Repr

/-- What to send, not when. -/
structure RequestSpec where
  requestId    : Text
  sloClass     : SloClass
  workload     : WorkloadType
  promptTokens : Nat
  outputTokens : Nat
  promptText   : Text
  idNonempty   : requestId.strip ≠ []
  promptBounds : 1 ≤ promptTokens ∧ promptTokens ≤ 200000
  outputBounds : 1 ≤ outputTokens ∧ outputTokens ≤ 16000
deriving DecidableEq

def RequestSpec.make? (requestId : Text) (sloClass : SloClass) (workload : WorkloadType)
    (promptTokens outputTokens : Int) (promptText : Text) : Option RequestSpec :=
  if hi : requestId.strip ≠ [] then
    if hp : 1 ≤ promptTokens ∧ promptTokens ≤ 200000 then
      if ho : 1 ≤ outputTokens ∧ outputTokens ≤ 16000 then
        some ⟨requestId, sloClass, workload, promptTokens.toNat, outputTokens.toNat, promptText, hi,
          by omega, by omega⟩
      else none
    else none
  else none

theorem RequestSpec.make?_eq {requestId : Text} {sloClass : SloClass} {workload : WorkloadType} {p o : Int} {text : Text}
    {r : RequestSpec} (h : RequestSpec.make? requestId sloClass workload p o text = some r) :
    r.requestId = requestId ∧ r.sloClass = sloClass ∧ r.workload = workload ∧ (r.promptTokens : Int) = p ∧
      (r.outputTokens : Int) = o ∧ r.promptText = text := by
  unfold RequestSpec.make? at h
  split at h
  · split at h
    · split at h
      · rename_i hp ho
        cases h
        exact ⟨rfl, rfl, rfl, Int.toNat_of_nonneg (by omega), Int.toNat_of_nonneg (by omega), rfl⟩
      · cases h
    · cases h
  · cases h

theorem strip_ne_nil {c : Char} (s : Text) (hc : Text.isSpace c = false) : Text.strip (c :: s) ≠ [] := by
  intro h
  have hspace := Text.strip_eq_nil.1 h c List.mem_cons_self
  rw [hc] at hspace
  cases hspace

/-- A spec with an id and counts in their ranges is built. -/
theorem make?_eq (requestId : Text) (sloClass : SloClass) (workload : WorkloadType) (p o : Int) (text : Text)
    (hid : requestId.strip ≠ []) (hp : 1 ≤ p ∧ p ≤ 200000) (ho : 1 ≤ o ∧ o ≤ 16000) :
    ∃ r, RequestSpec.make? requestId sloClass workload p o text = some r ∧ (r.promptTokens : Int) = p ∧
      (r.outputTokens : Int) = o := by
  refine ⟨⟨requestId, sloClass, workload, p.toNat, o.toNat, text, hid, by omega, by omega⟩, ?_, ?_, ?_⟩
  · rw [RequestSpec.make?, dif_pos hid, dif_pos hp, dif_pos ho]
  · exact Int.toNat_of_nonneg (by omega)
  · exact Int.toNat_of_nonneg (by omega)

structure RequestTelemetry where
  requestId      : Text
  promptTokens   : Nat
  enqueueTsNs    : Nat
  ttftMs         : Option ℚ
  perTokenTsNs   : List Nat
  completionTsNs : Option Nat
  statusCode     : Nat
  error          : Option Text
  routedPool     : Option Text
  promptBounds   : 1 ≤ promptTokens ∧ promptTokens ≤ 200000
  statusBounds   : 100 ≤ statusCode ∧ statusCode ≤ 599
  monotonic      : perTokenTsNs.Pairwise (· ≤ ·)
deriving DecidableEq

inductive ArrivalProcess
  | poisson | onOff
deriving DecidableEq, Repr

structure ArrivalConfig where
  process      : ArrivalProcess
  ratePerSec   : ℚ
  seed         : Int
  onDurationS  : Option ℚ
  offDurationS : Option ℚ
  ratePos      : 0 < ratePerSec
  onPos        : onDurationS.all (fun x => decide (0 < x)) = true
  offPos       : offDurationS.all (fun x => decide (0 < x)) = true
  onOffPair    : process = .onOff → onDurationS.isSome = true ∧ offDurationS.isSome = true

def ArrivalConfig.make? (process : ArrivalProcess) (ratePerSec : ℚ) (seed : Int) (onDurationS offDurationS : Option ℚ) :
    Option ArrivalConfig :=
  if h : 0 < ratePerSec ∧ onDurationS.all (fun x => decide (0 < x)) = true ∧
      offDurationS.all (fun x => decide (0 < x)) = true ∧
      (process = .onOff → onDurationS.isSome = true ∧ offDurationS.isSome = true) then
    some ⟨process, ratePerSec, seed, onDurationS, offDurationS, h.1, h.2.1, h.2.2.1, h.2.2.2⟩
  else none

theorem ArrivalConfig.make?_eq {process : ArrivalProcess} {ratePerSec : ℚ} {seed : Int}
    {onDurationS offDurationS : Option ℚ} {arrival : ArrivalConfig}
    (h : ArrivalConfig.make? process ratePerSec seed onDurationS offDurationS = some arrival) :
    arrival.process = process ∧ arrival.ratePerSec = ratePerSec ∧ arrival.seed = seed ∧
      arrival.onDurationS = onDurationS ∧ arrival.offDurationS = offDurationS := by
  unfold ArrivalConfig.make? at h
  split at h
  · cases h
    exact ⟨rfl, rfl, rfl, rfl, rfl⟩
  · cases h

structure Trace where
  workload    : WorkloadType
  seed        : Int
  durationS   : ℚ
  arrival     : ArrivalConfig
  requests    : List RequestSpec
  durationPos : 0 < durationS

def Trace.make? (workload : WorkloadType) (seed : Int) (durationS : ℚ) (arrival : ArrivalConfig)
    (requests : List RequestSpec) : Option Trace :=
  if h : 0 < durationS then some ⟨workload, seed, durationS, arrival, requests, h⟩ else none

theorem Trace.make?_eq {workload : WorkloadType} {seed : Int} {durationS : ℚ} {arrival : ArrivalConfig}
    {requests : List RequestSpec} {t : Trace} (h : Trace.make? workload seed durationS arrival requests = some t) :
    t.durationS = durationS ∧ t.arrival = arrival ∧ t.requests = requests := by
  unfold Trace.make? at h
  split at h
  · cases h
    exact ⟨rfl, rfl, rfl⟩
  · cases h

def Trace.nRequests (t : Trace) : Nat := t.requests.length

def Trace.expectedArrivals (t : Trace) : ℚ :=
  match h : t.arrival.process with
  | .poisson => t.arrival.ratePerSec * t.durationS
  | .onOff   =>
    let onDurationS := t.arrival.onDurationS.get (t.arrival.onOffPair h).1
    let offDurationS := t.arrival.offDurationS.get (t.arrival.onOffPair h).2
    let onFrac := onDurationS / (onDurationS + offDurationS)
    t.arrival.ratePerSec * onFrac * t.durationS

end GoodputLab
