import GoodputLab.CellRunner
import GoodputLab.ClientRun
import GoodputLab.RouterOrder
/-!
# Orchestrator — the dry-run campaign (`bench/orchestrator.py`, `loadgen/replay.py`)

A trace is replayed against the mock server, each request with the pool the router names for it.  The report is made from
the telemetries alone, and they hold the name of a pool but not how it was found: the reported cache hit rate counts the
telemetries that name a pool among those that do (`summary_cacheHitRate`).
-/
namespace GoodputLab

namespace Orchestrator

inductive Topology
  | colocated | chunked | disagg | disaggTier
deriving DecidableEq

structure CampaignReport where
  topology        : Topology
  nRequests       : Nat
  successRate     : ℚ
  meanTtftMs      : ℚ
  p95TtftMs       : ℚ
  meanItlMs       : ℚ
  cacheHitRate    : ℚ
  reconcilePasses : Bool
  notes           : List Text
  successBounds   : 0 ≤ successRate ∧ successRate ≤ 1
  latencyNonneg   : 0 ≤ meanTtftMs ∧ 0 ≤ p95TtftMs ∧ 0 ≤ meanItlMs
  hitBounds       : 0 ≤ cacheHitRate ∧ cacheHitRate ≤ 1

def CampaignReport.make? (topology : Topology) (nRequests : Nat)
    (successRate meanTtftMs p95TtftMs meanItlMs cacheHitRate : ℚ) (reconcilePasses : Bool) (notes : List Text) :
    Option CampaignReport :=
  if h : (0 ≤ successRate ∧ successRate ≤ 1) ∧ (0 ≤ meanTtftMs ∧ 0 ≤ p95TtftMs ∧ 0 ≤ meanItlMs) ∧
      0 ≤ cacheHitRate ∧ cacheHitRate ≤ 1 then
    some ⟨topology, nRequests, successRate, meanTtftMs, p95TtftMs, meanItlMs, cacheHitRate, reconcilePasses, notes, h.1,
      h.2.1, h.2.2⟩
  else none

/-! ## The summary -/

structure Summary where
  nRequests    : Nat
  successRate  : ℚ
  meanTtftMs   : ℚ
  p95TtftMs    : ℚ
  meanItlMs    : ℚ
  cacheHitRate : ℚ

def summary (telemetries : List RequestTelemetry) : Summary :=
  let successes := telemetries.filter (fun t => t.statusCode = 200)
  let ttftValues := successes.filterMap (fun t => t.ttftMs)
  let itl := successes.flatMap (fun t => itlValues t.perTokenTsNs)
  let routed := telemetries.filterMap (fun t => t.routedPool)
  { nRequests := telemetries.length
    successRate := rateOf (fun t => t.statusCode = 200) telemetries
    meanTtftMs := meanOrZero ttftValues
    p95TtftMs := percentile ttftValues (95 / 100)
    meanItlMs := meanOrZero itl
    cacheHitRate := (telemetries.countP (fun t => t.routedPool.isSome) : ℚ) / max routed.length 1 }

/-- **The reported rate says only whether any request was sent to a pool.** -/
theorem summary_cacheHitRate (telemetries : List RequestTelemetry) :
    (summary telemetries).cacheHitRate = if telemetries.any (fun t => t.routedPool.isSome) then 1 else 0 := by
  have hrouted : (telemetries.filterMap (fun t => t.routedPool)).length =
      telemetries.countP (fun t => t.routedPool.isSome) := List.length_filterMap_eq_countP ..
  have hany : telemetries.any (fun t => t.routedPool.isSome) = true ↔
      0 < telemetries.countP (fun t => t.routedPool.isSome) := by
    rw [List.any_eq_true, List.countP_pos_iff]
  simp only [summary, hrouted]
  by_cases hpos : 0 < telemetries.countP (fun t => t.routedPool.isSome)
  · rw [if_pos (hany.2 hpos), max_eq_left (by exact_mod_cast hpos), div_self (by exact_mod_cast hpos.ne')]
  · rw [if_neg (fun h => hpos (hany.1 h)), Nat.eq_zero_of_not_pos hpos, Nat.cast_zero, zero_div]

/-! ## A run -/

/-- The mock server: its label, and what it and the clock make of the request sent at each place. -/
structure MockVllmServer where
  label  : Text
  world  : Nat → ClientWorld
  server : Nat → Server

/-- The pool a telemetry names: a rejected request is sent all the same. -/
def routedPool (d : PoolDecision) : Text := if d.admitted then d.pool.value else "colocated".toList

variable {F : Type} [FloatArith F]

/-- The decisions of a run.  The client's semaphore is first come, first served, so the requests reach the router in the
order of the schedule. -/
def routeDecisions (sha256Hex : List UInt8 → Text) (router : Router F) (specs : List RequestSpec) : List PoolDecision :=
  router.decisions sha256Hex (specs.map .route)

def replay (sha256Hex : List UInt8 → Text) (mock : MockVllmServer) (router : Router F) (specs : List RequestSpec) :
    Option (List RequestTelemetry) :=
  (specs.zip (routeDecisions sha256Hex router specs)).zipIdx.mapM
    (fun p => VllmHttpClient.sendOne (mock.world p.2) (mock.server p.2) p.1.1 (some (routedPool p.1.2)))

def dryRunTag : Text := "[DRY-RUN]".toList

def runTopology (sha256Hex : List UInt8 → Text) (mock : MockVllmServer) (t0Ns : Int) (draws : Nat → ℚ) (fuel : Nat)
    (topology : Topology) (trace : Trace) (router : Router F) : Option CampaignReport := do
  let scheduler ← OpenLoopScheduler.make? draws fuel trace
  let telemetries ← replay sha256Hex mock router (scheduler.specs t0Ns)
  let s := summary telemetries
  let reconcilePasses := decide (99 / 100 ≤ s.successRate)
  CampaignReport.make? topology s.nRequests s.successRate s.meanTtftMs s.p95TtftMs s.meanItlMs s.cacheHitRate
    reconcilePasses [dryRunTag, "mock_vllm_label=".toList ++ mock.label]

/-- One report for each topology's trace; the readings of the clocks and the random draws are each run's own. -/
def runCampaign (sha256Hex : List UInt8 → Text) (mock : Topology → MockVllmServer) (t0Ns : Topology → Int)
    (draws : Topology → Nat → ℚ) (fuel : Nat) (traces : List (Topology × Trace)) (routerFactory : Topology → Router F) :
    Option (List CampaignReport) :=
  traces.mapM (fun p => runTopology sha256Hex (mock p.1) (t0Ns p.1) (draws p.1) fuel p.1 p.2 (routerFactory p.1))

end Orchestrator
end GoodputLab
