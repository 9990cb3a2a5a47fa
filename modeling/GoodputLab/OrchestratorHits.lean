import GoodputLab.Orchestrator
/-!
# OrchestratorHits — the reported cache hit rate and the router's

Every telemetry of a run names a pool, so the report of a run that sent anything says that every lookup was a hit
(`runTopology_cacheHitRate`).  The router's lookups are all hits exactly when each request's entry is there and open before
the run begins, because a hit changes nothing but the order of the cache (`all_hits_iff`); so that is when the report is
right (`cacheHitRate_iff`).
-/
namespace GoodputLab
namespace Router

variable {F : Type} [FloatArith F]

/-- The entry cached under the request's key names an open pool. -/
def HasOpenEntry (sha256Hex : List UInt8 → Text) (r : Router F) (spec : RequestSpec) : Prop :=
  ∃ q t, r.prefixCache.get? (r.lookupKey sha256Hex spec) = some q ∧ r.IsOpen spec q t

/-- **Looking at an entry takes no request's away.** -/
theorem hasOpenEntry_touched (sha256Hex : List UInt8 → Text) (r : Router F) (key : Text) (spec : RequestSpec) :
    (r.touched key).HasOpenEntry sha256Hex spec ↔ r.HasOpenEntry sha256Hex spec := by
  have hlookup : (r.touched key).lookupKey sha256Hex spec = r.lookupKey sha256Hex spec := rfl
  unfold HasOpenEntry
  rw [hlookup, touched, OrdDict.get?_moveToEnd]
  exact Iff.rfl

theorem route_reason_iff (sha256Hex : List UInt8 → Text) (r : Router F) (spec : RequestSpec) :
    (r.route sha256Hex spec).1.reason = .cacheHit ↔ r.HasOpenEntry sha256Hex spec := by
  rcases route_eq sha256Hex r spec with ⟨hempty, hd⟩ | ⟨q, t, hc, ho, hd⟩ | ⟨hno, hd⟩
  · rw [hd]
    refine iff_of_false (fun h => by cases h) ?_
    rintro ⟨q, t, -, ho⟩
    have hmem := (OrdDict.mem_items _ _ _).2 ho.1
    rw [hempty] at hmem
    cases hmem
  · rw [hd]
    exact iff_of_true rfl ⟨q, t, hc, ho⟩
  · rw [hd]
    refine iff_of_false (fun h => ?_) (fun ⟨q, t, hc, ho⟩ => hno q t hc ho)
    cases hsel : r.selectAdmissible spec <;> rw [hsel] at h <;> cases h

theorem route_hit_state (sha256Hex : List UInt8 → Text) (r : Router F) (spec : RequestSpec)
    (h : r.HasOpenEntry sha256Hex spec) : (r.route sha256Hex spec).2 = r.touched (r.lookupKey sha256Hex spec) := by
  obtain ⟨q, t, hc, ho⟩ := h
  rw [route_hit sha256Hex r spec q t hc ho]

/-- **All the lookups of a run are hits exactly when all the entries are there before it.** -/
theorem all_hits_iff (sha256Hex : List UInt8 → Text) : ∀ (specs : List RequestSpec) (r : Router F),
    (∀ d ∈ r.decisions sha256Hex (specs.map .route), d.reason = .cacheHit) ↔
      ∀ spec ∈ specs, r.HasOpenEntry sha256Hex spec
  | [], r => by simp [decisions, Runs.log]
  | spec :: specs, r => by
    have hcons : r.decisions sha256Hex ((spec :: specs).map .route) =
        (r.route sha256Hex spec).1 :: (r.route sha256Hex spec).2.decisions sha256Hex (specs.map .route) := rfl
    rw [hcons, List.forall_mem_cons, List.forall_mem_cons, route_reason_iff, all_hits_iff sha256Hex specs]
    refine and_congr_right (fun hopen => forall_congr' (fun later => imp_congr_right (fun _ => ?_)))
    rw [route_hit_state sha256Hex r spec hopen, hasOpenEntry_touched]

theorem length_decisions (sha256Hex : List UInt8 → Text) : ∀ (specs : List RequestSpec) (r : Router F),
    (r.decisions sha256Hex (specs.map .route)).length = specs.length
  | [], _ => rfl
  | spec :: specs, r => congrArg (· + 1) (length_decisions sha256Hex specs (r.route sha256Hex spec).2)

end Router

namespace Orchestrator

/-! ## The telemetries -/

theorem sendOne_routedPool {w : ClientWorld} {server : Server} {spec : RequestSpec} {routedPool : Option Text}
    {tel : RequestTelemetry} (h : VllmHttpClient.sendOne w server spec routedPool = some tel) :
    tel.routedPool = routedPool := by
  have htel : ∀ {enqueueTs : Nat} {events : List TokenEvent} {completionTs : Option Nat} {status : Nat}
      {error : Option Text}, VllmHttpClient.telemetry spec enqueueTs events completionTs status error routedPool = some tel →
      tel.routedPool = routedPool := by
    intro enqueueTs events completionTs status error htel
    unfold VllmHttpClient.telemetry at htel
    simp only at htel
    split at htel
    · cases htel
      rfl
    · cases htel
  unfold VllmHttpClient.sendOne at h
  simp only at h
  split at h
  · exact htel h
  · split at h
    · split at h <;> exact htel h
    · split at h <;> exact htel h

variable {F : Type} [FloatArith F] {sha256Hex : List UInt8 → Text} {mock : MockVllmServer} {router : Router F}

/-- **Every telemetry names a pool**, and there is one for each request. -/
theorem replay_routed {specs : List RequestSpec} {telemetries : List RequestTelemetry}
    (h : replay sha256Hex mock router specs = some telemetries) :
    telemetries.length = specs.length ∧ ∀ t ∈ telemetries, t.routedPool.isSome = true := by
  have hall := (Collect.mapM_eq_some_iff _ _ _).1 h
  refine ⟨?_, fun t ht => ?_⟩
  · rw [← hall.length_eq, List.length_zipIdx, List.length_zip, routeDecisions, Router.length_decisions, Nat.min_self]
  · obtain ⟨p, -, hp⟩ := Collect.exists_of_mem_right h ht
    rw [sendOne_routedPool hp]
    rfl

/-! ## The report -/

variable {t0Ns : Int} {draws : Nat → ℚ} {fuel : Nat} {topology : Topology} {trace : Trace} {report : CampaignReport}
  {s : OpenLoopScheduler}

theorem runTopology_report (hs : OpenLoopScheduler.make? draws fuel trace = some s)
    (h : runTopology sha256Hex mock t0Ns draws fuel topology trace router = some report) :
    ∃ telemetries, replay sha256Hex mock router (s.specs t0Ns) = some telemetries ∧
      report.nRequests = telemetries.length ∧ report.cacheHitRate = (summary telemetries).cacheHitRate := by
  unfold runTopology at h
  rw [hs, Option.bind_eq_bind, Option.bind_some, Option.bind_eq_bind, Option.bind_eq_some_iff] at h
  obtain ⟨telemetries, hreplay, h⟩ := h
  refine ⟨telemetries, hreplay, ?_⟩
  unfold CampaignReport.make? at h
  simp only at h
  split at h
  · cases h
    exact ⟨rfl, rfl⟩
  · cases h

/-- **The report of a run that sent anything says that every lookup was a hit.** -/
theorem runTopology_cacheHitRate (hs : OpenLoopScheduler.make? draws fuel trace = some s)
    (h : runTopology sha256Hex mock t0Ns draws fuel topology trace router = some report) :
    report.nRequests = (s.specs t0Ns).length ∧ report.cacheHitRate = if report.nRequests = 0 then 0 else 1 := by
  obtain ⟨telemetries, hreplay, hn, hrate⟩ := runTopology_report hs h
  obtain ⟨hlen, hrouted⟩ := replay_routed hreplay
  refine ⟨hn.trans hlen, ?_⟩
  rw [hrate, summary_cacheHitRate, hn]
  cases telemetries with
  | nil => rfl
  | cons t ts =>
    rw [List.any_cons, hrouted t List.mem_cons_self, Bool.true_or, if_pos rfl, List.length_cons,
      if_neg (Nat.succ_ne_zero _)]

/-- The share of the requests that the router found in its cache. -/
def hitRate (decisions : List PoolDecision) (nRequests : Nat) : ℚ :=
  if nRequests = 0 then 0 else (decisions.countP (fun d => d.reason = .cacheHit) : ℚ) / nRequests

theorem hitRate_eq_one_iff {decisions : List PoolDecision} (hne : decisions.length ≠ 0) :
    hitRate decisions decisions.length = 1 ↔ ∀ d ∈ decisions, d.reason = .cacheHit := by
  have hpos : (decisions.length : ℚ) ≠ 0 := by exact_mod_cast hne
  rw [hitRate, if_neg hne, div_eq_one_iff_eq hpos, Nat.cast_inj, List.countP_eq_length]
  simp

/-- **The reported cache hit rate is the router's exactly when the router had every request's entry, for an open pool,
before the run.** -/
theorem cacheHitRate_iff (sha256Hex : List UInt8 → Text) (mock : MockVllmServer) (t0Ns : Int) (draws : Nat → ℚ)
    (fuel : Nat) (topology : Topology) (trace : Trace) (router : Router F) (s : OpenLoopScheduler)
    (report : CampaignReport) (hs : OpenLoopScheduler.make? draws fuel trace = some s)
    (h : runTopology sha256Hex mock t0Ns draws fuel topology trace router = some report) :
    report.cacheHitRate = hitRate (routeDecisions sha256Hex router (s.specs t0Ns)) report.nRequests ↔
      ∀ spec ∈ s.specs t0Ns, router.HasOpenEntry sha256Hex spec := by
  obtain ⟨hn, hrate⟩ := runTopology_cacheHitRate hs h
  have hlen := router.length_decisions sha256Hex (s.specs t0Ns)
  rw [hrate, hn, ← router.all_hits_iff sha256Hex, routeDecisions]
  by_cases hzero : (s.specs t0Ns).length = 0
  · rw [if_pos hzero, hitRate, if_pos hzero]
    refine iff_of_true rfl (fun d hd => ?_)
    rw [List.length_eq_zero_iff.1 (hlen.trans hzero)] at hd
    cases hd
  · rw [if_neg hzero, ← hlen, eq_comm, hitRate_eq_one_iff (by rwa [hlen])]

/-! ## A cold cache -/

def cleanMock : MockVllmServer where
  label := "mock-vllm".toList
  world := fun _ => VllmHttpClient.tickingWorld
  server := fun _ => VllmHttpClient.cleanEnd

/-- One pool, and an empty cache. -/
def coldRouter : Router ℚ :=
  Router.withPools Router.helloHash Router.defaultPolicy 1024 (fun _ => []) false [Router.prefillPool]

/-- The same router once it has seen the prompt. -/
def warmRouter : Router ℚ := (coldRouter.route Router.helloHash VllmHttpClient.helloSpec).2

theorem helloScheduler_eq :
    OpenLoopScheduler.make? (fun _ => 1) 0 VllmHttpClient.helloTrace = some VllmHttpClient.helloScheduler := rfl

theorem warm_rate_right :
    ∃ report, runTopology Router.helloHash cleanMock 0 (fun _ => 1) 0 .colocated VllmHttpClient.helloTrace warmRouter =
        some report ∧
      (report.cacheHitRate =
          hitRate (routeDecisions Router.helloHash warmRouter (VllmHttpClient.helloScheduler.specs 0)) report.nRequests ↔
        ∀ spec ∈ VllmHttpClient.helloScheduler.specs 0, warmRouter.HasOpenEntry Router.helloHash spec) := by
  have hrun : (runTopology Router.helloHash cleanMock 0 (fun _ => 1) 0 .colocated VllmHttpClient.helloTrace
      warmRouter).isSome = true := by decide +kernel
  obtain ⟨report, hreport⟩ := Option.isSome_iff_exists.1 hrun
  exact ⟨report, hreport, cacheHitRate_iff _ _ _ _ _ _ _ _ _ _ helloScheduler_eq hreport⟩

/-- **Two requests with one prompt, and nothing cached**: the router finds the second one's entry, and the report says
that it found both. -/
theorem cold_rate_wrong :
    ∃ report, runTopology Router.helloHash cleanMock 0 (fun _ => 1) 0 .colocated VllmHttpClient.helloTrace coldRouter =
        some report ∧
      (routeDecisions Router.helloHash coldRouter (VllmHttpClient.helloScheduler.specs 0)).map PoolDecision.reason =
        [.loadBalance, .cacheHit] ∧
      report.nRequests = 2 ∧ report.cacheHitRate = 1 ∧
      report.cacheHitRate ≠
        hitRate (routeDecisions Router.helloHash coldRouter (VllmHttpClient.helloScheduler.specs 0)) report.nRequests := by
  have hrun : (runTopology Router.helloHash cleanMock 0 (fun _ => 1) 0 .colocated VllmHttpClient.helloTrace
      coldRouter).isSome = true := by decide +kernel
  have hhalf : hitRate (routeDecisions Router.helloHash coldRouter (VllmHttpClient.helloScheduler.specs 0)) 2 = 1 / 2 := by
    decide +kernel
  obtain ⟨report, hreport⟩ := Option.isSome_iff_exists.1 hrun
  obtain ⟨hn, hrate⟩ := runTopology_cacheHitRate helloScheduler_eq hreport
  have hn : report.nRequests = 2 := hn
  rw [hn, if_neg (by decide)] at hrate
  refine ⟨report, hreport, by decide +kernel, hn, hrate, ?_⟩
  rw [hn, hhalf, hrate]
  norm_num

end Orchestrator
end GoodputLab
