import GoodputLab.Base.Semaphore
import GoodputLab.OrchestratorHits
/-!
# OrchestratorSlots — the requests of a run, in every interleaving (`loadgen/client.py`, `bench/orchestrator.py`)

`VllmHttpClient.run` creates a task for each scheduled request.  A task takes a slot of the client's semaphore, asks the
router for a pool, and only then waits for its arrival and sends.  The router is one object that the requests change in
turn, so what it decides depends on the order in which they reach it.

That order is the schedule's, whatever the interleaving (`routed_in_schedule_order`), so a run whose events all come ends
with the telemetries of `replay` (`fair_run_replays`): the report does not depend on which request is answered first.
-/
namespace GoodputLab
namespace Orchestrator

open Semaphore

variable {F : Type} [FloatArith F]

/-- What the requests act on: the router, and the decision it has made for each of them so far. -/
structure Routing (F : Type) [FloatArith F] where
  router    : Router F
  decisions : List (Nat × PoolDecision)

/-- `routed_pool_for`, called by the request at place `i` once it has its slot. -/
def routedPoolFor (sha256Hex : List UInt8 → Text) (specs : List RequestSpec) (r : Routing F) (i : Nat) : Routing F :=
  match specs[i]? with
  | none      => r
  | some spec =>
    let decided := r.router.route sha256Hex spec
    ⟨decided.2, r.decisions ++ [(i, decided.1)]⟩

/-- A run as it begins: a task for each request, which suspends as `bodies` says once it has its slot. -/
def slotsLoop (maxConcurrent : Nat) (bodies : Nat → List Suspension) (specs : List RequestSpec) (router : Router F) :
    Loop (Routing F) :=
  Loop.init specs.length maxConcurrent bodies ⟨router, []⟩

/-- The telemetry of the request at place `i`. -/
def telemetryOf (mock : MockVllmServer) (specs : List RequestSpec) (r : Routing F) (i : Nat) :
    Option RequestTelemetry := do
  let spec ← specs[i]?
  let decision ← r.decisions.lookup i
  VllmHttpClient.sendOne (mock.world i) (mock.server i) spec (some (routedPool decision))

/-- What `gather` returns once every request has finished. -/
def gathered (mock : MockVllmServer) (specs : List RequestSpec) (l : Loop (Routing F)) : Option (List RequestTelemetry) :=
  (List.range specs.length).mapM (telemetryOf mock specs l.acted)

/-! ## The decisions -/

/-- The router once the requests have been routed in their order. -/
def routerAfter (sha256Hex : List UInt8 → Text) (router : Router F) (specs : List RequestSpec) : Router F :=
  router.after sha256Hex (specs.map .route)

theorem routeDecisions_snoc (sha256Hex : List UInt8 → Text) (spec : RequestSpec) :
    ∀ (specs : List RequestSpec) (router : Router F),
      routeDecisions sha256Hex router (specs ++ [spec]) =
          routeDecisions sha256Hex router specs ++ [((routerAfter sha256Hex router specs).route sha256Hex spec).1] ∧
        routerAfter sha256Hex router (specs ++ [spec]) =
          ((routerAfter sha256Hex router specs).route sha256Hex spec).2
  | [], _              => ⟨rfl, rfl⟩
  | first :: specs, router => by
    obtain ⟨hdecisions, hafter⟩ := routeDecisions_snoc sha256Hex spec specs (router.route sha256Hex first).2
    exact ⟨congrArg (List.cons (router.route sha256Hex first).1) hdecisions, hafter⟩

/-- **What the first `k` requests make of the router**: their decisions, in the order of the schedule. -/
theorem foldl_routedPoolFor (sha256Hex : List UInt8 → Text) (specs : List RequestSpec) (router : Router F) :
    ∀ k ≤ specs.length, (List.range k).foldl (routedPoolFor sha256Hex specs) ⟨router, []⟩ =
      ⟨routerAfter sha256Hex router (specs.take k),
        (List.range k).zip (routeDecisions sha256Hex router (specs.take k))⟩
  | 0, _     => rfl
  | k + 1, h => by
    have hk : k < specs.length := h
    obtain ⟨hdecisions, hafter⟩ := routeDecisions_snoc sha256Hex specs[k] (specs.take k) router
    have hlen : (routeDecisions sha256Hex router (specs.take k)).length = k := by
      rw [routeDecisions, Router.length_decisions, List.length_take, Nat.min_eq_left hk.le]
    rw [List.range_succ, List.foldl_append, foldl_routedPoolFor sha256Hex specs router k hk.le,
      ← List.take_concat_get' specs k hk, hdecisions, hafter, List.zip_append (by rw [List.length_range, hlen])]
    simp only [List.foldl_cons, List.foldl_nil, routedPoolFor, List.getElem?_eq_getElem hk]
    rfl

/-! ## Every interleaving -/

/-- **The requests reach the router in the order of the schedule**, in every state of every interleaving: what it has
decided by then is what it decides when they are routed one after another.  At most `maxConcurrent` requests have a slot,
and at most that many more have been routed than have been answered. -/
theorem routed_in_schedule_order (sha256Hex : List UInt8 → Text) (maxConcurrent : Nat)
    (bodies : Nat → List Suspension) (specs : List RequestSpec) (router : Router F) (ops : List Semaphore.Op) :
    ∃ k ≤ specs.length, ∃ l, l = Runs.run (Loop.step (routedPoolFor sha256Hex specs))
        (slotsLoop maxConcurrent bodies specs router) ops ∧
      l.entered = List.range k ∧
      l.acted.router = routerAfter sha256Hex router (specs.take k) ∧
      l.acted.decisions = (List.range k).zip (routeDecisions sha256Hex router (specs.take k)) ∧
      l.inside.length ≤ maxConcurrent ∧ k ≤ maxConcurrent + l.finished.length := by
  obtain ⟨k, hk, hentered, hacted⟩ := Loop.run_acted (routedPoolFor sha256Hex specs) specs.length maxConcurrent bodies
    ⟨router, []⟩ ops
  have hinv := Loop.run_inv (routedPoolFor sha256Hex specs) specs.length maxConcurrent bodies
    (⟨router, []⟩ : Routing F) ops
  rw [foldl_routedPoolFor sha256Hex specs router k hk] at hacted
  have hle := hinv.entered_le
  have hlen := congrArg List.length hentered
  rw [List.length_range] at hlen
  refine ⟨k, hk, _, rfl, hentered, ?_, ?_, hinv.inside_le_slots, hlen ▸ hle⟩
  · exact congrArg Routing.router hacted
  · exact congrArg Routing.decisions hacted

/-! ## The telemetries -/

theorem lookup_zip_range' : ∀ (decisions : List PoolDecision) (start i : Nat),
    ((List.range' start decisions.length).zip decisions).lookup (start + i) = decisions[i]?
  | [], _, _                       => rfl
  | d :: decisions, start, 0       => by simp [List.range'_succ]
  | d :: decisions, start, i + 1   => by
    have hne : (start + (i + 1) == start) = false := by simp
    have ih := lookup_zip_range' decisions (start + 1) i
    rw [show start + 1 + i = start + (i + 1) by omega] at ih
    rw [List.length_cons, List.range'_succ, List.zip_cons_cons, List.lookup_cons, hne, List.getElem?_cons_succ]
    exact ih

/-- **What is gathered is the replay**, once every request has been routed in the order of the schedule. -/
theorem gathered_eq_replay (sha256Hex : List UInt8 → Text) (mock : MockVllmServer) (specs : List RequestSpec)
    (router : Router F) {l : Loop (Routing F)}
    (h : l.acted.decisions = (List.range specs.length).zip (routeDecisions sha256Hex router specs)) :
    gathered mock specs l = replay sha256Hex mock router specs := by
  have hlen : (routeDecisions sha256Hex router specs).length = specs.length :=
    Router.length_decisions sha256Hex specs router
  have hplaces : List.range specs.length =
      (specs.zip (routeDecisions sha256Hex router specs)).zipIdx.map Prod.snd := by
    rw [List.zipIdx_map_snd, List.length_zip, hlen, Nat.min_self, List.range_eq_range']
  unfold gathered replay
  rw [hplaces, List.mapM_map]
  refine Collect.mapM_congr (fun p hp => ?_)
  obtain ⟨hspec, hdecision⟩ := List.getElem?_zip_eq_some.1 (List.mem_zipIdx_iff_getElem?.1 hp)
  have hlookup := lookup_zip_range' (routeDecisions sha256Hex router specs) 0 p.2
  rw [hlen, ← List.range_eq_range', ← h, Nat.zero_add, hdecision] at hlookup
  show telemetryOf mock specs l.acted p.2 = _
  rw [telemetryOf, hspec, hlookup]
  rfl

section Schedules

variable (sha256Hex : List UInt8 → Text) (mock : MockVllmServer) (maxConcurrent : Nat) (bodies : Nat → List Suspension)
  (specs : List RequestSpec) (router : Router F) (schedule : Nat → Semaphore.Op)

/-- A run along a schedule, after its first `t` operations. -/
def runAt (t : Nat) : Loop (Routing F) :=
  Loop.after (routedPoolFor sha256Hex specs) (slotsLoop maxConcurrent bodies specs router) schedule t

/-- **Once every request is answered, what is gathered is the replay**, whatever the interleaving was. -/
theorem gathered_of_finished {t : Nat}
    (h : (runAt sha256Hex maxConcurrent bodies specs router schedule t).finished.Perm (List.range specs.length)) :
    gathered mock specs (runAt sha256Hex maxConcurrent bodies specs router schedule t) =
      replay sha256Hex mock router specs := by
  have hacted := Loop.acted_of_finished (routedPoolFor sha256Hex specs) specs.length maxConcurrent bodies
    (⟨router, []⟩ : Routing F) schedule h
  rw [foldl_routedPoolFor sha256Hex specs router _ (le_refl _), List.take_length] at hacted
  exact gathered_eq_replay sha256Hex mock specs router (congrArg Routing.decisions hacted)

/-- **A run whose events all come answers every request exactly when it has a slot**, or nothing to send; and then it
gathers the telemetries of the replay. -/
theorem fair_run_replays
    (hfair : Loop.Fair (routedPoolFor sha256Hex specs) (slotsLoop maxConcurrent bodies specs router) schedule) :
    ((∃ t, (runAt sha256Hex maxConcurrent bodies specs router schedule t).finished.Perm (List.range specs.length)) ↔
        0 < maxConcurrent ∨ specs = []) ∧
      ∀ t, (runAt sha256Hex maxConcurrent bodies specs router schedule t).finished.Perm (List.range specs.length) →
        gathered mock specs (runAt sha256Hex maxConcurrent bodies specs router schedule t) =
          replay sha256Hex mock router specs := by
  refine ⟨?_, fun t => gathered_of_finished sha256Hex mock maxConcurrent bodies specs router schedule⟩
  rw [← List.length_eq_zero_iff]
  exact hfair.finishes_iff (routedPoolFor sha256Hex specs) specs.length maxConcurrent bodies ⟨router, []⟩ schedule

end Schedules

/-- Two requests for one slot, answered by turns. -/
theorem two_requests_one_slot :
    ((∃ t, (runAt Router.helloHash 1 (fun _ => [.event, .yields]) [VllmHttpClient.helloSpec, VllmHttpClient.nextSpec]
        coldRouter (Loop.roundRobin 2) t).finished.Perm (List.range 2)) ↔
      0 < 1 ∨ [VllmHttpClient.helloSpec, VllmHttpClient.nextSpec] = []) ∧
    ∀ t, (runAt Router.helloHash 1 (fun _ => [.event, .yields]) [VllmHttpClient.helloSpec, VllmHttpClient.nextSpec]
        coldRouter (Loop.roundRobin 2) t).finished.Perm (List.range 2) →
      gathered cleanMock [VllmHttpClient.helloSpec, VllmHttpClient.nextSpec]
          (runAt Router.helloHash 1 (fun _ => [.event, .yields]) [VllmHttpClient.helloSpec, VllmHttpClient.nextSpec]
            coldRouter (Loop.roundRobin 2) t) =
        replay Router.helloHash cleanMock coldRouter [VllmHttpClient.helloSpec, VllmHttpClient.nextSpec] :=
  fair_run_replays Router.helloHash cleanMock 1 (fun _ => [.event, .yields])
    [VllmHttpClient.helloSpec, VllmHttpClient.nextSpec] coldRouter (Loop.roundRobin 2)
    (Loop.roundRobin_fair _ 2 1 _ _)

end Orchestrator
end GoodputLab
