import GoodputLab.ArrivalSchedule
import GoodputLab.Base.Collect
import GoodputLab.Base.Semaphore
import GoodputLab.ClientStatus
/-!
# ClientRun — one telemetry for each scheduled request (`loadgen/client.py`)

A run creates a task for each scheduled request.  A task takes a slot of the client's semaphore, asks the routing callback
for a pool, waits for its arrival and sends; the run gathers the telemetries.  A telemetry is validated outside the guard
around the exchange, so one status past 599 raises out of the whole run, and without a slot nothing is ever sent
(`run_telemetries_iff`).
-/
namespace GoodputLab

def Server.status? : Server → Option Nat
  | .unreachable _         => none
  | .responds status _ _ _ => some status

/-- One request's clock readings and server: the clock is monotonic, and the server answers three digits. -/
structure Exchange where
  world        : ClientWorld
  server       : Server
  clockMono    : Monotone world.clock
  statusDigits : ∀ status ∈ server.status?, 100 ≤ status ∧ status ≤ 999

/-- The scheduled requests, in order. -/
def OpenLoopScheduler.specs (s : OpenLoopScheduler) (t0Ns : Int) : List RequestSpec := (s.items t0Ns).map Prod.fst

namespace VllmHttpClient

open Semaphore

variable {κ : Type}

/-- What the tasks act on: the state of the routing callback, and the pool it has named for each request so far. -/
structure Routed (κ : Type) where
  callback : κ
  pools    : Nat → Option (Option Text)

/-- `_one`, once it has its slot. -/
def one (routedPoolFor : κ → RequestSpec → κ × Option Text) (specs : List RequestSpec) (r : Routed κ) (i : Nat) :
    Routed κ :=
  match specs[i]? with
  | none      => r
  | some spec =>
    let named := routedPoolFor r.callback spec
    ⟨named.1, Function.update r.pools i (some named.2)⟩

/-- The event loop as a run begins: a task for each request, which suspends as `bodies` says once it has its slot. -/
def tasks (maxConcurrent : Nat) (bodies : Nat → List Suspension) (callback : κ) (specs : List RequestSpec) :
    Loop (Routed κ) :=
  Loop.init specs.length maxConcurrent bodies ⟨callback, fun _ => none⟩

/-- What the task at place `i` returns; none when it raises. -/
def telemetryOf (exchange : Nat → Exchange) (specs : List RequestSpec) (r : Routed κ) (i : Nat) :
    Option RequestTelemetry := do
  let spec ← specs[i]?
  let pool ← r.pools i
  sendOne (exchange i).world (exchange i).server spec pool

/-- `gather` raises when one of the tasks does. -/
def gather (exchange : Nat → Exchange) (specs : List RequestSpec) (r : Routed κ) : Option (List RequestTelemetry) :=
  (List.range specs.length).mapM (telemetryOf exchange specs r)

/-- A run along a schedule of its event loop, after the first `t` operations. -/
def runAt (routedPoolFor : κ → RequestSpec → κ × Option Text) (callback : κ) (maxConcurrent : Nat)
    (bodies : Nat → List Suspension) (schedule : Nat → Op) (specs : List RequestSpec) (t : Nat) : Loop (Routed κ) :=
  Loop.after (one routedPoolFor specs) (tasks maxConcurrent bodies callback specs) schedule t

/-- `run` returns `tels`: at some point every task has finished, and none has raised. -/
def Returns (exchange : Nat → Exchange) (routedPoolFor : κ → RequestSpec → κ × Option Text) (callback : κ)
    (maxConcurrent : Nat) (bodies : Nat → List Suspension) (schedule : Nat → Op) (specs : List RequestSpec)
    (tels : List RequestTelemetry) : Prop :=
  ∃ t, (runAt routedPoolFor callback maxConcurrent bodies schedule specs t).finished.Perm (List.range specs.length) ∧
    gather exchange specs (runAt routedPoolFor callback maxConcurrent bodies schedule specs t).acted = some tels

/-! ## The timestamps of a stream -/

/-- **The timestamps of a stream do not decrease.** -/
theorem streamTokens_sorted {w : ClientWorld} (hclock : Monotone w.clock) (ending : Ending) :
    ∀ (lines : List Text) (pos : Nat),
      ((streamTokens w ending pos lines).events.map (fun ev => ev.tsNs)).Pairwise (· ≤ ·) ∧
      ∀ ev ∈ (streamTokens w ending pos lines).events, w.clock pos ≤ ev.tsNs
  | [], pos => by
    cases ending <;> exact ⟨List.Pairwise.nil, fun ev h => by cases h⟩
  | line :: lines, pos => by
    rw [streamTokens_cons]
    cases heffect : Sse.effect w.toSseWorld pos line with
    | raises e => exact ⟨List.Pairwise.nil, fun ev h => by cases h⟩
    | ends => exact streamTokens_sorted hclock ending lines pos
    | nothing => exact streamTokens_sorted hclock ending lines pos
    | token ev =>
      have hts := Sse.effect_tsNs heffect
      obtain ⟨hsorted, hfrom⟩ := streamTokens_sorted hclock ending lines (pos + 1)
      have hnext : w.clock pos ≤ w.clock (pos + 1) := hclock (Nat.le_succ pos)
      have hlater : ∀ ev' ∈ (streamTokens w ending (pos + 1) lines).events, w.clock pos ≤ ev'.tsNs :=
        fun ev' h => hnext.trans (hfrom ev' h)
      refine ⟨List.pairwise_cons.2 ⟨fun ts hts' => ?_, hsorted⟩, fun ev' h => ?_⟩
      · obtain ⟨ev', hev', rfl⟩ := List.mem_map.1 hts'
        show ev.tsNs ≤ ev'.tsNs
        rw [hts]
        exact hlater ev' hev'
      · rcases List.mem_cons.1 h with rfl | h
        · exact hts.ge
        · exact hlater ev' h

/-! ## One request -/

/-- **A telemetry is built exactly when the status is below 600**, in order of its timestamps. -/
theorem telemetry_iff (spec : RequestSpec) (enqueueTs : Nat) {events : List TokenEvent} (completionTs : Option Nat)
    {status : Nat} (error : Option Text) (routedPool : Option Text) (hstatus : 100 ≤ status)
    (hsorted : (events.map (fun ev => ev.tsNs)).Pairwise (· ≤ ·)) :
    (∃ tel, telemetry spec enqueueTs events completionTs status error routedPool = some tel) ↔ status ≤ 599 := by
  unfold telemetry
  simp only
  constructor
  · rintro ⟨tel, htel⟩
    split at htel
    · rename_i h
      exact h.1.2
    · cases htel
  · intro hle
    rw [dif_pos ⟨⟨hstatus, hle⟩, hsorted⟩]
    exact ⟨_, rfl⟩

theorem telemetry_requestId {spec : RequestSpec} {enqueueTs : Nat} {events : List TokenEvent}
    {completionTs : Option Nat} {status : Nat} {error : Option Text} {routedPool : Option Text} {tel : RequestTelemetry}
    (h : telemetry spec enqueueTs events completionTs status error routedPool = some tel) :
    tel.requestId = spec.requestId := by
  unfold telemetry at h
  simp only at h
  split at h
  · cases h
    rfl
  · cases h

theorem sendOne_requestId {w : ClientWorld} {server : Server} {spec : RequestSpec} {routedPool : Option Text}
    {tel : RequestTelemetry} (h : sendOne w server spec routedPool = some tel) : tel.requestId = spec.requestId := by
  unfold sendOne at h
  simp only at h
  split at h
  · exact telemetry_requestId h
  · split at h
    · split at h <;> exact telemetry_requestId h
    · split at h <;> exact telemetry_requestId h

/-- **A request has a telemetry exactly when its server does not answer past 599.** -/
theorem sendOne_iff (x : Exchange) (spec : RequestSpec) (routedPool : Option Text) :
    (∃ tel, sendOne x.world x.server spec routedPool = some tel) ↔ ∀ status ∈ x.server.status?, status ≤ 599 := by
  have hdigits := x.statusDigits
  have hnone : (([] : List TokenEvent).map (fun ev => ev.tsNs)).Pairwise (· ≤ ·) := List.Pairwise.nil
  cases hserver : x.server with
  | unreachable exc =>
    refine iff_of_true ?_ (fun status h => by cases h)
    exact (telemetry_iff spec _ none _ routedPool (by decide) hnone).2 (le_refl 599)
  | responds status body lines ending =>
    rw [hserver] at hdigits
    have hge : 100 ≤ status := (hdigits status rfl).1
    have hor : statusOr599 status = status := statusOr599_of_pos (by omega)
    have hsorted := (streamTokens_sorted x.clockMono ending lines 2).1
    have hbelow : (∀ st ∈ (Server.responds status body lines ending).status?, st ≤ 599) ↔ status ≤ 599 := by
      simp [Server.status?]
    rw [hbelow]
    unfold sendOne
    simp only [hor]
    split
    · split <;> exact telemetry_iff spec _ _ _ routedPool hge hnone
    · split <;> exact telemetry_iff spec _ _ _ routedPool hge hsorted

/-! ## A whole run -/

/-- What a run owes: a telemetry for each scheduled request, in the order of the trace. -/
def OnePerRequest (trace : Trace) (nScheduled : Nat) (tels : List RequestTelemetry) : Prop :=
  tels.length = nScheduled ∧
    tels.map (fun t => t.requestId) = (trace.requests.take nScheduled).map (fun r => r.requestId)

/-- Every request has been named a pool, or none, once all have acted. -/
theorem pools_of_acted (routedPoolFor : κ → RequestSpec → κ × Option Text) (callback : κ) (specs : List RequestSpec) :
    ∀ k ≤ specs.length, ∀ i < k,
      ∃ pool, ((List.range k).foldl (one routedPoolFor specs) ⟨callback, fun _ => none⟩).pools i = some pool
  | 0, _, i, hi     => absurd hi (Nat.not_lt_zero i)
  | k + 1, hk, i, hi => by
    rw [List.range_succ, List.foldl_append, List.foldl_cons, List.foldl_nil, one, List.getElem?_eq_getElem hk]
    simp only
    rcases Nat.lt_succ_iff_lt_or_eq.1 hi with hlt | rfl
    · rw [Function.update_of_ne hlt.ne]
      exact pools_of_acted routedPoolFor callback specs k (Nat.le_of_succ_le hk) i hlt
    · exact ⟨_, Function.update_self ..⟩

theorem gather_requestIds {exchange : Nat → Exchange} {specs : List RequestSpec} {r : Routed κ}
    {tels : List RequestTelemetry} (h : gather exchange specs r = some tels) :
    tels.map (fun t => t.requestId) = specs.map (fun spec => spec.requestId) := by
  have hall := (Collect.mapM_eq_some_iff _ _ _).1 h
  have hids : List.Forall₂
      (fun i tel => (specs.map (fun spec => spec.requestId))[i]? = some (RequestTelemetry.requestId tel))
      (List.range specs.length) tels := by
    refine hall.imp (fun i tel hi => ?_)
    obtain ⟨spec, hspec, hi⟩ := Option.bind_eq_some_iff.1 hi
    obtain ⟨pool, -, hi⟩ := Option.bind_eq_some_iff.1 hi
    rw [List.getElem?_map, hspec, Option.map_some, sendOne_requestId hi]
  refine List.ext_getElem? (fun i => ?_)
  have hlen := hids.length_eq
  rw [List.length_range] at hlen
  by_cases hi : i < specs.length
  · have hget := hids.get (by rw [List.length_range]; exact hi) (hlen ▸ hi)
    simp only [List.get_eq_getElem, List.getElem_range] at hget
    rw [hget, List.getElem?_map, List.getElem?_eq_getElem (hlen ▸ hi), Option.map_some]
  · rw [List.getElem?_eq_none (by rw [List.length_map, ← hlen]; exact not_lt.1 hi),
      List.getElem?_eq_none (by rw [List.length_map]; exact not_lt.1 hi)]

theorem specs_eq (s : OpenLoopScheduler) (t0Ns : Int) : s.specs t0Ns = s.trace.requests.take s.nScheduled :=
  s.items_fst t0Ns

theorem length_specs (s : OpenLoopScheduler) (t0Ns : Int) : (s.specs t0Ns).length = s.nScheduled := by
  rw [OpenLoopScheduler.specs, List.length_map, s.length_items]

section Runs

variable {exchange : Nat → Exchange} {routedPoolFor : κ → RequestSpec → κ × Option Text} {callback : κ}
  {maxConcurrent : Nat} {bodies : Nat → List Suspension} {schedule : Nat → Op} {specs : List RequestSpec}

/-- **A run that returns has sent every request**, and none was answered past 599. -/
theorem statuses_of_returns {tels : List RequestTelemetry}
    (h : Returns exchange routedPoolFor callback maxConcurrent bodies schedule specs tels) :
    ∀ i < specs.length, ∀ status ∈ (exchange i).server.status?, status ≤ 599 := by
  obtain ⟨t, -, hgather⟩ := h
  intro i hi
  obtain ⟨tel, -, htel⟩ := Collect.exists_of_mem hgather (List.mem_range.2 hi)
  obtain ⟨spec, -, htel⟩ := Option.bind_eq_some_iff.1 htel
  obtain ⟨pool, -, htel⟩ := Option.bind_eq_some_iff.1 htel
  exact (sendOne_iff (exchange i) spec pool).1 ⟨tel, htel⟩

/-- Once every task has finished the run returns, unless a request was answered past 599. -/
theorem gather_of_finished {t : Nat}
    (hfinished : (runAt routedPoolFor callback maxConcurrent bodies schedule specs t).finished.Perm
      (List.range specs.length))
    (hstatus : ∀ i < specs.length, ∀ status ∈ (exchange i).server.status?, status ≤ 599) :
    ∃ tels,
      gather exchange specs (runAt routedPoolFor callback maxConcurrent bodies schedule specs t).acted = some tels := by
  have hacted := Loop.acted_of_finished (one routedPoolFor specs) specs.length maxConcurrent bodies
    ⟨callback, fun _ => none⟩ schedule hfinished
  refine Collect.exists_mapM (fun i hi => ?_)
  have hlt := List.mem_range.1 hi
  obtain ⟨pool, hpool⟩ := pools_of_acted routedPoolFor callback specs specs.length (le_refl _) i hlt
  rw [← hacted] at hpool
  obtain ⟨tel, htel⟩ := (sendOne_iff (exchange i) specs[i] pool).2 (hstatus i hlt)
  refine ⟨tel, ?_⟩
  refine Option.bind_eq_some_iff.2 ⟨specs[i], List.getElem?_eq_getElem hlt, ?_⟩
  exact Option.bind_eq_some_iff.2 ⟨pool, hpool, htel⟩

variable (exchange) in
/-- **On a fair schedule a run returns exactly when it has a slot**, or nothing to send, and no server answers past 599. -/
theorem returns_iff
    (hfair : Loop.Fair (one routedPoolFor specs) (tasks maxConcurrent bodies callback specs) schedule) :
    (∃ tels, Returns exchange routedPoolFor callback maxConcurrent bodies schedule specs tels) ↔
      (0 < maxConcurrent ∨ specs.length = 0) ∧
        ∀ i < specs.length, ∀ status ∈ (exchange i).server.status?, status ≤ 599 := by
  have hfinishes := hfair.finishes_iff (one routedPoolFor specs) specs.length maxConcurrent bodies
    ⟨callback, fun _ => none⟩ schedule
  constructor
  · rintro ⟨tels, t, hfinished, hgather⟩
    exact ⟨hfinishes.1 ⟨t, hfinished⟩, statuses_of_returns ⟨t, hfinished, hgather⟩⟩
  · rintro ⟨hslots, hstatus⟩
    obtain ⟨t, hfinished⟩ := hfinishes.2 hslots
    obtain ⟨tels, htels⟩ := gather_of_finished hfinished hstatus
    exact ⟨tels, t, hfinished, htels⟩

end Runs

theorem returns_onePerRequest {exchange : Nat → Exchange} {routedPoolFor : κ → RequestSpec → κ × Option Text}
    {callback : κ} {maxConcurrent : Nat} {bodies : Nat → List Suspension} {schedule : Nat → Op} {s : OpenLoopScheduler}
    {t0Ns : Int} {tels : List RequestTelemetry}
    (h : Returns exchange routedPoolFor callback maxConcurrent bodies schedule (s.specs t0Ns) tels) :
    OnePerRequest s.trace s.nScheduled tels := by
  obtain ⟨t, -, hgather⟩ := h
  have hids := gather_requestIds hgather
  have hlen := congrArg List.length hids
  rw [List.length_map, List.length_map, length_specs] at hlen
  exact ⟨hlen, by rw [hids, specs_eq]⟩

/-- **A run has one telemetry for each scheduled request exactly when it has a slot and no server answers past 599.**  The
scheduler of the trace is built, and on every fair schedule of the event loop, whatever the callback, the waits and the
exchanges are, that is when the run returns one. -/
theorem run_telemetries_iff (w : WaitingTimes) (trace : Trace) (exchange : Nat → Exchange)
    (routedPoolFor : κ → RequestSpec → κ × Option Text) (callback : κ) (t0Ns : Int) :
    (∃! s, OpenLoopScheduler.Builds w.draws trace s) ∧ ∀ s, OpenLoopScheduler.Builds w.draws trace s →
      ∀ (maxConcurrent : Nat) (bodies : Nat → List Suspension) (schedule : Nat → Op),
        Loop.Fair (one routedPoolFor (s.specs t0Ns)) (tasks maxConcurrent bodies callback (s.specs t0Ns)) schedule →
          ((∃ tels, Returns exchange routedPoolFor callback maxConcurrent bodies schedule (s.specs t0Ns) tels ∧
              OnePerRequest trace s.nScheduled tels) ↔
            (0 < maxConcurrent ∨ s.nScheduled = 0) ∧
              ∀ i < s.nScheduled, ∀ status ∈ (exchange i).server.status?, status ≤ 599) := by
  refine ⟨?_, fun s hs maxConcurrent bodies schedule hfair => ?_⟩
  · obtain ⟨s, hs⟩ := OpenLoopScheduler.exists_builds w trace
    exact ⟨s, hs, fun s' hs' => OpenLoopScheduler.builds_unique hs' hs⟩
  · have hiff := returns_iff exchange hfair
    rw [length_specs] at hiff
    rw [← hiff, ← OpenLoopScheduler.builds_trace hs]
    exact ⟨fun ⟨tels, h, _⟩ => ⟨tels, h⟩, fun ⟨tels, h⟩ => ⟨tels, h, returns_onePerRequest h⟩⟩

/-! ## A status past 599 -/

theorem tickingWorld_mono : Monotone tickingWorld.clock := fun _ _ h => Nat.mul_le_mul_left 1000000 h

def answeredCleanly : Exchange where
  world := tickingWorld
  server := cleanEnd
  clockMono := tickingWorld_mono
  statusDigits := by
    intro status h
    cases h
    decide

/-- A load balancer's own status. -/
def answeredPast : Exchange where
  world := tickingWorld
  server := .responds 600 [] [] .clean
  clockMono := tickingWorld_mono
  statusDigits := by
    intro status h
    cases h
    decide

def nextSpec : RequestSpec := { helloSpec with requestId := "chat-00001".toList, idNonempty := by decide }

theorem rate_pos : (0 : ℚ) < 1 := zero_lt_one

theorem duration_pos : (0 : ℚ) < 2 := two_pos

def helloTrace : Trace where
  workload := .chat
  seed := 42
  durationS := 2
  arrival := ⟨.poisson, 1, 42, none, none, rate_pos, rfl, rfl, fun h => by cases h⟩
  requests := [helloSpec, nextSpec]
  durationPos := duration_pos

/-- A request each second. -/
def everySecond : WaitingTimes where
  draws _ := 1
  passes pos t := by
    obtain ⟨k, hk⟩ := exists_nat_ge t
    exact ⟨k, by simpa [Renewal.elapsed] using hk⟩

def helloScheduler : OpenLoopScheduler := ⟨helloTrace, PoissonArrival.sample (fun _ => 1) 2⟩

theorem helloScheduler_builds : OpenLoopScheduler.Builds everySecond.draws helloTrace helloScheduler := ⟨0, rfl⟩

/-- A callback that names one pool after the other. -/
def inTurn (n : Nat) (_ : RequestSpec) : Nat × Option Text := (n + 1, some (if n = 0 then "a".toList else "b".toList))

theorem two_answered : helloScheduler.nScheduled = 2 ∧
    ∃ tels, Returns (fun _ => answeredCleanly) inTurn 0 1 (fun _ => [.event, .yields]) (Loop.roundRobin 2)
      (helloScheduler.specs 0) tels ∧ OnePerRequest helloTrace 2 tels := by
  refine ⟨rfl, ?_⟩
  have hfair : Loop.Fair (one inTurn (helloScheduler.specs 0))
      (tasks 1 (fun _ => [.event, .yields]) 0 (helloScheduler.specs 0)) (Loop.roundRobin 2) :=
    Loop.roundRobin_fair _ 2 1 _ _
  refine ((run_telemetries_iff everySecond helloTrace (fun _ => answeredCleanly) inTurn 0 0).2 helloScheduler
    helloScheduler_builds 1 _ _ hfair).2 ⟨Or.inl one_pos, fun i _ status h => ?_⟩
  cases h
  decide

/-- The first request is answered cleanly, the second with the status past 599. -/
def secondPast (i : Nat) : Exchange := if i = 0 then answeredCleanly else answeredPast

/-- **A status past 599 loses the run**, with the telemetry of the request that succeeded. -/
theorem status_past_599_loses_run :
    OpenLoopScheduler.Builds everySecond.draws helloTrace helloScheduler ∧ helloScheduler.nScheduled = 2 ∧
      (∃ tel, sendOne (secondPast 0).world (secondPast 0).server helloSpec none = some tel ∧ tel.statusCode = 200) ∧
      Loop.Fair (one (fun (u : Unit) _ => (u, none)) (helloScheduler.specs 0))
        (tasks 64 (fun _ => [.event]) () (helloScheduler.specs 0)) (Loop.roundRobin 2) ∧
      ¬ ∃ tels, Returns secondPast (fun (u : Unit) _ => (u, none)) () 64 (fun _ => [.event]) (Loop.roundRobin 2)
        (helloScheduler.specs 0) tels ∧ OnePerRequest helloTrace 2 tels := by
  refine ⟨helloScheduler_builds, rfl, ⟨_, rfl, rfl⟩, Loop.roundRobin_fair _ 2 64 _ _, ?_⟩
  rintro ⟨tels, hreturns, -⟩
  have hstatus := statuses_of_returns hreturns 1 (by decide) 600 rfl
  exact absurd hstatus (by decide)

end VllmHttpClient
end GoodputLab
