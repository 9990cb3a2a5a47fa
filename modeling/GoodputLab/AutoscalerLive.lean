import GoodputLab.AutoscalerView
import GoodputLab.MetricsScrape
/-!
# AutoscalerLive — the workload-shift experiment on a live server (`scripts/autoscaler_live.py`)

A tick scrapes the server's metrics, which may fail anywhere, asks the autoscaler for one decision about the colocated
pool, applies it to a replica count of its own and records it.  The colocated view of the autoscaler is all that decides
(`liveTick_eq`), so the run keeps `Accounted`: the count inside the bounds and equal to one and the deltas on record, no
downward delta with requests running (`steady_ticks`).  `live_run_safe` is the whole experiment and the exit code of `main`.
-/
namespace GoodputLab
namespace AutoscalerLive

open PoolAutoscaler (PoolView wanted gate clampDelta mapOutput)

structure Phase where
  name      : Text
  durationS : ℚ

theorem live_min : (0 : Int) ≤ 1 := by decide

theorem live_max : (1 : Int) ≤ 8 := by decide

theorem live_step : (1 : Int) ≤ 1 := by decide

def liveConfig (minDwellS : ℚ) (h : 0 ≤ minDwellS) : AutoscalerConfig :=
  ⟨1, 8, 1, minDwellS, live_min, live_max, live_step, h⟩

def buildAutoscaler (minDwellS : ℚ) : Except String PoolAutoscaler :=
  if h : 0 ≤ minDwellS then
    .ok (PoolAutoscaler.fresh (liveConfig minDwellS h) (OrdDict.ofList [(.colocated, 0)])
      (fun _ => PidController.deployedPid) false)
  else .error "min_dwell_s must be >= 0"

structure TickRecord where
  ts              : ℚ
  phase           : Text
  queueWaiting    : Int
  inFlightRunning : Int
  replicasVirtual : Int
  decisionDelta   : Int
  decisionReason  : ScaleReason

/-- `round(x, 3)`. -/
def roundMillis (x : ℚ) : ℚ := roundHalfEven (x * 1000) / 1000

def tickRecord (now : ℚ) (phase : Text) (waiting running replicas decisionDelta : Int) (decisionReason : ScaleReason) :
    TickRecord :=
  ⟨roundMillis now, phase, waiting, running, replicas, decisionDelta, decisionReason⟩

structure Config where
  tickS            : ℚ
  targetQueueDepth : Int
  minDwellS        : ℚ

/-- One turn of the tick loop as the world answers it: the clock at its head, the metrics body or what the client raised,
the autoscaler's clock and the time of day. -/
structure Reading where
  head   : ℚ
  scrape : Except String Text
  now    : ℚ
  wall   : ℚ

/-- What a turn reads of its body, or what it raises. -/
def Reading.signal (parser : BodyParser) (r : Reading) : Except String (Int × Int) := do
  let body ← r.scrape
  scrapedSignal parser body

/-- The local state of `run_experiment`. -/
structure Live where
  scaler          : PoolAutoscaler
  replicas        : Int
  records         : List TickRecord
  drainViolations : Nat
  flips           : Nat

def Live.start (scaler : PoolAutoscaler) : Live := ⟨scaler, 1, [], 0, 0⟩

def colocatedTopology (replicas target : Int) : Except String PoolTopology :=
  if hreplicas : 0 ≤ replicas then
    if htarget : 0 ≤ target then .ok ⟨.colocated, replicas, target, hreplicas, htarget⟩
    else .error "Input should be greater than or equal to 0"
  else .error "Input should be greater than or equal to 0"

/-- The arguments of the tick; of the running requests the autoscaler only asks whether there are any. -/
def liveArgs (config : Config) (topo : PoolTopology) (waiting running : Int) (now : ℚ) : TickArgs :=
  ⟨now, OrdDict.ofList [(.colocated, topo)], OrdDict.ofList [(.colocated, waiting)],
    OrdDict.ofList [(.colocated, running.toNat)], config.tickS⟩

/-- The bookkeeping of a tick that decided `d`. -/
def Live.observe (s : Live) (phase : Phase) (r : Reading) (waiting running : Int) (d : AutoscalerDecision) : Live :=
  let replicas := if d.delta ≠ 0 then max 1 (s.replicas + d.delta) else s.replicas
  { s with
    drainViolations := if d.delta < 0 ∧ 0 < running then s.drainViolations + 1 else s.drainViolations
    flips := if d.delta ≠ 0 then s.flips + 1 else s.flips
    replicas := replicas
    records := s.records ++ [tickRecord r.wall phase.name waiting running replicas d.delta d.reason] }

def liveTick (parser : BodyParser) (config : Config) (s : Live) (phase : Phase) (r : Reading) : Except String Live := do
  let (waiting, running) ← r.signal parser
  let topo ← colocatedTopology s.replicas config.targetQueueDepth
  let (decisions, scaler) ← s.scaler.tick (liveArgs config topo waiting running r.now)
  match decisions with
  | []     => .error "list index out of range"
  | d :: _ => .ok ({ s with scaler := scaler }.observe phase r waiting running d)

def ticks (parser : BodyParser) (config : Config) : List (Phase × Reading) → Live → Except String Live
  | [], s             => .ok s
  | (phase, r) :: rest, s => do
    let s ← liveTick parser config s phase r
    ticks parser config rest s

/-- A phase as the run meets it: the clock when its ticking begins and the turns of its loop. -/
structure PhaseRun where
  phase    : Phase
  begins   : ℚ
  readings : List Reading

/-- The loop stops at the first reading of the clock past the phase's deadline, a tick before the traffic's. -/
def PhaseRun.taken (config : Config) (p : PhaseRun) : List (Phase × Reading) :=
  (p.readings.takeWhile (fun r => r.head < p.begins + p.phase.durationS - config.tickS)).map (fun r => (p.phase, r))

def runPhases (parser : BodyParser) (config : Config) : List PhaseRun → Live → Except String Live
  | [], s      => .ok s
  | p :: ps, s => do
    let s ← ticks parser config (p.taken config) s
    runPhases parser config ps s

structure Summary where
  ticks                : Nat
  flips                : Nat
  flipsPerMinute       : ℚ
  drainViolations      : Nat
  maxQueueWaiting      : Int
  responseStatusCounts : OrdDict Text Nat
  phases               : List Text
  recordsPath          : Text

/-- `max(xs, default=0)`. -/
def maxOrZero : List Int → Int
  | []      => 0
  | x :: xs => xs.foldl max x

def summarize (config : Config) (s : Live) (statusCounts : OrdDict Text Nat) (phases : List PhaseRun) (outPath : Text) :
    Summary :=
  let wallS := (s.records.length : ℚ) * config.tickS
  { ticks := s.records.length
    flips := s.flips
    flipsPerMinute := if wallS = 0 then 0 else roundMillis (s.flips / (wallS / 60))
    drainViolations := s.drainViolations
    maxQueueWaiting := maxOrZero (s.records.map TickRecord.queueWaiting)
    responseStatusCounts := statusCounts
    phases := phases.map (fun p => p.phase.name)
    recordsPath := outPath }

/-- The experiment: the records it writes to its file and the summary, or what it raised; both are written after the
last phase, so a tick that raises leaves neither. -/
def runExperiment (parser : BodyParser) (config : Config) (phases : List PhaseRun) (statusCounts : OrdDict Text Nat)
    (outPath : Text) : Except String (List TickRecord × Summary) := do
  let scaler ← buildAutoscaler config.minDwellS
  let s ← runPhases parser config phases (.start scaler)
  pure (s.records, summarize config s statusCounts phases outPath)

def main (baseUrl : Option Text) (parser : BodyParser) (config : Config) (phases : List PhaseRun)
    (statusCounts : OrdDict Text Nat) (outPath : Text) : Except String Nat :=
  if baseUrl.getD [] = [] then .ok 2
  else do
    let (_, summary) ← runExperiment parser config phases statusCounts outPath
    pure (if summary.drainViolations = 0 then 0 else 1)

/-! ## One tick -/

/-- The gains and the clamp of the live controller, its integral term inside the clamp. -/
structure Tuned (c : PidController) : Prop where
  gains  : c.gains = PidController.deployedPid.gains
  outMin : c.outMin = -1
  outMax : c.outMax = 1
  window : c.InWindow

theorem tuned_deployedPid : Tuned PidController.deployedPid := by
  refine ⟨rfl, rfl, rfl, ?_⟩
  constructor
  · norm_num [PidController.deployedPid, PidController.fresh]
  · norm_num [PidController.deployedPid, PidController.fresh]

theorem Tuned.next {c : PidController} (h : Tuned c) (error : ℚ) {dt : ℚ} (hdt : 0 < dt) : Tuned (c.next error dt) := by
  refine ⟨h.gains, h.outMin, h.outMax, PidController.next_inWindow c error dt hdt ?_ ?_ h.window⟩
  · rw [h.gains]
    norm_num [PidController.deployedPid, PidController.fresh]
  · rw [h.gains]
    rfl

section Live
variable {parser : BodyParser} {config : Config} (hdwell : 0 ≤ config.minDwellS)

/-- The view of the colocated pool in a live run. -/
def liveView (c : PidController) (last : Option ℚ) : PoolView := ⟨liveConfig config.minDwellS hdwell, some c, last⟩

/-- The delta the live controller asks for at an error, inside the replica bounds. -/
def asked (replicas : Int) (c : PidController) (error : ℚ) : Int :=
  clampDelta (liveConfig config.minDwellS hdwell) replicas
    (mapOutput c (c.clamp (c.unclamped error config.tickS)) 1)

/-- The tick's decision at an error of the queue depth. -/
def decided (replicas : Int) (c : PidController) (last : Option ℚ) (now error : ℚ) (running : Int) :
    AutoscalerDecision :=
  gate (liveConfig config.minDwellS hdwell) last now .colocated running.toNat (asked hdwell replicas c error)

/-- A tick whose decision is this one, by the colocated view before and after it. -/
structure Ticked (s s' : Live) (phase : Phase) (r : Reading) (waiting running : Int) (c : PidController)
    (last : Option ℚ) (d : AutoscalerDecision) : Prop where
  decided : d = decided hdwell s.replicas c last r.now ((waiting - config.targetQueueDepth : Int) : ℚ) running
  after   : ∃ scaler, s' = { s with scaler := scaler }.observe phase r waiting running d
  view    : s'.scaler.view .colocated =
    liveView hdwell (c.next ((waiting - config.targetQueueDepth : Int) : ℚ) config.tickS)
      (if d.delta ≠ 0 then some r.now else last)

/-- **A tick that read a signal returns, and the colocated view is all that decides.** -/
theorem liveTick_eq (htick : 0 < config.tickS) (htarget : 0 ≤ config.targetQueueDepth) {s : Live} {c : PidController}
    {last : Option ℚ} (hview : s.scaler.view .colocated = liveView hdwell c last) (hreplicas : 0 ≤ s.replicas)
    (phase : Phase) {r : Reading} {waiting running : Int} (hsignal : r.signal parser = .ok (waiting, running)) :
    ∃ d s', liveTick parser config s phase r = .ok s' ∧ Ticked hdwell s s' phase r waiting running c last d := by
  have htopo : colocatedTopology s.replicas config.targetQueueDepth =
      .ok ⟨.colocated, s.replicas, config.targetQueueDepth, hreplicas, htarget⟩ :=
    (dif_pos hreplicas).trans (dif_pos htarget)
  set topo : PoolTopology := ⟨.colocated, s.replicas, config.targetQueueDepth, hreplicas, htarget⟩ with htopo'
  set t := liveArgs config topo waiting running r.now with ht
  obtain ⟨scaler, htick', hafter, -⟩ := PoolAutoscaler.tickPool_view t s.scaler .colocated topo htick
  set d := (s.scaler.view .colocated).decide t .colocated topo with hd
  have hok : s.scaler.tick t = .ok ([d], scaler) := PoolAutoscaler.tickPools_cons_ok htick' rfl
  refine ⟨d, { s with scaler := scaler }.observe phase r waiting running d, ?_, ?_, ⟨scaler, rfl⟩, ?_⟩
  · unfold liveTick
    simp only [bind, Except.bind, hsignal, htopo, ← ht, hok]
  · rw [hd, hview]
    rfl
  · show scaler.view .colocated = _
    rw [hafter, PoolView.after, ← hd, hview]
    rfl

/-- What a decision of the live autoscaler can do: the replica bounds, the step, the drain gate. -/
theorem decided_spec {s : Live} (c : PidController) (last : Option ℚ) (now error : ℚ) (running : Int)
    (hmin : 1 ≤ s.replicas) (hmax : s.replicas ≤ 8) :
    let d := decided hdwell s.replicas c last now error running
    |d.delta| ≤ 1 ∧ 1 ≤ s.replicas + d.delta ∧ s.replicas + d.delta ≤ 8 ∧ (d.delta < 0 → running ≤ 0) := by
  intro d
  by_cases h0 : d.delta = 0
  · rw [h0]
    refine ⟨by simp, by simpa using hmin, by simpa using hmax, fun h => absurd h (lt_irrefl 0)⟩
  · obtain ⟨hdelta, hdrain, -⟩ := PoolAutoscaler.gate_delta_ne_zero h0
    have hlo : c.outMin ≤ c.clamp (c.unclamped error config.tickS) := le_max_left _ _
    have hhi : c.clamp (c.unclamped error config.tickS) ≤ c.outMax := max_le c.outLt.le (min_le_left _ _)
    have hstep := abs_le.2 (PoolAutoscaler.mapOutput_bounds c _ 1 zero_le_one hlo hhi)
    obtain ⟨hge, hle, habs⟩ := PoolAutoscaler.clampDelta_spec (liveConfig config.minDwellS hdwell) s.replicas
      (mapOutput c (c.clamp (c.unclamped error config.tickS)) 1) hmin hmax
    have hd : d.delta = asked hdwell s.replicas c error := hdelta
    rw [hd]
    refine ⟨habs.trans hstep, hge, hle, fun hneg => ?_⟩
    exact Int.toNat_eq_zero.1 (hdrain hneg)

/-! ## The records of a run -/

/-- What a record says, after the records before it. -/
structure Recorded (past : List TickRecord) (r : TickRecord) : Prop where
  bounds : 1 ≤ r.replicasVirtual ∧ r.replicasVirtual ≤ 8
  total  : r.replicasVirtual = 1 + ((past ++ [r]).map TickRecord.decisionDelta).sum
  step   : |r.decisionDelta| ≤ 1
  drain  : r.decisionDelta < 0 → r.inFlightRunning ≤ 0

/-- The record is of this turn of the loop. -/
def Reads (parser : BodyParser) (x : Phase × Reading) (record : TickRecord) : Prop :=
  x.2.signal parser = .ok (record.queueWaiting, record.inFlightRunning) ∧ record.ts = roundMillis x.2.wall ∧
    record.phase = x.1.name

/-- What a live run keeps: the count is in its bounds and is what the records add up to, and so are the flips; no drain
violation. -/
structure Accounted (s : Live) : Prop where
  bounds  : 1 ≤ s.replicas ∧ s.replicas ≤ 8
  total   : s.replicas = 1 + (s.records.map TickRecord.decisionDelta).sum
  calm    : s.drainViolations = 0
  flips   : s.flips = (s.records.filter (fun r => r.decisionDelta ≠ 0)).length
  records : ∀ past r later, s.records = past ++ r :: later → Recorded past r

/-- A live run at a controller and a last flip, with nothing on its books that should not be there. -/
structure Steady (s : Live) (c : PidController) (last : Option ℚ) : Prop where
  view  : s.scaler.view .colocated = liveView hdwell c last
  tuned : Tuned c
  books : Accounted s

theorem steady_start : Steady hdwell (.start (PoolAutoscaler.fresh (liveConfig config.minDwellS hdwell)
    (OrdDict.ofList [(.colocated, 0)]) (fun _ => PidController.deployedPid) false)) PidController.deployedPid none :=
  ⟨rfl, tuned_deployedPid, ⟨⟨le_refl 1, live_max⟩, rfl, rfl, rfl, Runs.forall_split_nil⟩⟩

/-- The replica count moves by the delta: the floor of the script is never below the autoscaler's. -/
theorem observe_replicas {s : Live} {d : AutoscalerDecision} (h : 1 ≤ s.replicas + d.delta) (phase : Phase) (r : Reading)
    (waiting running : Int) : (s.observe phase r waiting running d).replicas = s.replicas + d.delta := by
  unfold Live.observe
  by_cases h0 : d.delta = 0
  · simp [h0]
  · simp only [ne_eq, h0, not_false_eq_true, if_true]
    exact max_eq_right h

/-- **A tick keeps the books.** -/
theorem accounted_observe {s : Live} (h : Accounted s) {d : AutoscalerDecision} (hstep : |d.delta| ≤ 1)
    (hmin : 1 ≤ s.replicas + d.delta) (hmax : s.replicas + d.delta ≤ 8) (phase : Phase) (r : Reading)
    (waiting : Int) {running : Int} (hdrain : d.delta < 0 → running ≤ 0) :
    Accounted (s.observe phase r waiting running d) := by
  have hcount := observe_replicas hmin phase r waiting running
  have hsum : (((s.observe phase r waiting running d).records).map TickRecord.decisionDelta).sum =
      (s.records.map TickRecord.decisionDelta).sum + d.delta := by
    simp [Live.observe, tickRecord]
  have htotal : s.replicas + d.delta =
      1 + ((s.observe phase r waiting running d).records.map TickRecord.decisionDelta).sum := by
    rw [hsum, h.total]
    ring
  refine ⟨by rw [hcount]; exact ⟨hmin, hmax⟩, by rw [hcount, htotal], ?_, ?_, ?_⟩
  · have hnone : ¬ (d.delta < 0 ∧ 0 < running) := fun hv => absurd (hdrain hv.1) (not_le.2 hv.2)
    simp only [Live.observe, if_neg hnone]
    exact h.calm
  · by_cases h0 : d.delta = 0
    · simp [Live.observe, tickRecord, h0, h.flips]
    · simp [Live.observe, tickRecord, h0, h.flips]
  · refine Runs.forall_split_snoc h.records ⟨?_, ?_, hstep, hdrain⟩
    · show 1 ≤ (s.observe phase r waiting running d).replicas ∧ (s.observe phase r waiting running d).replicas ≤ 8
      rw [hcount]
      exact ⟨hmin, hmax⟩
    · show (s.observe phase r waiting running d).replicas = _
      rw [hcount]
      exact htotal

/-- **A tick that read a signal keeps a run steady.** -/
theorem steady_liveTick (htick : 0 < config.tickS) (htarget : 0 ≤ config.targetQueueDepth) {s : Live}
    {c : PidController} {last : Option ℚ} (h : Steady hdwell s c last) (phase : Phase) {r : Reading}
    {waiting running : Int} (hsignal : r.signal parser = .ok (waiting, running)) :
    ∃ d s', liveTick parser config s phase r = .ok s' ∧ Ticked hdwell s s' phase r waiting running c last d ∧
      s'.replicas = s.replicas + d.delta ∧
      (∃ x, s'.records = s.records ++ [x] ∧ Reads parser (phase, r) x) ∧
      Steady hdwell s' (c.next ((waiting - config.targetQueueDepth : Int) : ℚ) config.tickS)
        (if d.delta ≠ 0 then some r.now else last) := by
  obtain ⟨hmin, hmax⟩ := h.books.bounds
  obtain ⟨d, s', hok, hticked⟩ := liveTick_eq hdwell htick htarget h.view (by omega) phase hsignal
  obtain ⟨hstep, hge, hle, hdrain⟩ := decided_spec hdwell c last r.now
    ((waiting - config.targetQueueDepth : Int) : ℚ) running hmin hmax
  rw [← hticked.decided] at hstep hge hle hdrain
  obtain ⟨scaler, hs'⟩ := hticked.after
  refine ⟨d, s', hok, hticked, ?_, ?_, hticked.view, h.tuned.next _ htick, ?_⟩
  · rw [hs']
    exact observe_replicas (s := { s with scaler := scaler }) hge phase r _ _
  · rw [hs']
    exact ⟨_, rfl, hsignal, rfl, rfl⟩
  · rw [hs']
    exact accounted_observe (s := { s with scaler := scaler })
      ⟨h.books.bounds, h.books.total, h.books.calm, h.books.flips, h.books.records⟩ hstep hge hle phase r _ hdrain

/-! ## Whole runs -/

/-- **A run whose every turn read a signal returns**, steady, with one record for each turn. -/
theorem steady_ticks (htick : 0 < config.tickS) (htarget : 0 ≤ config.targetQueueDepth) :
    ∀ (l : List (Phase × Reading)) {s : Live} {c : PidController} {last : Option ℚ}, Steady hdwell s c last →
      (∀ x ∈ l, ∃ signal, x.2.signal parser = .ok signal) →
      ∃ s' c' last', ticks parser config l s = .ok s' ∧ Steady hdwell s' c' last' ∧
        (∀ f, last' = some f → last = some f ∨ ∃ x ∈ l, f = x.2.now) ∧
        ∃ new, s'.records = s.records ++ new ∧ List.Forall₂ (Reads parser) l new
  | [], s, c, last, h, _ => ⟨s, c, last, rfl, h, fun f hf => Or.inl hf, [], (List.append_nil _).symm, .nil⟩
  | (phase, r) :: l, s, c, last, h, hall => by
    obtain ⟨⟨waiting, running⟩, hsignal⟩ := hall (phase, r) List.mem_cons_self
    obtain ⟨d, s₁, hok, -, -, ⟨x, hx, hreads⟩, hsteady⟩ :=
      steady_liveTick hdwell htick htarget h phase hsignal
    obtain ⟨s', c', last', hrest, hsteady', hflip, new, hnew, hall'⟩ :=
      steady_ticks htick htarget l hsteady (fun y hy => hall y (List.mem_cons_of_mem _ hy))
    refine ⟨s', c', last', ?_, hsteady', fun f hf => ?_, x :: new, ?_, .cons hreads hall'⟩
    · unfold ticks
      rw [hok]
      exact hrest
    · rcases hflip f hf with hf | ⟨y, hy, rfl⟩
      · split at hf
        · exact Or.inr ⟨(phase, r), List.mem_cons_self, (Option.some.inj hf).symm⟩
        · exact Or.inl hf
      · exact Or.inr ⟨y, List.mem_cons_of_mem _ hy, rfl⟩
    · rw [hnew, hx, List.append_assoc]
      rfl

end Live

/-- A run that returns read a signal at every turn. -/
theorem signal_of_ticks {parser : BodyParser} {config : Config} : ∀ {l : List (Phase × Reading)} {s s' : Live},
    ticks parser config l s = .ok s' → ∀ x ∈ l, ∃ signal, x.2.signal parser = .ok signal
  | [], _, _, _, x, hx => by cases hx
  | (phase, r) :: l, s, s', h, x, hx => by
    unfold ticks at h
    cases hok : liveTick parser config s phase r with
    | error e =>
      rw [hok] at h
      cases h
    | ok s₁ =>
      rw [hok] at h
      rcases List.mem_cons.1 hx with rfl | hx
      · cases hr : r.signal parser with
        | ok signal => exact ⟨signal, rfl⟩
        | error e =>
          unfold liveTick at hok
          rw [hr] at hok
          cases hok
      · exact signal_of_ticks h x hx

theorem ticks_append (parser : BodyParser) (config : Config) (later : List (Phase × Reading)) :
    ∀ (l : List (Phase × Reading)) (s : Live),
      ticks parser config (l ++ later) s = (ticks parser config l s).bind (ticks parser config later)
  | [], _ => rfl
  | (phase, r) :: l, s => by
    rw [List.cons_append]
    simp only [ticks, bind]
    cases liveTick parser config s phase r with
    | error e => rfl
    | ok s   => exact ticks_append parser config later l s

/-- The phases are one run, each with the turns before its deadline. -/
theorem runPhases_eq (parser : BodyParser) (config : Config) : ∀ (ps : List PhaseRun) (s : Live),
    runPhases parser config ps s = ticks parser config (ps.flatMap (fun p => p.taken config)) s
  | [], _ => rfl
  | p :: ps, s => by
    rw [List.flatMap_cons, ticks_append]
    simp only [runPhases, bind]
    cases ticks parser config (p.taken config) s with
    | error e => rfl
    | ok s   => exact runPhases_eq parser config ps s

/-- The turns of all phases. -/
def turns (config : Config) (phases : List PhaseRun) : List (Phase × Reading) :=
  phases.flatMap (fun p => p.taken config)

/-- The state of the script before its first phase. -/
def liveStart {config : Config} (hdwell : 0 ≤ config.minDwellS) : Live :=
  .start (PoolAutoscaler.fresh (liveConfig config.minDwellS hdwell) (OrdDict.ofList [(.colocated, 0)])
    (fun _ => PidController.deployedPid) false)

theorem runExperiment_eq (parser : BodyParser) {config : Config} (hdwell : 0 ≤ config.minDwellS)
    (phases : List PhaseRun) (statusCounts : OrdDict Text Nat) (outPath : Text) :
    runExperiment parser config phases statusCounts outPath =
      (ticks parser config (turns config phases) (liveStart hdwell)).bind
        (fun s => .ok (s.records, summarize config s statusCounts phases outPath)) := by
  unfold runExperiment buildAutoscaler turns
  rw [dif_pos hdwell, ← runPhases_eq]
  rfl

theorem signal_of_runExperiment {parser : BodyParser} {config : Config} (hdwell : 0 ≤ config.minDwellS)
    {phases : List PhaseRun} {statusCounts : OrdDict Text Nat} {outPath : Text} {out : List TickRecord × Summary}
    (h : runExperiment parser config phases statusCounts outPath = .ok out) :
    ∀ x ∈ turns config phases, ∃ signal, x.2.signal parser = .ok signal := by
  rw [runExperiment_eq parser hdwell] at h
  cases hticks : ticks parser config (turns config phases) (liveStart hdwell) with
  | error e =>
    rw [hticks] at h
    cases h
  | ok s => exact signal_of_ticks hticks

/-- A turn reads a signal exactly when it scraped a body and the body is legible. -/
theorem signal_ok_iff (parser : BodyParser) (r : Reading) :
    (∃ signal, r.signal parser = .ok signal) ↔ ∃ body, r.scrape = .ok body ∧ Legible parser body := by
  simp only [Reading.signal, Act.except_bind_ok_iff, ← scrapedSignal_ok_iff]
  exact ⟨fun ⟨signal, body, hbody, h⟩ => ⟨body, hbody, signal, h⟩,
    fun ⟨body, hbody, signal, h⟩ => ⟨signal, body, hbody, h⟩⟩

/-- **The live experiment.**  For every choice of a positive tick, a target and a dwell time, and every run of the phases,
whatever the clocks, the server and the exposition parser make of it: the experiment returns, and so writes its records,
exactly when every turn of its loop scraped a legible body.  Its records are then the turns in their order, the count on
each is in 1..8 and is one and the deltas so far, each delta is at most one step, no downward delta has requests running,
and `main` exits with 0. -/
theorem live_run_safe (parser : BodyParser) (config : Config) (phases : List PhaseRun)
    (statusCounts : OrdDict Text Nat) (outPath : Text) (baseUrl : Text) (htick : 0 < config.tickS)
    (htarget : 0 ≤ config.targetQueueDepth) (hdwell : 0 ≤ config.minDwellS) (hurl : baseUrl ≠ []) :
    ((∃ out, runExperiment parser config phases statusCounts outPath = .ok out) ↔
      ∀ x ∈ turns config phases, ∃ body, x.2.scrape = .ok body ∧ Legible parser body) ∧
    ∀ records summary, runExperiment parser config phases statusCounts outPath = .ok (records, summary) →
      main (some baseUrl) parser config phases statusCounts outPath = .ok 0 ∧ summary.drainViolations = 0 ∧
      summary.flips = (records.filter (fun r => r.decisionDelta ≠ 0)).length ∧
      List.Forall₂ (Reads parser) (turns config phases) records ∧
      ∀ past r later, records = past ++ r :: later → Recorded past r := by
  have hreturns : (∀ x ∈ turns config phases, ∃ signal, x.2.signal parser = .ok signal) → ∃ s c last,
      runExperiment parser config phases statusCounts outPath =
        .ok (s.records, summarize config s statusCounts phases outPath) ∧
      Steady hdwell s c last ∧ List.Forall₂ (Reads parser) (turns config phases) s.records := by
    intro hall
    obtain ⟨s, c, last, hticks, hsteady, -, new, hnew, hreads⟩ :=
      steady_ticks hdwell htick htarget _ (steady_start hdwell) hall
    refine ⟨s, c, last, ?_, hsteady, ?_⟩
    · rw [runExperiment_eq parser hdwell, liveStart, hticks]
      rfl
    · rw [show s.records = new from hnew]
      exact hreads
  refine ⟨⟨fun ⟨out, hout⟩ x hx => ?_, fun hall => ?_⟩, fun records summary hout => ?_⟩
  · exact (signal_ok_iff parser x.2).1 (signal_of_runExperiment hdwell hout x hx)
  · obtain ⟨s, -, -, hok, -⟩ := hreturns (fun x hx => (signal_ok_iff parser x.2).2 (hall x hx))
    exact ⟨_, hok⟩
  · obtain ⟨s, c, last, hok, hsteady, hreads⟩ := hreturns (signal_of_runExperiment hdwell hout)
    have hmain : main (some baseUrl) parser config phases statusCounts outPath = .ok 0 := by
      have hgiven : ¬ (some baseUrl).getD [] = [] := hurl
      unfold main
      rw [if_neg hgiven, hok]
      simp [bind, Except.bind, pure, Except.pure, summarize, hsteady.books.calm]
    rw [hok] at hout
    obtain ⟨rfl, rfl⟩ := Prod.ext_iff.1 (Except.ok.inj hout)
    exact ⟨hmain, hsteady.books.calm, hsteady.books.flips, hreads, hsteady.books.records⟩

def shiftConfig : Config := ⟨2, 4, 10⟩

/-- Two turns of the first phase: twenty requests waiting, then none. -/
def shiftPhases : List PhaseRun :=
  [⟨⟨"prompt_heavy".toList, 60⟩, 0,
    [⟨0, .ok "vllm:num_requests_waiting 20".toList, 0, 1000⟩, ⟨2, .ok [], 2, 1002⟩]⟩]

theorem shift_run_safe :
    main (some ['u']) plainParser.body shiftConfig shiftPhases OrdDict.empty [] = .ok 0 := by
  have hlive := live_run_safe plainParser.body shiftConfig shiftPhases OrdDict.empty [] ['u'] (by decide +kernel)
    (by decide) (by decide +kernel) (by decide)
  have hscraped : ∀ x ∈ turns shiftConfig shiftPhases, ∃ body, x.2.scrape = .ok body ∧ Legible plainParser.body body := by
    intro x hx
    obtain ⟨p, hp, hx⟩ := List.mem_flatMap.1 hx
    obtain rfl := List.mem_singleton.1 hp
    obtain ⟨r, hr, rfl⟩ := List.mem_map.1 hx
    rcases List.mem_cons.1 ((List.takeWhile_subset _) hr) with rfl | hr
    · exact ⟨_, rfl, legible_body plainParser _⟩
    · obtain rfl := List.mem_singleton.1 hr
      exact ⟨_, rfl, legible_body plainParser _⟩
  obtain ⟨⟨records, summary⟩, hok⟩ := hlive.1.2 hscraped
  exact (hlive.2 records summary hok).1

end AutoscalerLive
end GoodputLab
