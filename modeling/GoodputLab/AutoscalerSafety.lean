import GoodputLab.Autoscaler
/-!
# AutoscalerSafety — whole runs of the autoscaler and the caller that applies it

`PoolTick` says all one tick can do to one pool: nothing, or one flip inside the replica bounds and the step, past the
drain gate and past the dwell gate (`tickPool_spec`).  A tick is that for every pool of its topology (`tickPools_spec`),
and a run in which the caller applies each delta keeps, pool by pool, the bounds, the gates and the spacing of the
flips (`run_poolSafe`).
-/
namespace GoodputLab
namespace PoolAutoscaler

/-! ## One pool -/

theorem mapOutput_bounds (c : PidController) (raw : ℚ) (step : Int) (hstep : 0 ≤ step) (hmin : c.outMin ≤ raw)
    (hmax : raw ≤ c.outMax) : -step ≤ mapOutput c raw step ∧ mapOutput c raw step ≤ step := by
  have hspan : 0 < c.outMax - c.outMin := sub_pos.2 c.outLt
  have hstep' : (0 : ℚ) ≤ step := by exact_mod_cast hstep
  have h0 : 0 ≤ (raw - c.outMin) / (c.outMax - c.outMin) := div_nonneg (sub_nonneg.2 hmin) (le_of_lt hspan)
  have h1 : (raw - c.outMin) / (c.outMax - c.outMin) ≤ 1 := (div_le_one hspan).2 (by linarith)
  unfold mapOutput
  simp only [if_neg (not_le.2 hspan)]
  generalize (raw - c.outMin) / (c.outMax - c.outMin) = x at h0 h1
  constructor
  · refine le_roundHalfEven ?_
    push_cast
    nlinarith
  · refine roundHalfEven_le ?_
    nlinarith

/-- From inside the replica bounds the clamp stays inside them and only shortens the delta. -/
theorem clampDelta_spec (config : AutoscalerConfig) (replicas delta : Int) (hmin : config.minReplicas ≤ replicas)
    (hmax : replicas ≤ config.maxReplicas) :
    config.minReplicas ≤ replicas + clampDelta config replicas delta ∧
      replicas + clampDelta config replicas delta ≤ config.maxReplicas ∧
      |clampDelta config replicas delta| ≤ |delta| := by
  have hge := config.maxGe
  unfold clampDelta
  simp only
  split_ifs with hlo hhi
  · refine ⟨by omega, by omega, ?_⟩
    rw [abs_of_nonpos (by omega), abs_of_nonpos (by omega)]
    omega
  · refine ⟨by omega, by omega, ?_⟩
    rw [abs_of_nonneg (by omega), abs_of_nonneg (by omega)]
    omega
  · exact ⟨by omega, by omega, le_refl _⟩

/-- All a tick can do to pool `p` at `replicas` replicas, last flipped at `last`: no flip and no change, or one flip
inside the bounds and the step, with nothing in flight if it is downward and with the dwell time past. -/
def PoolTick (config : AutoscalerConfig) (t : TickArgs) (p : Pool) (replicas : Int) (last : Option ℚ)
    (d : AutoscalerDecision) (last' : Option ℚ) : Prop :=
  d.pool = p ∧
    ((d.delta = 0 ∧ last' = last) ∨
      (d.delta ≠ 0 ∧ last' = some t.now ∧ config.minReplicas ≤ replicas + d.delta ∧
        replicas + d.delta ≤ config.maxReplicas ∧ |d.delta| ≤ config.stepSize ∧
        (d.delta < 0 → t.inFlightOf p = 0) ∧
        ∀ s, last = some s → 0 < config.minDwellS → config.minDwellS ≤ t.now - s))

theorem tickPool_spec (t : TickArgs) (a : PoolAutoscaler) (p : Pool) (topo : PoolTopology) (hdt : 0 < t.dt)
    (hmin : a.config.minReplicas ≤ topo.replicas) (hmax : topo.replicas ≤ a.config.maxReplicas) :
    ∃ d a', tickPool t a p topo = .ok (d, a') ∧ a'.config = a.config ∧
      PoolTick a.config t p topo.replicas (a.lastFlipTs.get? p) d (a'.lastFlipTs.get? p) ∧
      ∀ q, q ≠ p → a'.lastFlipTs.get? q = a.lastFlipTs.get? q := by
  unfold tickPool
  cases a.controllers.get? p with
  | none => exact ⟨_, _, rfl, rfl, ⟨rfl, Or.inl ⟨rfl, rfl⟩⟩, fun _ _ => rfl⟩
  | some ref =>
    simp only
    obtain ⟨raw, c, hu, hlo, hhi, -, hcmin, hcmax⟩ :=
      (a.pids ref).update_spec (((t.queueDepths.get? p).getD 0 - topo.targetQueueDepth : Int) : ℚ) t.dt hdt
    rw [hu]
    simp only
    rw [← hcmin] at hlo
    rw [← hcmax] at hhi
    have hmap := mapOutput_bounds c raw a.config.stepSize (le_trans zero_le_one a.config.stepGe) hlo hhi
    obtain ⟨hge, hle, habs⟩ := clampDelta_spec a.config topo.replicas (mapOutput c raw a.config.stepSize) hmin hmax
    have hstep : |mapOutput c raw a.config.stepSize| ≤ a.config.stepSize := abs_le.2 hmap
    generalize clampDelta a.config topo.replicas (mapOutput c raw a.config.stepSize) = delta at hge hle habs
    split
    · exact ⟨_, _, rfl, rfl, ⟨rfl, Or.inl ⟨rfl, rfl⟩⟩, fun _ _ => rfl⟩
    rename_i hdrain
    split
    · exact ⟨_, _, rfl, rfl, ⟨rfl, Or.inl ⟨rfl, rfl⟩⟩, fun _ _ => rfl⟩
    rename_i hdwell
    by_cases h0 : delta = 0
    · subst h0
      exact ⟨_, _, rfl, rfl, ⟨rfl, Or.inl ⟨rfl, rfl⟩⟩, fun _ _ => rfl⟩
    · refine ⟨_, _, rfl, ?_, ⟨rfl, Or.inr ⟨h0, ?_, hge, hle, le_trans habs hstep, fun hneg => ?_, fun s hs hpos => ?_⟩⟩,
        fun q hq => ?_⟩
      · rw [if_pos h0]
        rfl
      · rw [if_pos h0]
        exact OrdDict.get?_set_self _ _ _
      · exact Nat.eq_zero_of_not_pos (fun hpos => hdrain ⟨hneg, hpos⟩)
      · refine not_lt.1 (fun hlt => hdwell ⟨h0, hpos, ?_⟩)
        simp [flippedWithin, hs, hlt]
      · rw [if_pos h0]
        exact OrdDict.get?_set_of_ne _ _ hq

/-! ## One tick -/

/-- All a tick can do to pool `p`: nothing, when the topology leaves it out, or its one decision. -/
def PoolSeen (config : AutoscalerConfig) (t : TickArgs) (p : Pool) (replicas : Int) (last : Option ℚ)
    (ds : List AutoscalerDecision) (last' : Option ℚ) : Prop :=
  (ds = [] ∧ last' = last) ∨ ∃ d, ds = [d] ∧ PoolTick config t p replicas last d last'

def decisionsFor (p : Pool) (ds : List AutoscalerDecision) : List AutoscalerDecision := ds.filter (fun d => d.pool = p)

/-- **A tick returns and does to each pool what `PoolSeen` allows.** -/
theorem tickPools_spec (t : TickArgs) (hdt : 0 < t.dt) (fleet : Pool → Int) :
    ∀ (l : List (Pool × PoolTopology)) (a : PoolAutoscaler), (l.map Prod.fst).Nodup →
      (∀ x ∈ l, x.2.replicas = fleet x.1) →
      (∀ p, a.config.minReplicas ≤ fleet p ∧ fleet p ≤ a.config.maxReplicas) →
      ∃ ds a', tickPools t l a = .ok (ds, a') ∧ a'.config = a.config ∧ ∀ p,
        PoolSeen a.config t p (fleet p) (a.lastFlipTs.get? p) (decisionsFor p ds) (a'.lastFlipTs.get? p) ∧
        (p ∉ l.map Prod.fst → decisionsFor p ds = [] ∧ a'.lastFlipTs.get? p = a.lastFlipTs.get? p)
  | [], a, _, _, _ => ⟨[], a, rfl, rfl, fun _ => ⟨Or.inl ⟨rfl, rfl⟩, fun _ => ⟨rfl, rfl⟩⟩⟩
  | (q, topo) :: rest, a, hnd, hfl, hrange => by
    rw [List.map_cons, List.nodup_cons] at hnd
    have hq : topo.replicas = fleet q := hfl (q, topo) (by simp)
    obtain ⟨d, a₁, hstep, hcfg, htick, hother⟩ :=
      tickPool_spec t a q topo hdt (hq ▸ (hrange q).1) (hq ▸ (hrange q).2)
    obtain ⟨ds, a₂, hrest, hcfg₂, hall⟩ := tickPools_spec t hdt fleet rest a₁ hnd.2
      (fun x hx => hfl x (by simp [hx])) (by rw [hcfg]; exact hrange)
    rw [hcfg] at hall
    have hok : tickPools t ((q, topo) :: rest) a = .ok (d :: ds, a₂) := by
      simp [tickPools, hstep, hrest, bind, Except.bind, pure, Except.pure]
    refine ⟨d :: ds, a₂, hok, hcfg₂.trans hcfg, fun p => ?_⟩
    obtain ⟨hseen, hout⟩ := hall p
    by_cases hp : p = q
    · -- the pool just decided: its key is not in the rest, which leaves it as it is
      subst hp
      obtain ⟨hnil, hlast⟩ := hout hnd.1
      refine ⟨Or.inr ⟨d, ?_, ?_⟩, fun hnot => absurd (by simp) hnot⟩
      · rw [decisionsFor, List.filter_cons_of_pos (by simp [htick.1])]
        exact congrArg (d :: ·) hnil
      · rw [hlast, ← hq]
        exact htick
    · have hskip : decisionsFor p (d :: ds) = decisionsFor p ds := by
        rw [decisionsFor, List.filter_cons_of_neg (by simp [htick.1, Ne.symm hp])]
        rfl
      rw [hskip, ← hother p hp]
      refine ⟨hseen, fun hnot => hout (fun hm => hnot ?_)⟩
      exact List.mem_cons_of_mem _ hm

/-! ## Runs -/

def applyDeltas (ds : List AutoscalerDecision) (fleet : Pool → Int) : Pool → Int :=
  ds.foldl (fun fleet d => Function.update fleet d.pool (fleet d.pool + d.delta)) fleet

structure Record where
  args      : TickArgs
  decisions : List AutoscalerDecision

/-- Runs of an autoscaler with a caller that applies it: the clock never goes back, `dt` is positive, each tick's
topology holds the current replica counts, and the counts move by the deltas decided. -/
inductive Run (a : PoolAutoscaler) (fleet : Pool → Int) : List Record → PoolAutoscaler → (Pool → Int) → Prop
  | start : Run a fleet [] a fleet
  | tick {log : List Record} {b : PoolAutoscaler} {cur : Pool → Int} (t : TickArgs)
      {ds : List AutoscalerDecision} {b' : PoolAutoscaler} :
      Run a fleet log b cur → (∀ r ∈ log, r.args.now ≤ t.now) → 0 < t.dt →
      (∀ p s, t.topology.get? p = some s → s.replicas = cur p) → b.tick t = .ok (ds, b') →
      Run a fleet (log ++ [⟨t, ds⟩]) b' (applyDeltas ds cur)

def flipTimes (p : Pool) (log : List Record) : List ℚ :=
  log.flatMap (fun r => ((decisionsFor p r.decisions).filter (fun d => d.delta ≠ 0)).map (fun _ => r.args.now))

theorem applyDeltas_apply (p : Pool) : ∀ (ds : List AutoscalerDecision) (fleet : Pool → Int),
    applyDeltas ds fleet p = fleet p + ((decisionsFor p ds).map AutoscalerDecision.delta).sum
  | [], fleet => by simp [applyDeltas, decisionsFor]
  | d :: ds, fleet => by
    have ih := applyDeltas_apply p ds (Function.update fleet d.pool (fleet d.pool + d.delta))
    rw [show applyDeltas (d :: ds) fleet =
      applyDeltas ds (Function.update fleet d.pool (fleet d.pool + d.delta)) from rfl, ih]
    by_cases hp : d.pool = p
    · subst hp
      simp [decisionsFor, add_assoc]
    · simp [decisionsFor, hp, Function.update_of_ne (Ne.symm hp)]

/-- What a run keeps for pool `p`: the replica bounds, the step and the drain gate on every decision, and flips spaced by
the dwell time, the last of them the one on record. -/
structure PoolSafe (config : AutoscalerConfig) (p : Pool) (log : List Record) (b : PoolAutoscaler) (cur : Pool → Int) :
    Prop where
  bounds  : config.minReplicas ≤ cur p ∧ cur p ≤ config.maxReplicas
  gated   : ∀ r ∈ log, ∀ d ∈ decisionsFor p r.decisions, |d.delta| ≤ config.stepSize ∧
    (d.delta < 0 → r.args.inFlightOf p = 0)
  spaced  : (flipTimes p log).Pairwise (fun s s' => config.minDwellS ≤ s' - s)
  last    : b.lastFlipTs.get? p = (flipTimes p log).getLast?
  past    : ∀ s ∈ flipTimes p log, ∃ r ∈ log, s = r.args.now

theorem spaced_snoc {w now : ℚ} (hw : 0 ≤ w) : ∀ (l : List ℚ), l.Pairwise (fun s s' => w ≤ s' - s) →
    (∀ s, l.getLast? = some s → w ≤ now - s) → ∀ s ∈ l, w ≤ now - s
  | [], _, _, _, hs => by cases hs
  | [x], _, hl, s, hs => by
    obtain rfl := List.mem_singleton.1 hs
    exact hl s rfl
  | x :: y :: l, hp, hl, s, hs => by
    rw [List.pairwise_cons] at hp
    have hrest := spaced_snoc hw (y :: l) hp.2 (fun s h => hl s (by rw [List.getLast?_cons_cons]; exact h))
    rcases List.mem_cons.1 hs with rfl | hs
    · have h1 := hp.1 y (by simp)
      have h2 := hrest y (by simp)
      linarith
    · exact hrest s hs

theorem flipTimes_snoc (p : Pool) (log : List Record) (t : TickArgs) (ds : List AutoscalerDecision) :
    flipTimes p (log ++ [⟨t, ds⟩]) = flipTimes p log ++
      ((decisionsFor p ds).filter (fun d => d.delta ≠ 0)).map (fun _ => t.now) := by
  simp [flipTimes]

theorem past_snoc {p : Pool} {log : List Record} (h : ∀ s ∈ flipTimes p log, ∃ r ∈ log, s = r.args.now) (t : TickArgs)
    (ds : List AutoscalerDecision) :
    ∀ s ∈ flipTimes p (log ++ [⟨t, ds⟩]), ∃ r ∈ log ++ [⟨t, ds⟩], s = r.args.now := by
  intro s hs
  rw [flipTimes_snoc, List.mem_append] at hs
  rcases hs with hs | hs
  · obtain ⟨r, hr, he⟩ := h s hs
    exact ⟨r, by simp [hr], he⟩
  · obtain ⟨d, -, rfl⟩ := List.mem_map.1 hs
    exact ⟨⟨t, ds⟩, by simp, rfl⟩

theorem poolSafe_quiet {config : AutoscalerConfig} {p : Pool} {log : List Record} {b b' : PoolAutoscaler}
    {cur : Pool → Int} {t : TickArgs} {ds : List AutoscalerDecision} (h : PoolSafe config p log b cur)
    (hz : ∀ d ∈ decisionsFor p ds, d.delta = 0) (hlast : b'.lastFlipTs.get? p = b.lastFlipTs.get? p) :
    PoolSafe config p (log ++ [⟨t, ds⟩]) b' (applyDeltas ds cur) := by
  have hflips : flipTimes p (log ++ [⟨t, ds⟩]) = flipTimes p log := by
    rw [flipTimes_snoc, List.filter_eq_nil_iff.2 (fun d hd => by simp [hz d hd])]
    simp
  have hsum : ((decisionsFor p ds).map AutoscalerDecision.delta).sum = 0 :=
    List.sum_eq_zero (fun x hx => by
      obtain ⟨d, hd, rfl⟩ := List.mem_map.1 hx
      exact hz d hd)
  refine ⟨?_, fun r hr d hd => ?_, hflips ▸ h.spaced, by rw [hlast, hflips]; exact h.last, past_snoc h.past t ds⟩
  · rw [applyDeltas_apply, hsum, add_zero]
    exact h.bounds
  · rcases List.mem_append.1 hr with hr | hr
    · exact h.gated r hr d hd
    · obtain rfl := List.mem_singleton.1 hr
      rw [hz d hd]
      exact ⟨by simpa using le_trans zero_le_one config.stepGe, fun hneg => absurd hneg (lt_irrefl 0)⟩

theorem dwelled {config : AutoscalerConfig} {p : Pool} {log : List Record} {b : PoolAutoscaler} {cur : Pool → Int}
    {now : ℚ} (h : PoolSafe config p log b cur) (hclock : ∀ r ∈ log, r.args.now ≤ now)
    (hdwell : ∀ s, b.lastFlipTs.get? p = some s → 0 < config.minDwellS → config.minDwellS ≤ now - s) :
    ∀ s ∈ flipTimes p log, config.minDwellS ≤ now - s := by
  refine spaced_snoc config.dwellGe _ h.spaced (fun s hs => ?_)
  rcases config.dwellGe.eq_or_lt with hz | hpos
  · obtain ⟨r, hr, rfl⟩ := h.past s (List.mem_of_getLast? hs)
    rw [← hz]
    exact sub_nonneg.2 (hclock r hr)
  · exact hdwell s (by rw [h.last]; exact hs) hpos

/-- **One more tick keeps every pool safe.** -/
theorem poolSafe_tick (config : AutoscalerConfig) (p : Pool) (log : List Record) (b b' : PoolAutoscaler)
    (cur : Pool → Int) (t : TickArgs) (ds : List AutoscalerDecision) (h : PoolSafe config p log b cur)
    (hclock : ∀ r ∈ log, r.args.now ≤ t.now)
    (hseen : PoolSeen config t p (cur p) (b.lastFlipTs.get? p) (decisionsFor p ds) (b'.lastFlipTs.get? p)) :
    PoolSafe config p (log ++ [⟨t, ds⟩]) b' (applyDeltas ds cur) := by
  rcases hseen with ⟨hnil, hlast⟩ | ⟨d, hd, -, hflat | hflip⟩
  · exact poolSafe_quiet h (by simp [hnil]) hlast
  · exact poolSafe_quiet h (by simp [hd, hflat.1]) hflat.2
  · obtain ⟨h0, hlast, hmin, hmax, hstep, hdrain, hdwell⟩ := hflip
    have hflips : flipTimes p (log ++ [⟨t, ds⟩]) = flipTimes p log ++ [t.now] := by
      rw [flipTimes_snoc, hd]
      simp [h0]
    refine ⟨?_, fun r hr e he => ?_, ?_, by rw [hlast, hflips]; simp, past_snoc h.past t ds⟩
    · rw [applyDeltas_apply, hd]
      simpa using ⟨hmin, hmax⟩
    · rcases List.mem_append.1 hr with hr | hr
      · exact h.gated r hr e he
      · obtain rfl := List.mem_singleton.1 hr
        rw [hd, List.mem_singleton] at he
        subst he
        exact ⟨hstep, hdrain⟩
    · rw [hflips, List.pairwise_append]
      refine ⟨h.spaced, List.pairwise_singleton _ _, fun s hs s' hs' => ?_⟩
      obtain rfl := List.mem_singleton.1 hs'
      exact dwelled h hclock hdwell s hs

/-- **Every run of a fresh autoscaler keeps every pool safe.** -/
theorem run_poolSafe {config : AutoscalerConfig} {controllers : OrdDict Pool Nat} {pids : Nat → PidController}
    {metrics : Bool} {fleet cur : Pool → Int} {log : List Record} {b : PoolAutoscaler}
    (hrun : Run (fresh config controllers pids metrics) fleet log b cur)
    (hfleet : ∀ p, config.minReplicas ≤ fleet p ∧ fleet p ≤ config.maxReplicas) :
    b.config = config ∧ ∀ p, PoolSafe config p log b cur := by
  induction hrun with
  | start => exact ⟨rfl, fun p => ⟨hfleet p, by simp, by simp [flipTimes], rfl, by simp [flipTimes]⟩⟩
  | @tick _ b₀ cur₀ t ds₁ b₁ _ hclock hdt htopo htick ih =>
    obtain ⟨hcfg, hsafe⟩ := ih
    obtain ⟨ds', b'', hok, hcfg', hall⟩ := tickPools_spec t hdt cur₀ t.topology.items b₀ t.topology.nodup
      (fun x hx => htopo x.1 x.2 ((OrdDict.mem_items _ _ _).1 hx)) (fun p => hcfg.symm ▸ (hsafe p).bounds)
    rw [show b₀.tick t = .ok (ds', b'') from hok] at htick
    cases htick
    refine ⟨hcfg'.trans hcfg, fun p => poolSafe_tick config p _ b₀ b₁ cur₀ t ds₁ (hsafe p) hclock ?_⟩
    rw [← hcfg]
    exact (hall p).1

/-- **Whole-run safety.**  In every run of a fresh autoscaler in which every pool starts inside the replica bounds, every
pool's count stays inside them, every delta is at most the step, every scale-down is decided with nothing in flight, and
any two flips of one pool are at least the dwell time apart. -/
theorem run_safety (config : AutoscalerConfig) (controllers : OrdDict Pool Nat) (pids : Nat → PidController)
    (metrics : Bool) (fleet cur : Pool → Int) (log : List Record) (b : PoolAutoscaler)
    (hfleet : ∀ p, config.minReplicas ≤ fleet p ∧ fleet p ≤ config.maxReplicas)
    (hrun : Run (fresh config controllers pids metrics) fleet log b cur) :
    (∀ p, config.minReplicas ≤ cur p ∧ cur p ≤ config.maxReplicas) ∧
    (∀ r ∈ log, ∀ d ∈ r.decisions, |d.delta| ≤ config.stepSize ∧ (d.delta < 0 → r.args.inFlightOf d.pool = 0)) ∧
    (∀ p, (flipTimes p log).Pairwise (fun s s' => config.minDwellS ≤ s' - s)) := by
  have hsafe := (run_poolSafe hrun hfleet).2
  refine ⟨fun p => (hsafe p).bounds, fun r hr d hd => ?_, fun p => (hsafe p).spaced⟩
  exact (hsafe d.pool).gated r hr d (List.mem_filter.2 ⟨hd, by simp⟩)

def burstScaler : PoolAutoscaler :=
  fresh ⟨1, 8, 2, 120, by decide, by decide, by decide, by decide +kernel⟩ (OrdDict.ofList [(.prefill, 0)])
    (fun _ => PidController.fresh ⟨2, 0, 0, le_refl _, le_refl _⟩ (-1) 1 (by decide +kernel)) true

def burstTick : TickArgs :=
  ⟨1000, OrdDict.ofList [(.prefill, ⟨.prefill, 4, 10, by decide, by decide⟩)], OrdDict.ofList [(.prefill, 30)],
    OrdDict.empty, 1⟩

theorem burst_decisions : (burstScaler.tick burstTick).toOption.map Prod.fst =
    some [⟨.prefill, 2, .queueHigh, false⟩] := by
  decide +kernel

theorem burst_run_safe : ∃ log b cur, Run burstScaler (fun _ => 4) log b cur ∧ cur .prefill = 6 ∧
    (∀ p, 1 ≤ cur p ∧ cur p ≤ 8) ∧
    (∀ r ∈ log, ∀ d ∈ r.decisions, |d.delta| ≤ 2 ∧ (d.delta < 0 → r.args.inFlightOf d.pool = 0)) ∧
    (∀ p, (flipTimes p log).Pairwise (fun s s' => 120 ≤ s' - s)) := by
  have hdec := burst_decisions
  cases hok : burstScaler.tick burstTick with
  | error e =>
    rw [hok] at hdec
    cases hdec
  | ok x =>
    obtain ⟨ds, b⟩ := x
    rw [hok] at hdec
    obtain rfl : ds = [⟨.prefill, 2, .queueHigh, false⟩] := by simpa [Except.toOption] using hdec
    have hrun : Run burstScaler (fun _ => 4) _ b _ := .tick burstTick .start (fun r hr => by cases hr)
      (by decide +kernel) (fun p s hs => by
        rw [← OrdDict.mem_items] at hs
        have : (p, s) ∈ [(Pool.prefill, (⟨.prefill, 4, 10, by decide, by decide⟩ : PoolTopology))] := hs
        obtain ⟨-, rfl⟩ := Prod.ext_iff.1 (List.mem_singleton.1 this)
        rfl) hok
    exact ⟨_, b, _, hrun, by decide, run_safety _ _ _ true _ _ _ b (fun p => ⟨by decide, by decide⟩) hrun⟩

end PoolAutoscaler
end GoodputLab
