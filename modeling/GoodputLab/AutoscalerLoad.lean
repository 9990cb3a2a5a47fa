import GoodputLab.AutoscalerView
/-!
# AutoscalerLoad — more load never means fewer replicas

Each stage between a pool's queue depth and its delta keeps the order: the three terms, the clamp, the scaling to the
step, the rounding, the replica bounds, the drain gate and the dwell gate.  So at one state and one clock a deeper queue
never gets a smaller delta (`delta_mono_depth`), also for pools that share a controller.
-/
namespace GoodputLab

namespace PidController

theorem unclamped_mono (c : PidController) {error error' dt : ℚ} (hdt : 0 < dt) (hkp : 0 ≤ c.gains.kp)
    (h : error ≤ error') : c.unclamped error dt ≤ c.unclamped error' dt := by
  have hprop : c.gains.kp * error ≤ c.gains.kp * error' := mul_le_mul_of_nonneg_left h hkp
  have hint : c.gains.ki * (c.integral + error * dt) ≤ c.gains.ki * (c.integral + error' * dt) :=
    mul_le_mul_of_nonneg_left (add_le_add_right (mul_le_mul_of_nonneg_right h hdt.le) _) c.gains.kiGe
  unfold unclamped
  cases c.prevError with
  | none =>
    simp only
    linarith
  | some prev =>
    have hder : c.gains.kd * (error - prev) / dt ≤ c.gains.kd * (error' - prev) / dt :=
      div_le_div_of_nonneg_right (mul_le_mul_of_nonneg_left (sub_le_sub_right h _) c.gains.kdGe) hdt.le
    simp only
    linarith

theorem clamp_mono (c : PidController) {u u' : ℚ} (h : u ≤ u') : c.clamp u ≤ c.clamp u' :=
  max_le_max_left _ (min_le_min_left _ h)

end PidController

namespace PoolAutoscaler

/-! ## The stages -/

theorem mapOutput_mono (c : PidController) {raw raw' : ℚ} {step : Int} (hstep : 0 ≤ step) (h : raw ≤ raw') :
    mapOutput c raw step ≤ mapOutput c raw' step := by
  have hspan : 0 < c.outMax - c.outMin := sub_pos.2 c.outLt
  have hstep' : (0 : ℚ) ≤ step := by exact_mod_cast hstep
  unfold mapOutput
  simp only [if_neg (not_le.2 hspan)]
  refine roundHalfEven_mono (mul_le_mul_of_nonneg_right ?_ hstep')
  have hdiv : (raw - c.outMin) / (c.outMax - c.outMin) ≤ (raw' - c.outMin) / (c.outMax - c.outMin) :=
    div_le_div_of_nonneg_right (sub_le_sub_right h _) hspan.le
  linarith

theorem clampDelta_mono (config : AutoscalerConfig) (replicas : Int) {delta delta' : Int} (h : delta ≤ delta') :
    clampDelta config replicas delta ≤ clampDelta config replicas delta' := by
  have hge := config.maxGe
  unfold clampDelta
  simp only
  split_ifs <;> omega

theorem wanted_mono (config : AutoscalerConfig) (topo : PoolTopology) (c : PidController) {depth depth' : Int} {dt : ℚ}
    (hdt : 0 < dt) (hkp : 0 ≤ c.gains.kp) (h : depth ≤ depth') :
    wanted config topo c depth dt ≤ wanted config topo c depth' dt := by
  have herror : ((depth - topo.targetQueueDepth : Int) : ℚ) ≤ ((depth' - topo.targetQueueDepth : Int) : ℚ) := by
    exact_mod_cast sub_le_sub_right h _
  refine clampDelta_mono config _ (mapOutput_mono c (le_trans zero_le_one config.stepGe) ?_)
  exact c.clamp_mono (c.unclamped_mono hdt hkp herror)

/-- The drain gate lifts what is negative to zero, the dwell gate takes everything to zero. -/
theorem gate_mono (config : AutoscalerConfig) (last : Option ℚ) (now : ℚ) (p : Pool) (inFlight : Nat)
    {delta delta' : Int} (h : delta ≤ delta') :
    (gate config last now p inFlight delta).delta ≤ (gate config last now p inFlight delta').delta := by
  by_cases hdwell : 0 < config.minDwellS ∧ within config.minDwellS last now = true
  · have hzero : ∀ delta, (gate config last now p inFlight delta).delta = 0 := by
      intro delta
      by_contra hne
      have hlate := (gate_delta_ne_zero hne).2.2 hdwell.1
      rw [hdwell.2] at hlate
      cases hlate
    rw [hzero, hzero]
  · unfold gate
    simp only [hdwell, and_false, if_false]
    split_ifs <;> simp only <;> omega

theorem decide_mono (v : PoolView) (t t' : TickArgs) (p : Pool) (topo : PoolTopology) (hdt : 0 < t.dt)
    (hnow : t'.now = t.now) (hdt' : t'.dt = t.dt) (hin : t'.inFlightOf p = t.inFlightOf p)
    (hdepth : t.depthOf p ≤ t'.depthOf p) (hkp : ∀ c, v.controller = some c → 0 ≤ c.gains.kp) :
    (v.decide t p topo).delta ≤ (v.decide t' p topo).delta := by
  unfold PoolView.decide
  cases hc : v.controller with
  | none   => exact le_refl _
  | some c =>
    rw [hnow, hdt', hin]
    exact gate_mono _ _ _ _ _ (wanted_mono _ _ _ hdt (hkp c hc) hdepth)

/-! ## One tick -/

/-- The tick with `depth` as the queue depth of pool `p`. -/
def withDepth (t : TickArgs) (p : Pool) (depth : Int) : TickArgs :=
  { t with queueDepths := t.queueDepths.set p depth }

@[simp] theorem depthOf_withDepth (t : TickArgs) (p : Pool) (depth : Int) : (withDepth t p depth).depthOf p = depth := by
  simp [withDepth, TickArgs.depthOf]

theorem tickPool_withDepth (t : TickArgs) (p : Pool) (depth : Int) (a : PoolAutoscaler) {q : Pool} (hq : q ≠ p)
    (topo : PoolTopology) : tickPool (withDepth t p depth) a q topo = tickPool t a q topo := by
  unfold tickPool
  rw [show (withDepth t p depth).queueDepths.get? q = t.queueDepths.get? q from OrdDict.get?_set_of_ne _ _ hq]
  rfl

theorem tickPools_withDepth (t : TickArgs) (p : Pool) (depth : Int) : ∀ (l : List (Pool × PoolTopology))
    (a : PoolAutoscaler), p ∉ l.map Prod.fst → tickPools (withDepth t p depth) l a = tickPools t l a
  | [], _, _ => rfl
  | (q, topo) :: rest, a, hp => by
    rw [List.map_cons, List.mem_cons, not_or] at hp
    have hrest := fun b => tickPools_withDepth t p depth rest b hp.2
    simp only [tickPools, tickPool_withDepth t p depth a (Ne.symm hp.1), hrest]

/-- **A deeper queue never gets a smaller delta.**  From any state of the autoscaler, two ticks that differ in the queue
depth of pool `p` only both return, and the deeper one's delta for `p` is at least the other's. -/
theorem delta_mono_depth (a : PoolAutoscaler) (t : TickArgs) (p : Pool) (topo : PoolTopology) {depth depth' : Int}
    (hdt : 0 < t.dt) (htopo : t.topology.get? p = some topo)
    (hkp : ∀ ref, a.controllers.get? p = some ref → 0 ≤ (a.pids ref).gains.kp) (h : depth ≤ depth') :
    ∃ ds b d ds' b' d', a.tick (withDepth t p depth) = .ok (ds, b) ∧ a.tick (withDepth t p depth') = .ok (ds', b') ∧
      decisionsFor p ds = [d] ∧ decisionsFor p ds' = [d'] ∧ d.delta ≤ d'.delta := by
  obtain ⟨before, rest, hitems, hbefore, hrest⟩ := OrdDict.exists_split htopo
  obtain ⟨es, c, hok, -, -, hctl, -, hlaw, -⟩ := tickPools_outside t hdt p before a hbefore
  have hat := fun depth => tickPools_at (withDepth t p depth) hdt p topo hbefore hrest
    ((tickPools_withDepth t p depth before a hbefore).trans hok)
  obtain ⟨ds, b, htick, hds⟩ := hat depth
  obtain ⟨ds', b', htick', hds'⟩ := hat depth'
  unfold tick
  rw [show (withDepth t p depth).topology.items = _ from hitems,
    show (withDepth t p depth').topology.items = _ from hitems]
  refine ⟨ds, b, _, ds', b', _, htick, htick', hds, hds', decide_mono _ _ _ p topo hdt rfl rfl rfl ?_ ?_⟩
  · rw [depthOf_withDepth, depthOf_withDepth]
    exact h
  · -- the pools before `p` may have moved a shared controller, but not its gains
    intro pid hpid
    obtain ⟨ref, href, rfl⟩ := Option.map_eq_some_iff.1 hpid
    rw [(hlaw ref).1]
    exact hkp ref (hctl ▸ href)

theorem burst_mono : ∃ ds b d ds' b' d', burstScaler.tick (withDepth burstTick .prefill 3) = .ok (ds, b) ∧
    burstScaler.tick (withDepth burstTick .prefill 12) = .ok (ds', b') ∧ decisionsFor .prefill ds = [d] ∧
    decisionsFor .prefill ds' = [d'] ∧ d.delta ≤ d'.delta :=
  delta_mono_depth burstScaler burstTick .prefill ⟨.prefill, 4, 10, by decide, by decide⟩ (by decide +kernel) rfl
    (fun ref _ => show (0 : ℚ) ≤ 2 by decide +kernel) (by decide)

end PoolAutoscaler
end GoodputLab
