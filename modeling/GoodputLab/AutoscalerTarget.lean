import GoodputLab.AutoscalerView
/-!
# AutoscalerTarget — which way a proportional controller moves its pool

The output is scaled from the clamp to the step, so no change of replicas stands around the middle of the clamp, not
around zero.  A proportional controller asks for more replicas when its output is above `riseAt` and for fewer when it is
below `fallAt` (`wanted_pos_iff`, `wanted_neg_iff`): both are off zero when the clamp is lopsided enough, and then the
autoscaler scales a pool that is at its target, or on the wrong side of it (`tick_pointsRight_iff`,
`pointsRight_always_iff`).
-/
namespace GoodputLab

namespace PidController

/-- The output half a replica above the middle of the clamp. -/
def riseAt (c : PidController) (step : Int) : ℚ := (c.outMin + c.outMax) / 2 + (c.outMax - c.outMin) / (4 * step)

/-- The output half a replica below it. -/
def fallAt (c : PidController) (step : Int) : ℚ := (c.outMin + c.outMax) / 2 - (c.outMax - c.outMin) / (4 * step)

theorem quarter_step_lt (c : PidController) {step : Int} (hstep : 1 ≤ step) :
    0 < (c.outMax - c.outMin) / (4 * step) ∧ (c.outMax - c.outMin) / (4 * step) < (c.outMax - c.outMin) / 2 := by
  have hspan : 0 < c.outMax - c.outMin := sub_pos.2 c.outLt
  have hone : (1 : ℚ) ≤ step := by exact_mod_cast hstep
  constructor
  · exact div_pos hspan (by linarith)
  · exact div_lt_div_of_pos_left hspan two_pos (by linarith)

/-- A proportional controller's sum of terms is its one term. -/
theorem unclamped_of_proportional (c : PidController) (hki : c.gains.ki = 0) (hkd : c.gains.kd = 0) (error dt : ℚ) :
    c.unclamped error dt = c.gains.kp * error := by
  unfold unclamped
  cases c.prevError <;> simp [hki, hkd]

theorem lt_clamp_iff (c : PidController) {bound u : ℚ} (hmin : c.outMin ≤ bound) (hmax : bound < c.outMax) :
    bound < c.clamp u ↔ bound < u := by
  unfold clamp
  rw [lt_max_iff, lt_min_iff]
  constructor
  · rintro (h | ⟨-, h⟩)
    · exact absurd h (not_lt.2 hmin)
    · exact h
  · exact fun h => Or.inr ⟨hmax, h⟩

theorem clamp_lt_iff (c : PidController) {bound u : ℚ} (hmin : c.outMin < bound) (hmax : bound ≤ c.outMax) :
    c.clamp u < bound ↔ u < bound := by
  unfold clamp
  rw [max_lt_iff, min_lt_iff]
  constructor
  · rintro ⟨-, h | h⟩
    · exact absurd h (not_lt.2 hmax)
    · exact h
  · exact fun h => ⟨hmin, Or.inr h⟩

end PidController

namespace PoolAutoscaler

/-! ## The sign of the delta -/

/-- The scaled output is the distance from the middle of the clamp, in half steps. -/
theorem mapOutput_eq (c : PidController) (raw : ℚ) (step : Int) :
    mapOutput c raw step =
      roundHalfEven ((raw - (c.outMin + c.outMax) / 2) * (2 * step / (c.outMax - c.outMin))) := by
  have hspan : 0 < c.outMax - c.outMin := sub_pos.2 c.outLt
  unfold mapOutput
  simp only [if_neg (not_le.2 hspan)]
  congr 1
  field_simp
  ring

/-- A quarter step of output is half a replica. -/
theorem half_replica (c : PidController) {step : Int} (hstep : 1 ≤ step) :
    0 < 2 * (step : ℚ) / (c.outMax - c.outMin) ∧
      (c.outMax - c.outMin) / (4 * step) * (2 * (step : ℚ) / (c.outMax - c.outMin)) = 1 / 2 := by
  have hspan : 0 < c.outMax - c.outMin := sub_pos.2 c.outLt
  have hone : (1 : ℚ) ≤ step := by exact_mod_cast hstep
  refine ⟨div_pos (by linarith) hspan, ?_⟩
  have hne : (step : ℚ) ≠ 0 := by linarith
  field_simp
  norm_num

theorem mapOutput_pos_iff (c : PidController) (u : ℚ) {step : Int} (hstep : 1 ≤ step) :
    0 < mapOutput c (c.clamp u) step ↔ c.riseAt step < u := by
  obtain ⟨hfactor, hhalf⟩ := half_replica c hstep
  obtain ⟨hq, hq'⟩ := c.quarter_step_lt hstep
  have hlt := c.outLt
  rw [mapOutput_eq, roundHalfEven_pos_iff, ← hhalf, mul_lt_mul_iff_of_pos_right hfactor, lt_sub_iff_add_lt']
  exact c.lt_clamp_iff (by linarith) (by linarith)

theorem mapOutput_neg_iff (c : PidController) (u : ℚ) {step : Int} (hstep : 1 ≤ step) :
    mapOutput c (c.clamp u) step < 0 ↔ u < c.fallAt step := by
  obtain ⟨hfactor, hhalf⟩ := half_replica c hstep
  obtain ⟨hq, hq'⟩ := c.quarter_step_lt hstep
  have hlt := c.outLt
  rw [mapOutput_eq, roundHalfEven_neg_iff, ← hhalf, ← neg_mul, mul_lt_mul_iff_of_pos_right hfactor, sub_lt_iff_lt_add,
    neg_add_eq_sub]
  exact c.clamp_lt_iff (by linarith) (by linarith)

theorem clampDelta_pos_iff (config : AutoscalerConfig) {replicas : Int} (delta : Int)
    (hmin : config.minReplicas ≤ replicas) (hmax : replicas ≤ config.maxReplicas) :
    0 < clampDelta config replicas delta ↔ 0 < delta ∧ replicas < config.maxReplicas := by
  unfold clampDelta
  simp only
  split_ifs <;> omega

theorem clampDelta_neg_iff (config : AutoscalerConfig) {replicas : Int} (delta : Int)
    (hmin : config.minReplicas ≤ replicas) (hmax : replicas ≤ config.maxReplicas) :
    clampDelta config replicas delta < 0 ↔ delta < 0 ∧ config.minReplicas < replicas := by
  unfold clampDelta
  simp only
  split_ifs <;> omega

theorem wanted_pos_iff (config : AutoscalerConfig) (topo : PoolTopology) (c : PidController) (depth : Int) (dt : ℚ)
    (hki : c.gains.ki = 0) (hkd : c.gains.kd = 0) (hmin : config.minReplicas ≤ topo.replicas)
    (hmax : topo.replicas ≤ config.maxReplicas) :
    0 < wanted config topo c depth dt ↔
      c.riseAt config.stepSize < c.gains.kp * ((depth - topo.targetQueueDepth : Int) : ℚ) ∧
        topo.replicas < config.maxReplicas := by
  unfold wanted
  rw [clampDelta_pos_iff config _ hmin hmax, mapOutput_pos_iff c _ config.stepGe, c.unclamped_of_proportional hki hkd]

theorem wanted_neg_iff (config : AutoscalerConfig) (topo : PoolTopology) (c : PidController) (depth : Int) (dt : ℚ)
    (hki : c.gains.ki = 0) (hkd : c.gains.kd = 0) (hmin : config.minReplicas ≤ topo.replicas)
    (hmax : topo.replicas ≤ config.maxReplicas) :
    wanted config topo c depth dt < 0 ↔
      c.gains.kp * ((depth - topo.targetQueueDepth : Int) : ℚ) < c.fallAt config.stepSize ∧
        config.minReplicas < topo.replicas := by
  unfold wanted
  rw [clampDelta_neg_iff config _ hmin hmax, mapOutput_neg_iff c _ config.stepGe, c.unclamped_of_proportional hki hkd]

/-! ## Decisions -/

/-- At the target with nothing in flight the decision is to stay; more replicas only above the target, fewer only below
it. -/
def PointsRight (depth target : Int) (inFlight : Nat) (d : AutoscalerDecision) : Prop :=
  (depth = target → inFlight = 0 → d.delta = 0 ∧ d.reason = .stable) ∧ (0 < d.delta → target < depth) ∧
    (d.delta < 0 → depth < target)

/-- The dwell gate lets a flip pass. -/
def Dwelled (config : AutoscalerConfig) (last : Option ℚ) (now : ℚ) : Prop :=
  ¬ (0 < config.minDwellS ∧ within config.minDwellS last now = true)

/-- The conditions under which a proportional controller moves its pool the right way: at or above the target, where the
pool could shrink, its output is not below `fallAt`; at or below the target, where it could grow, not above `riseAt`. -/
def AimsRight (config : AutoscalerConfig) (c : PidController) (topo : PoolTopology) (last : Option ℚ) (now : ℚ)
    (depth : Int) (inFlight : Nat) : Prop :=
  let output := c.gains.kp * ((depth - topo.targetQueueDepth : Int) : ℚ)
  (topo.targetQueueDepth ≤ depth → config.minReplicas < topo.replicas → inFlight = 0 →
    (Dwelled config last now ∨ depth = topo.targetQueueDepth) → c.fallAt config.stepSize ≤ output) ∧
  (depth ≤ topo.targetQueueDepth → topo.replicas < config.maxReplicas →
    (Dwelled config last now ∨ depth = topo.targetQueueDepth ∧ inFlight = 0) → output ≤ c.riseAt config.stepSize)

theorem gate_pos_iff (config : AutoscalerConfig) (last : Option ℚ) (now : ℚ) (p : Pool) (inFlight : Nat) (delta : Int) :
    0 < (gate config last now p inFlight delta).delta ↔ 0 < delta ∧ Dwelled config last now := by
  unfold gate Dwelled
  split
  · simp only [lt_irrefl, false_iff, not_and]
    omega
  split
  · rename_i hdwell
    simp [hdwell.2.1, hdwell.2.2]
  · rename_i hdwell
    exact ⟨fun hpos => ⟨hpos, fun h => hdwell ⟨ne_of_gt hpos, h⟩⟩, And.left⟩

theorem gate_neg_iff (config : AutoscalerConfig) (last : Option ℚ) (now : ℚ) (p : Pool) (inFlight : Nat) (delta : Int) :
    (gate config last now p inFlight delta).delta < 0 ↔ delta < 0 ∧ inFlight = 0 ∧ Dwelled config last now := by
  unfold gate Dwelled
  split
  · simp only [lt_irrefl, false_iff, not_and]
    omega
  rename_i hdrain
  split
  · rename_i hdwell
    simp [hdwell.2.1, hdwell.2.2]
  · rename_i hdwell
    refine ⟨fun hneg => ⟨hneg, ?_, fun h => hdwell ⟨ne_of_lt hneg, h⟩⟩, And.left⟩
    exact Nat.eq_zero_of_not_pos (fun h => hdrain ⟨hneg, h⟩)

theorem gate_stable_iff (config : AutoscalerConfig) (last : Option ℚ) (now : ℚ) (p : Pool) (delta : Int) :
    ((gate config last now p 0 delta).delta = 0 ∧ (gate config last now p 0 delta).reason = .stable) ↔ delta = 0 := by
  unfold gate
  split
  · omega
  split
  · rename_i hdwell
    simp [hdwell.1]
  · constructor
    · exact And.left
    · rintro rfl
      exact ⟨rfl, rfl⟩

/-- **One decision**: it points the right way just when the controller aims right. -/
theorem gate_pointsRight_iff (config : AutoscalerConfig) (c : PidController) (topo : PoolTopology) (last : Option ℚ)
    (now : ℚ) (p : Pool) (depth : Int) (inFlight : Nat) (dt : ℚ) (hki : c.gains.ki = 0) (hkd : c.gains.kd = 0)
    (hmin : config.minReplicas ≤ topo.replicas) (hmax : topo.replicas ≤ config.maxReplicas) :
    PointsRight depth topo.targetQueueDepth inFlight
        (gate config last now p inFlight (wanted config topo c depth dt)) ↔
      AimsRight config c topo last now depth inFlight := by
  have hpos := wanted_pos_iff config topo c depth dt hki hkd hmin hmax
  have hneg := wanted_neg_iff config topo c depth dt hki hkd hmin hmax
  unfold PointsRight AimsRight
  generalize wanted config topo c depth dt = delta at hpos hneg ⊢
  rw [gate_pos_iff, gate_neg_iff]
  constructor
  · rintro ⟨hstable, hup, hdown⟩
    constructor
    · intro hge hroom hin hopen
      by_contra hlow
      have hd := hneg.2 ⟨not_le.1 hlow, hroom⟩
      rcases hopen with hw | heq
      · exact absurd (hdown ⟨hd, hin, hw⟩) (not_lt.2 hge)
      · subst hin
        exact absurd ((gate_stable_iff config last now p delta).1 (hstable heq rfl)) hd.ne
    · intro hle hroom hopen
      by_contra hhigh
      have hd := hpos.2 ⟨not_le.1 hhigh, hroom⟩
      rcases hopen with hw | ⟨heq, hin⟩
      · exact absurd (hup ⟨hd, hw⟩) (not_lt.2 hle)
      · subst hin
        exact absurd ((gate_stable_iff config last now p delta).1 (hstable heq rfl)) hd.ne'
  · rintro ⟨hfall, hrise⟩
    refine ⟨fun heq hin => ?_, fun ⟨hd, hw⟩ => ?_, fun ⟨hd, hin, hw⟩ => ?_⟩
    · subst hin
      refine (gate_stable_iff config last now p delta).2 (le_antisymm (not_lt.1 fun hd => ?_) (not_lt.1 fun hd => ?_))
      · obtain ⟨hhigh, hroom⟩ := hpos.1 hd
        exact absurd (hrise heq.le hroom (Or.inr ⟨heq, rfl⟩)) (not_le.2 hhigh)
      · obtain ⟨hlow, hroom⟩ := hneg.1 hd
        exact absurd (hfall heq.ge hroom rfl (Or.inr heq)) (not_le.2 hlow)
    · by_contra hle
      obtain ⟨hhigh, hroom⟩ := hpos.1 hd
      exact absurd (hrise (not_lt.1 hle) hroom (Or.inl hw)) (not_le.2 hhigh)
    · by_contra hge
      obtain ⟨hlow, hroom⟩ := hneg.1 hd
      exact absurd (hfall (not_lt.1 hge) hroom hin (Or.inl hw)) (not_le.2 hlow)

/-- **When a tick points the right way.**  For a pool inside the replica bounds with a proportional controller, in any
state of the autoscaler: its decision points the right way if and only if the controller aims right. -/
theorem tick_pointsRight_iff (a : PoolAutoscaler) (t : TickArgs) (p : Pool) (topo : PoolTopology) (ref : Nat)
    (hdt : 0 < t.dt) (htopo : t.topology.get? p = some topo) (href : a.controllers.get? p = some ref)
    (hki : (a.pids ref).gains.ki = 0) (hkd : (a.pids ref).gains.kd = 0) (hmin : a.config.minReplicas ≤ topo.replicas)
    (hmax : topo.replicas ≤ a.config.maxReplicas) :
    ∃ ds b d, a.tick t = .ok (ds, b) ∧ decisionsFor p ds = [d] ∧
      (PointsRight (t.depthOf p) topo.targetQueueDepth (t.inFlightOf p) d ↔
        AimsRight a.config (a.pids ref) topo (a.lastFlipTs.get? p) t.now (t.depthOf p) (t.inFlightOf p)) := by
  obtain ⟨before, rest, hitems, hbefore, hrest⟩ := OrdDict.exists_split htopo
  obtain ⟨es, b, hok, -, hcfg, hctl, hlast, hlaw, -⟩ := tickPools_outside t hdt p before a hbefore
  obtain ⟨ds, c, htick, hds⟩ := tickPools_at t hdt p topo hbefore hrest hok
  have hdecide : (b.view p).decide t p topo = gate a.config (a.lastFlipTs.get? p) t.now p (t.inFlightOf p)
      (wanted a.config topo (b.pids ref) (t.depthOf p) t.dt) := by
    simp [PoolView.decide, view, hcfg, hctl, hlast, href]
  obtain ⟨hgains, hlo, hhi⟩ := hlaw ref
  unfold tick
  rw [hitems]
  refine ⟨ds, c, _, htick, hds, ?_⟩
  rw [hdecide, gate_pointsRight_iff a.config (b.pids ref) topo _ _ _ _ _ _ (by rw [hgains]; exact hki)
    (by rw [hgains]; exact hkd) hmin hmax]
  unfold AimsRight PidController.fallAt PidController.riseAt
  rw [hgains, hlo, hhi]

theorem burst_pointsRight_iff : ∃ ds b d, burstScaler.tick burstTick = .ok (ds, b) ∧ decisionsFor .prefill ds = [d] ∧
    (PointsRight 30 10 0 d ↔ AimsRight burstScaler.config (burstScaler.pids 0) ⟨.prefill, 4, 10, by decide, by decide⟩
      none 1000 30 0) :=
  tick_pointsRight_iff burstScaler burstTick .prefill ⟨.prefill, 4, 10, by decide, by decide⟩ 0 (by decide +kernel) rfl
    rfl rfl rfl (by decide) (by decide)

theorem single_step : (1 : Int) ≤ 1 := le_refl 1

theorem lopsided_clamp : (-1 : ℚ) < 10 := by norm_num

/-- A controller that may ask for ten times more output upward than downward. -/
def lopsidedScaler : PoolAutoscaler :=
  fresh { undwelled with stepSize := 1, stepGe := single_step } (OrdDict.ofList [(.prefill, 0)])
    (fun _ => .fresh ⟨1 / 2, 0, 0, none_nonneg, none_nonneg⟩ (-1) 10 lopsided_clamp) false

def targetTick : TickArgs := { burstTick with now := 0, queueDepths := OrdDict.ofList [(.prefill, 10)] }

/-- At its target, with nothing in flight, that pool loses a replica. -/
theorem lopsided_target :
    (lopsidedScaler.tick targetTick).toOption.map (fun x => decisionsFor .prefill x.1) =
      some [⟨.prefill, -1, .queueLow, true⟩] ∧
    ¬ PointsRight (targetTick.depthOf .prefill) 10 (targetTick.inFlightOf .prefill) ⟨.prefill, -1, .queueLow, true⟩ :=
  ⟨by decide +kernel, fun h => absurd (h.2.2 (by decide)) (by decide)⟩

/-! ## Every tick -/

theorem dead_band_iff (c : PidController) {step : Int} (hstep : 1 ≤ step) :
    (c.fallAt step ≤ 0 ∧ 0 ≤ c.riseAt step) ↔ 2 * step * |c.outMin + c.outMax| ≤ c.outMax - c.outMin := by
  have hone : (0 : ℚ) < 4 * step := by
    have : (1 : ℚ) ≤ step := by exact_mod_cast hstep
    linarith
  unfold PidController.fallAt PidController.riseAt
  have hdiv : (c.outMax - c.outMin) / (4 * step) * (4 * step) = c.outMax - c.outMin := div_mul_cancel₀ _ hone.ne'
  generalize (c.outMax - c.outMin) / (4 * (step : ℚ)) = quarter at hdiv ⊢
  constructor
  · rintro ⟨hlo, hhi⟩
    have habs : |c.outMin + c.outMax| ≤ 2 * quarter := abs_le.2 ⟨by linarith, by linarith⟩
    nlinarith [mul_le_mul_of_nonneg_left habs hone.le]
  · intro h
    have habs : |c.outMin + c.outMax| ≤ 2 * quarter := by
      refine le_of_mul_le_mul_left ?_ hone
      linarith
    obtain ⟨hlo, hhi⟩ := abs_le.1 habs
    exact ⟨by linarith, by linarith⟩

/-- **A proportional controller points every pool the right way** just when the number of replicas is fixed or the clamp
is so even about zero that its middle is less than half a replica away. -/
theorem pointsRight_always_iff (config : AutoscalerConfig) (c : PidController) (hkp : 0 ≤ c.gains.kp)
    (hki : c.gains.ki = 0) (hkd : c.gains.kd = 0) :
    (∀ (topo : PoolTopology) (last : Option ℚ) (now : ℚ) (p : Pool) (depth : Int) (inFlight : Nat) (dt : ℚ),
      config.minReplicas ≤ topo.replicas → topo.replicas ≤ config.maxReplicas →
      PointsRight depth topo.targetQueueDepth inFlight
        (gate config last now p inFlight (wanted config topo c depth dt))) ↔
    config.minReplicas = config.maxReplicas ∨
      2 * config.stepSize * |c.outMin + c.outMax| ≤ c.outMax - c.outMin := by
  have hge := config.maxGe
  rw [← dead_band_iff c config.stepGe]
  constructor
  · intro h
    refine or_iff_not_imp_left.2 (fun hne => ?_)
    have hlt : config.minReplicas < config.maxReplicas := lt_of_le_of_ne hge hne
    have hmin := config.minGe
    -- the pool at its target, once with no room above and once with none below
    have hfull := (gate_pointsRight_iff config c ⟨.prefill, config.maxReplicas, 0, by omega, le_refl _⟩ none 0 .prefill 0 0
      1 hki hkd hge le_rfl).1 (h _ none 0 .prefill 0 0 1 hge le_rfl)
    have hleast := (gate_pointsRight_iff config c ⟨.prefill, config.minReplicas, 0, by omega, le_refl _⟩ none 0 .prefill 0
      0 1 hki hkd le_rfl hge).1 (h _ none 0 .prefill 0 0 1 le_rfl hge)
    have hfall := hfull.1 le_rfl hlt rfl (Or.inr rfl)
    have hrise := hleast.2 le_rfl hlt (Or.inr ⟨rfl, rfl⟩)
    simp only [sub_self, Int.cast_zero, mul_zero] at hfall hrise
    exact ⟨hfall, hrise⟩
  · intro h topo last now p depth inFlight dt hmin hmax
    refine (gate_pointsRight_iff config c topo last now p depth inFlight dt hki hkd hmin hmax).2 ?_
    rcases h with heq | ⟨hfall, hrise⟩
    · exact ⟨fun _ hroom => by omega, fun _ hroom => by omega⟩
    · refine ⟨fun hle _ _ _ => hfall.trans (mul_nonneg hkp ?_), fun hle _ _ => le_trans ?_ hrise⟩
      · exact_mod_cast sub_nonneg.2 hle
      · exact mul_nonpos_of_nonneg_of_nonpos hkp (by exact_mod_cast sub_nonpos.2 hle)

end PoolAutoscaler
end GoodputLab
