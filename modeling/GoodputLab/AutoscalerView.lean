import GoodputLab.AutoscalerSafety
import GoodputLab.PidLatch
/-!
# AutoscalerView — what a tick reads and writes for one pool

For one pool the autoscaler keeps its controller and the time of its last flip (`PoolView`).  A tick of positive duration
turns these and the pool's own inputs into one decision (`PoolView.decide`) and the next view (`PoolView.after`):
`tickPool_view` says so of the code's step, with all that the step leaves alone, and `tickPools_append` cuts a tick at a
pool.
-/
namespace GoodputLab

def TickArgs.depthOf (t : TickArgs) (pool : Pool) : Int := (t.queueDepths.get? pool).getD 0

namespace PoolAutoscaler

/-! ## One decision -/

/-- The delta the controller asks for, inside the replica bounds. -/
def wanted (config : AutoscalerConfig) (topo : PoolTopology) (c : PidController) (depth : Int) (dt : ℚ) : Int :=
  clampDelta config topo.replicas
    (mapOutput c (c.clamp (c.unclamped ((depth - topo.targetQueueDepth : Int) : ℚ) dt)) config.stepSize)

/-- The last flip is less than `window` ago. -/
def within (window : ℚ) (last : Option ℚ) (now : ℚ) : Bool :=
  match last with
  | none      => false
  | some last => now - last < window

theorem flippedWithin_eq (a : PoolAutoscaler) (window : ℚ) (p : Pool) (now : ℚ) :
    a.flippedWithin window p now = within window (a.lastFlipTs.get? p) now := rfl

/-- The drain gate, the dwell gate and, past both, the delta itself. -/
def gate (config : AutoscalerConfig) (last : Option ℚ) (now : ℚ) (pool : Pool) (inFlight : Nat) (delta : Int) :
    AutoscalerDecision :=
  if delta < 0 ∧ 0 < inFlight then ⟨pool, 0, .drainWait, false⟩
  else if delta ≠ 0 ∧ 0 < config.minDwellS ∧ within config.minDwellS last now = true then ⟨pool, 0, .dwellWait, false⟩
  else ⟨pool, delta, if 0 < delta then .queueHigh else if delta < 0 then .queueLow else .stable, delta < 0⟩

@[simp] theorem gate_pool (config : AutoscalerConfig) (last : Option ℚ) (now : ℚ) (pool : Pool) (inFlight : Nat)
    (delta : Int) : (gate config last now pool inFlight delta).pool = pool := by
  unfold gate
  split_ifs <;> rfl

/-- A delta that gets through both gates had nothing in flight if it is downward and the dwell time behind it. -/
theorem gate_delta_ne_zero {config : AutoscalerConfig} {last : Option ℚ} {now : ℚ} {pool : Pool} {inFlight : Nat}
    {delta : Int} (h : (gate config last now pool inFlight delta).delta ≠ 0) :
    (gate config last now pool inFlight delta).delta = delta ∧ (delta < 0 → inFlight = 0) ∧
      (0 < config.minDwellS → within config.minDwellS last now = false) := by
  unfold gate at h ⊢
  split at h
  · exact absurd rfl h
  rename_i hdrain
  split at h
  · exact absurd rfl h
  rename_i hdwell
  rw [if_neg hdrain, if_neg hdwell]
  refine ⟨rfl, fun hneg => Nat.eq_zero_of_not_pos (fun hpos => hdrain ⟨hneg, hpos⟩), fun hpos => ?_⟩
  exact Bool.eq_false_iff.2 (fun hw => hdwell ⟨h, hpos, hw⟩)

/-! ## The view of one pool -/

structure PoolView where
  config     : AutoscalerConfig
  controller : Option PidController
  lastFlip   : Option ℚ

def view (a : PoolAutoscaler) (p : Pool) : PoolView := ⟨a.config, (a.controllers.get? p).map a.pids, a.lastFlipTs.get? p⟩

def PoolView.decide (v : PoolView) (t : TickArgs) (p : Pool) (topo : PoolTopology) : AutoscalerDecision :=
  match v.controller with
  | none   => ⟨p, 0, .noController, false⟩
  | some c => gate v.config v.lastFlip t.now p (t.inFlightOf p) (wanted v.config topo c (t.depthOf p) t.dt)

def PoolView.after (v : PoolView) (t : TickArgs) (p : Pool) (topo : PoolTopology) : PoolView :=
  { v with
    controller := v.controller.map (fun c => c.next ((t.depthOf p - topo.targetQueueDepth : Int) : ℚ) t.dt)
    lastFlip := if (v.decide t p topo).delta ≠ 0 then some t.now else v.lastFlip }

@[simp] theorem PoolView.decide_pool (v : PoolView) (t : TickArgs) (p : Pool) (topo : PoolTopology) :
    (v.decide t p topo).pool = p := by
  unfold PoolView.decide
  cases v.controller with
  | none   => rfl
  | some c => exact gate_pool _ _ _ _ _ _

/-- The state once the controller at `ref` has become `c` and `d` is decided for pool `p`. -/
def settled (a : PoolAutoscaler) (t : TickArgs) (p : Pool) (ref : Nat) (c : PidController) (d : AutoscalerDecision) :
    PoolAutoscaler :=
  let a := { a with pids := Function.update a.pids ref c }
  if d.delta ≠ 0 then a.recordFlip p t.now else a

/-- **One pool's step with a controller**: the update of its controller, and the flip on record when one is decided. -/
theorem tickPool_eq (t : TickArgs) (a : PoolAutoscaler) (p : Pool) (topo : PoolTopology) (hdt : 0 < t.dt) {ref : Nat}
    (href : a.controllers.get? p = some ref) :
    tickPool t a p topo = .ok ((a.view p).decide t p topo,
      a.settled t p ref ((a.pids ref).next ((t.depthOf p - topo.targetQueueDepth : Int) : ℚ) t.dt)
        ((a.view p).decide t p topo)) := by
  have hdecide : (a.view p).decide t p topo = gate a.config (a.lastFlipTs.get? p) t.now p (t.inFlightOf p)
      (wanted a.config topo (a.pids ref) (t.depthOf p) t.dt) := by
    simp [PoolView.decide, view, href]
  rw [hdecide]
  unfold tickPool
  rw [href]
  simp only
  rw [PidController.update_eq _ _ _ hdt]
  simp only [flippedWithin_eq]
  have hwanted : wanted a.config topo (a.pids ref) (t.depthOf p) t.dt = clampDelta a.config topo.replicas
      (mapOutput ((a.pids ref).next ((t.depthOf p - topo.targetQueueDepth : Int) : ℚ) t.dt)
        ((a.pids ref).clamp ((a.pids ref).unclamped ((t.depthOf p - topo.targetQueueDepth : Int) : ℚ) t.dt))
        a.config.stepSize) := rfl
  unfold TickArgs.depthOf at hwanted ⊢
  rw [← hwanted]
  generalize wanted a.config topo (a.pids ref) ((t.queueDepths.get? p).getD 0) t.dt = delta
  unfold gate settled
  by_cases hdrain : delta < 0 ∧ 0 < t.inFlightOf p
  · rw [if_pos hdrain, if_pos hdrain, if_neg (not_not.2 rfl)]
  · rw [if_neg hdrain, if_neg hdrain]
    by_cases hdwell : delta ≠ 0 ∧ 0 < a.config.minDwellS ∧
        within a.config.minDwellS (a.lastFlipTs.get? p) t.now = true
    · rw [if_pos hdwell, if_neg (not_not.2 rfl)]
      exact if_pos hdwell
    · rw [if_neg hdwell]
      exact if_neg hdwell

/-- What a step for pool `p` leaves alone: the configuration, the other pools' flips, every controller but `p`'s, and of
that one its gains and its clamp. -/
structure Keeps (p : Pool) (a b : PoolAutoscaler) : Prop where
  config      : b.config = a.config
  controllers : b.controllers = a.controllers
  flips       : ∀ q, q ≠ p → b.lastFlipTs.get? q = a.lastFlipTs.get? q
  pids        : ∀ ref, a.controllers.get? p ≠ some ref → b.pids ref = a.pids ref
  law         : ∀ ref, (b.pids ref).gains = (a.pids ref).gains ∧ (b.pids ref).outMin = (a.pids ref).outMin ∧
    (b.pids ref).outMax = (a.pids ref).outMax

theorem settled_keeps (t : TickArgs) (a : PoolAutoscaler) (p : Pool) {ref : Nat} (href : a.controllers.get? p = some ref)
    (error : ℚ) (d : AutoscalerDecision) :
    Keeps p a (a.settled t p ref ((a.pids ref).next error t.dt) d) := by
  have hpids : (a.settled t p ref ((a.pids ref).next error t.dt) d).pids =
      Function.update a.pids ref ((a.pids ref).next error t.dt) := by
    unfold settled
    split <;> rfl
  refine ⟨?_, ?_, fun q hq => ?_, fun r hr => ?_, fun r => ?_⟩
  · unfold settled
    split <;> rfl
  · unfold settled
    split <;> rfl
  · unfold settled
    split
    · exact OrdDict.get?_set_of_ne _ _ hq
    · rfl
  · rw [hpids]
    exact Function.update_of_ne (fun h => hr (by rw [h, href])) _ _
  · rw [hpids]
    by_cases hr : r = ref
    · subst hr
      rw [Function.update_self]
      exact ⟨rfl, rfl, rfl⟩
    · rw [Function.update_of_ne hr]
      exact ⟨rfl, rfl, rfl⟩

/-- **One pool's step is its view's**, and touches nothing else. -/
theorem tickPool_view (t : TickArgs) (a : PoolAutoscaler) (p : Pool) (topo : PoolTopology) (hdt : 0 < t.dt) :
    ∃ b, tickPool t a p topo = .ok ((a.view p).decide t p topo, b) ∧ b.view p = (a.view p).after t p topo ∧
      Keeps p a b ∧
      b.thrash = a.thrash.map (fun n => if ((a.view p).decide t p topo).delta ≠ 0 ∧
        within thrashWindowS (a.lastFlipTs.get? p) t.now = true then n + 1 else n) := by
  cases href : a.controllers.get? p with
  | none =>
    have hview : (a.view p).controller = none := by simp [view, href]
    have hd : (a.view p).decide t p topo = ⟨p, 0, .noController, false⟩ := by
      unfold PoolView.decide
      rw [hview]
    refine ⟨a, ?_, ?_, ⟨rfl, rfl, fun _ _ => rfl, fun _ _ => rfl, fun _ => ⟨rfl, rfl, rfl⟩⟩, ?_⟩
    · rw [hd]
      unfold tickPool
      rw [href]
    · unfold PoolView.after
      rw [hd, hview, if_neg (not_not.2 rfl), Option.map_none, ← hview]
    · rw [hd]
      simp
  | some ref =>
    refine ⟨_, tickPool_eq t a p topo hdt href, ?_, settled_keeps t a p href _ _, ?_⟩
    · unfold PoolView.after settled
      split
      · simp [view, recordFlip, href]
      · simp [view, href]
    · unfold settled
      split
      · rename_i hflip
        simp only [recordFlip, hflip, ne_eq, not_false_eq_true, true_and]
        rfl
      · rename_i hflip
        simp [hflip]

/-! ## A tick -/

@[simp] theorem decisionsFor_nil (p : Pool) : decisionsFor p [] = [] := rfl

theorem decisionsFor_cons (p : Pool) (d : AutoscalerDecision) (ds : List AutoscalerDecision) :
    decisionsFor p (d :: ds) = if d.pool = p then d :: decisionsFor p ds else decisionsFor p ds := by
  unfold decisionsFor
  rw [List.filter_cons]
  simp

theorem decisionsFor_append (p : Pool) (ds es : List AutoscalerDecision) :
    decisionsFor p (ds ++ es) = decisionsFor p ds ++ decisionsFor p es := List.filter_append _ _

theorem tickPools_cons_ok {t : TickArgs} {p : Pool} {topo : PoolTopology} {rest : List (Pool × PoolTopology)}
    {a b c : PoolAutoscaler} {d : AutoscalerDecision} {ds : List AutoscalerDecision}
    (hp : tickPool t a p topo = .ok (d, b)) (hrest : tickPools t rest b = .ok (ds, c)) :
    tickPools t ((p, topo) :: rest) a = .ok (d :: ds, c) := by
  simp [tickPools, hp, hrest, bind, Except.bind, pure, Except.pure]

/-- A tick of positive duration returns. -/
theorem tickPools_returns (t : TickArgs) (hdt : 0 < t.dt) : ∀ (l : List (Pool × PoolTopology)) (a : PoolAutoscaler),
    ∃ ds b, tickPools t l a = .ok (ds, b)
  | [], a => ⟨[], a, rfl⟩
  | (p, topo) :: rest, a => by
    obtain ⟨b, hp, -⟩ := tickPool_view t a p topo hdt
    obtain ⟨ds, c, hrest⟩ := tickPools_returns t hdt rest b
    exact ⟨_, c, tickPools_cons_ok hp hrest⟩

theorem tickPools_append (t : TickArgs) (hdt : 0 < t.dt) (r : List (Pool × PoolTopology)) {es : List AutoscalerDecision}
    {c : PoolAutoscaler} : ∀ (l : List (Pool × PoolTopology)) {a b : PoolAutoscaler} {ds : List AutoscalerDecision},
    tickPools t l a = .ok (ds, b) → tickPools t r b = .ok (es, c) → tickPools t (l ++ r) a = .ok (ds ++ es, c)
  | [], a, b, ds, hl, hr => by
    cases hl
    exact hr
  | (p, topo) :: rest, a, b, ds, hl, hr => by
    obtain ⟨a₁, hp, -⟩ := tickPool_view t a p topo hdt
    obtain ⟨ds₁, b₁, hrest⟩ := tickPools_returns t hdt rest a₁
    rw [tickPools_cons_ok hp hrest] at hl
    cases hl
    rw [List.cons_append, List.cons_append]
    exact tickPools_cons_ok hp (tickPools_append t hdt r rest hrest hr)

/-- What the pools of a tick other than `p` leave alone of what concerns `p`: all but the state of its controller, which
they may share. -/
theorem tickPools_outside (t : TickArgs) (hdt : 0 < t.dt) (p : Pool) : ∀ (l : List (Pool × PoolTopology))
    (a : PoolAutoscaler), p ∉ l.map Prod.fst →
    ∃ ds b, tickPools t l a = .ok (ds, b) ∧ decisionsFor p ds = [] ∧ b.config = a.config ∧
      b.controllers = a.controllers ∧ b.lastFlipTs.get? p = a.lastFlipTs.get? p ∧
      (∀ ref, (b.pids ref).gains = (a.pids ref).gains ∧ (b.pids ref).outMin = (a.pids ref).outMin ∧
        (b.pids ref).outMax = (a.pids ref).outMax) ∧
      ∀ ref, (∀ q ∈ l.map Prod.fst, a.controllers.get? q ≠ some ref) → b.pids ref = a.pids ref
  | [], a, _ => ⟨[], a, rfl, rfl, rfl, rfl, rfl, fun _ => ⟨rfl, rfl, rfl⟩, fun _ _ => rfl⟩
  | (q, topo) :: rest, a, hp => by
    rw [List.map_cons, List.mem_cons, not_or] at hp
    obtain ⟨b, hq, -, hkeep, -⟩ := tickPool_view t a q topo hdt
    obtain ⟨ds, c, hrest, hnone, hcfg, hctl, hlast, hlaw, hpids⟩ := tickPools_outside t hdt p rest b hp.2
    refine ⟨_, c, tickPools_cons_ok hq hrest, ?_, hcfg.trans hkeep.config, hctl.trans hkeep.controllers,
      hlast.trans (hkeep.flips p hp.1), fun ref => ?_, fun ref hfree => ?_⟩
    · rw [decisionsFor_cons, PoolView.decide_pool, if_neg (Ne.symm hp.1), hnone]
    · obtain ⟨h₁, h₂, h₃⟩ := hlaw ref
      obtain ⟨k₁, k₂, k₃⟩ := hkeep.law ref
      exact ⟨h₁.trans k₁, h₂.trans k₂, h₃.trans k₃⟩
    · rw [hpids ref (fun q' hq' => by rw [hkeep.controllers]; exact hfree q' (List.mem_cons_of_mem _ hq'))]
      exact hkeep.pids ref (hfree q List.mem_cons_self)

/-- **A tick cut at pool `p`**: the decision for `p` is the one of the view the pools before it leave, and the pools after
it decide nothing more for it. -/
theorem tickPools_at (t : TickArgs) (hdt : 0 < t.dt) (p : Pool) (topo : PoolTopology)
    {before rest : List (Pool × PoolTopology)} (hbefore : p ∉ before.map Prod.fst) (hrest : p ∉ rest.map Prod.fst)
    {a b : PoolAutoscaler} {ds : List AutoscalerDecision} (hb : tickPools t before a = .ok (ds, b)) :
    ∃ es c, tickPools t (before ++ (p, topo) :: rest) a = .ok (es, c) ∧
      decisionsFor p es = [(b.view p).decide t p topo] := by
  obtain ⟨ds', b', hb', hnone, -⟩ := tickPools_outside t hdt p before a hbefore
  rw [hb] at hb'
  cases hb'
  obtain ⟨c, hp, -⟩ := tickPool_view t b p topo hdt
  obtain ⟨es, c', hafter, hnone', -⟩ := tickPools_outside t hdt p rest c hrest
  refine ⟨_, c', tickPools_append t hdt _ before hb (tickPools_cons_ok hp hafter), ?_⟩
  rw [decisionsFor_append, hnone, decisionsFor_cons, PoolView.decide_pool, if_pos rfl, hnone', List.nil_append]

def burstConfig : AutoscalerConfig := burstScaler.config

theorem none_nonneg : (0 : ℚ) ≤ 0 := le_refl 0

/-- The configuration of `burstScaler` without a dwell time. -/
def undwelled : AutoscalerConfig := { burstConfig with minDwellS := 0, dwellGe := none_nonneg }

end PoolAutoscaler
end GoodputLab
