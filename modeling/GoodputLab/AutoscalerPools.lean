import GoodputLab.AutoscalerThrash
/-!
# AutoscalerPools — the pools do not influence each other

When no two pools share a controller, a tick does to the view of pool `p` what `p`'s own inputs say (`tick_own`): which
other pools the topology has, in which order and under which load, does not enter.  So two runs that agree on the inputs
of `p` decide the same for it, tick by tick (`decisionLog_eq_of_sameInputs`).
-/
namespace GoodputLab
namespace PoolAutoscaler

/-- Pool `p` has a controller, and no other pool has the same one. -/
def Owns (controllers : OrdDict Pool Nat) (p : Pool) : Prop :=
  ∃ ref, controllers.get? p = some ref ∧ ∀ q, controllers.get? q = some ref → q = p

/-- What a tick with the entry `topo?` for `p` does to its view. -/
def PoolView.step (v : PoolView) (t : TickArgs) (p : Pool) : Option PoolTopology → List AutoscalerDecision × PoolView
  | none      => ([], v)
  | some topo => ([v.decide t p topo], v.after t p topo)

theorem tickPools_outside_own (t : TickArgs) (hdt : 0 < t.dt) (p : Pool) (l : List (Pool × PoolTopology))
    (a : PoolAutoscaler) (hown : Owns a.controllers p) (hp : p ∉ l.map Prod.fst) :
    ∃ ds b, tickPools t l a = .ok (ds, b) ∧ decisionsFor p ds = [] ∧ b.controllers = a.controllers ∧
      b.view p = a.view p := by
  obtain ⟨ds, b, hok, hnone, hcfg, hctl, hlast, -, hpids⟩ := tickPools_outside t hdt p l a hp
  obtain ⟨ref, href, honly⟩ := hown
  have hpid : b.pids ref = a.pids ref := hpids ref (fun q hq hq' => hp (honly q hq' ▸ hq))
  refine ⟨ds, b, hok, hnone, hctl, ?_⟩
  simp [view, hcfg, hctl, hlast, href, hpid]

/-- **A tick of positive duration does to the view of a pool with its own controller what the pool's inputs say.** -/
theorem tick_own (t : TickArgs) (hdt : 0 < t.dt) (p : Pool) (a : PoolAutoscaler) (hown : Owns a.controllers p) :
    ∃ ds b, a.tick t = .ok (ds, b) ∧ b.controllers = a.controllers ∧
      (decisionsFor p ds, b.view p) = (a.view p).step t p (t.topology.get? p) := by
  unfold tick
  cases htopo : t.topology.get? p with
  | none =>
    obtain ⟨ds, b, hok, hnone, hctl, hview⟩ := tickPools_outside_own t hdt p t.topology.items a hown
      ((OrdDict.get?_eq_none _ _).1 htopo)
    exact ⟨ds, b, hok, hctl, by rw [hnone, hview]; rfl⟩
  | some topo =>
    obtain ⟨before, rest, hitems, hbefore, hrest⟩ := OrdDict.exists_split htopo
    obtain ⟨ds, b, hok, hnone, hctl, hview⟩ := tickPools_outside_own t hdt p before a hown hbefore
    obtain ⟨c, hp, hafter, hkeep, -⟩ := tickPool_view t b p topo hdt
    have hctl' : c.controllers = a.controllers := hkeep.controllers.trans hctl
    obtain ⟨es, d, hok', hnone', hctl'', hview'⟩ := tickPools_outside_own t hdt p rest c (by rw [hctl']; exact hown) hrest
    rw [hitems]
    refine ⟨_, d, tickPools_append t hdt _ before hok (tickPools_cons_ok hp hok'), hctl''.trans hctl', ?_⟩
    rw [decisionsFor_append, hnone, decisionsFor_cons, PoolView.decide_pool, if_pos rfl, hnone', hview', hafter, hview]
    rfl

/-! ## Two runs -/

/-- Two ticks that tell pool `p` the same. -/
structure SameInputs (p : Pool) (t u : TickArgs) : Prop where
  now      : t.now = u.now
  dt       : t.dt = u.dt
  topology : t.topology.get? p = u.topology.get? p
  depth    : t.depthOf p = u.depthOf p
  inFlight : t.inFlightOf p = u.inFlightOf p

theorem step_congr {p : Pool} {t u : TickArgs} (h : SameInputs p t u) (v : PoolView) (topo : Option PoolTopology) :
    v.step t p topo = v.step u p topo := by
  cases topo with
  | none      => rfl
  | some topo =>
    have hdecide : v.decide t p topo = v.decide u p topo := by
      simp [PoolView.decide, h.now, h.dt, h.depth, h.inFlight]
    simp [PoolView.step, PoolView.after, hdecide, h.now, h.dt, h.depth]

/-- What a tick decides for `p`, nothing when it raises. -/
def decidedFor (p : Pool) (a : PoolAutoscaler) (t : TickArgs) : List AutoscalerDecision :=
  match a.tick t with
  | .ok (ds, _) => decisionsFor p ds
  | .error _    => []

/-- Two autoscalers that are one for pool `p`, which owns its controller in both. -/
structure Agree (p : Pool) (a b : PoolAutoscaler) : Prop where
  view     : a.view p = b.view p
  ownLeft  : Owns a.controllers p
  ownRight : Owns b.controllers p

/-- A tick without a positive duration decides nothing for a pool that has a controller, and changes nothing. -/
theorem tick_of_nonpos (t : TickArgs) (hdt : ¬ 0 < t.dt) (p : Pool) (a : PoolAutoscaler) (hown : Owns a.controllers p) :
    a.decidedFor p t = [] ∧ a.tickOrKeep t = a := by
  unfold decidedFor tickOrKeep tick
  rcases tickPools_of_nonpos t (not_lt.1 hdt) t.topology.items a with ⟨e, he⟩ | ⟨hok, hnone⟩
  · rw [he]
    exact ⟨rfl, rfl⟩
  · rw [hok]
    refine ⟨List.filter_eq_nil_iff.2 (fun d hd => ?_), rfl⟩
    obtain ⟨x, hx, rfl⟩ := List.mem_map.1 hd
    obtain ⟨ref, href, -⟩ := hown
    simp only [decide_eq_true_eq]
    rintro rfl
    rw [hnone x hx] at href
    cases href

/-- **One tick keeps the agreement**, and decides the same for `p`. -/
theorem agree_tick {p : Pool} {a b : PoolAutoscaler} {t u : TickArgs} (h : Agree p a b) (hsame : SameInputs p t u) :
    a.decidedFor p t = b.decidedFor p u ∧ Agree p (a.tickOrKeep t) (b.tickOrKeep u) := by
  by_cases hdt : 0 < t.dt
  · obtain ⟨ds, a', hok, hctl, hstep⟩ := tick_own t hdt p a h.ownLeft
    obtain ⟨es, b', hok', hctl', hstep'⟩ := tick_own u (hsame.dt ▸ hdt) p b h.ownRight
    have hboth : (decisionsFor p ds, a'.view p) = (decisionsFor p es, b'.view p) := by
      rw [hstep, hstep', h.view, step_congr hsame, hsame.topology]
    obtain ⟨hds, hview⟩ := Prod.ext_iff.1 hboth
    unfold decidedFor tickOrKeep
    rw [hok, hok']
    exact ⟨hds, hview, by rw [hctl]; exact h.ownLeft, by rw [hctl']; exact h.ownRight⟩
  · obtain ⟨hnil, hkeep⟩ := tick_of_nonpos t hdt p a h.ownLeft
    obtain ⟨hnil', hkeep'⟩ := tick_of_nonpos u (hsame.dt ▸ hdt) p b h.ownRight
    rw [hnil, hnil', hkeep, hkeep']
    exact ⟨rfl, h⟩

/-- What the ticks of a run decide for pool `p`, tick by tick. -/
def decisionLog (p : Pool) (a : PoolAutoscaler) (ticks : List TickArgs) : List (List AutoscalerDecision) :=
  Runs.log tickOrKeep (fun a t => [a.decidedFor p t]) a ticks

/-- **No pool influences another.**  Two autoscalers of one configuration in which pool `p` has a controller of its own,
the same in both, and two sequences of ticks that agree on the clock, `dt` and what concerns `p`: the decisions for `p`
are the same, tick by tick, whatever the other pools, their controllers, their inputs and the order of the topology. -/
theorem decisionLog_eq_of_sameInputs (config : AutoscalerConfig) (p : Pool) (controllers controllers' : OrdDict Pool Nat)
    (pids pids' : Nat → PidController) (metrics metrics' : Bool) (ticks ticks' : List TickArgs)
    (hown : Owns controllers p) (hown' : Owns controllers' p)
    (hpid : (controllers.get? p).map pids = (controllers'.get? p).map pids')
    (hsame : List.Forall₂ (SameInputs p) ticks ticks') :
    decisionLog p (fresh config controllers pids metrics) ticks =
      decisionLog p (fresh config controllers' pids' metrics') ticks' := by
  have hagree : Agree p (fresh config controllers pids metrics) (fresh config controllers' pids' metrics') := by
    refine ⟨?_, hown, hown'⟩
    simp [view, fresh, hpid]
  refine (Runs.log_eq_of_bisim (Agree p) (SameInputs p) (fun a b t u h hs => ?_) hsame hagree).1
  obtain ⟨hds, hnext⟩ := agree_tick h hs
  exact ⟨congrArg (fun ds => [ds]) hds, hnext⟩

def pairControllers : OrdDict Pool Nat := OrdDict.ofList [(.decode, 1), (.prefill, 0)]

/-- The prefill pool of `flipTicks`, behind a crowded decode pool. -/
def crowdedTicks : List TickArgs :=
  flipTicks.map (fun t => { t with
    topology := OrdDict.ofList ((.decode, ⟨.decode, 2, 5, by decide, by decide⟩) :: t.topology.items)
    queueDepths := t.queueDepths.set .decode 99 })

theorem pairControllers_own : Owns pairControllers .prefill :=
  ⟨0, by decide, fun q hq => by cases q <;> first | rfl | exact absurd hq (by decide)⟩

theorem crowdedTicks_sameInputs : List.Forall₂ (SameInputs .prefill) crowdedTicks flipTicks :=
  .cons ⟨rfl, rfl, rfl, rfl, rfl⟩ (.cons ⟨rfl, rfl, rfl, rfl, rfl⟩ (.cons ⟨rfl, rfl, rfl, rfl, rfl⟩ .nil))

theorem crowded_decisionLog :
    decisionLog .prefill (fresh undwelled pairControllers flipPids true) crowdedTicks =
    decisionLog .prefill (fresh undwelled (OrdDict.ofList [(.prefill, 0)]) flipPids false) flipTicks :=
  decisionLog_eq_of_sameInputs undwelled .prefill pairControllers (OrdDict.ofList [(.prefill, 0)]) flipPids flipPids true false
    crowdedTicks flipTicks pairControllers_own
    ⟨0, by decide, fun q hq => by cases q <;> first | rfl | exact absurd hq (by decide)⟩ rfl crowdedTicks_sameInputs

end PoolAutoscaler
end GoodputLab
