import GoodputLab.Base.Runs
import GoodputLab.AutoscalerView
/-!
# AutoscalerThrash — what `controller_thrash_total` counts

A run is any sequence of ticks; a tick that raises emits nothing and changes nothing.  The counter is the number of flips
in the log whose last flip before them on the same pool is less than 240 s old (`thrash_eq_thrashCount`): a decision the
gates suppress is no flip, so it neither counts nor moves the time the next one is measured from.  With a dwell time of
240 s or more the gates leave nothing to count (`tick_thrash_of_dwell`).
-/
namespace GoodputLab
namespace PoolAutoscaler

/-! ## Runs -/

def tickOrKeep (a : PoolAutoscaler) (t : TickArgs) : PoolAutoscaler :=
  match a.tick t with
  | .ok (_, b) => b
  | .error _   => a

structure Emitted where
  now      : ℚ
  decision : AutoscalerDecision

def Emitted.isFlip (e : Emitted) (p : Pool) : Bool := e.decision.pool = p ∧ e.decision.delta ≠ 0

def emitted (a : PoolAutoscaler) (t : TickArgs) : List Emitted :=
  match a.tick t with
  | .ok (ds, _) => ds.map (⟨t.now, ·⟩)
  | .error _    => []

def lastFlip (p : Pool) (log : List Emitted) : Option ℚ := ((log.filter (fun e => e.isFlip p)).getLast?).map Emitted.now

/-- `e`, emitted after `past`, is a flip less than 240 s after the last one of its pool. -/
def thrashes (past : List Emitted) (e : Emitted) : Bool :=
  e.decision.delta ≠ 0 ∧ within thrashWindowS (lastFlip e.decision.pool past) e.now = true

/-- How many of the emitted decisions thrash, each after those before it. -/
def thrashCount (log : List Emitted) : Nat :=
  ((List.range log.length).filter (fun i => (log[i]?).any (fun e => thrashes (log.take i) e))).length

theorem lastFlip_concat (p : Pool) (log : List Emitted) (e : Emitted) :
    lastFlip p (log ++ [e]) = if e.isFlip p then some e.now else lastFlip p log := by
  unfold lastFlip
  rw [List.filter_append]
  by_cases h : e.isFlip p <;> simp [h]

theorem thrashCount_concat (log : List Emitted) (e : Emitted) :
    thrashCount (log ++ [e]) = thrashCount log + if thrashes log e then 1 else 0 := by
  unfold thrashCount
  rw [List.length_append, List.length_singleton, List.range_succ, List.filter_append, List.length_append]
  congr 1
  · refine congrArg List.length (List.filter_congr (fun i hi => ?_))
    have hlt := List.mem_range.1 hi
    rw [List.getElem?_append_left hlt, List.take_append_of_le_length hlt.le]
  · by_cases h : thrashes log e <;> simp [h]

/-! ## The counter -/

/-- The autoscaler remembers of its log the last flips and the count. -/
structure Remembers (a : PoolAutoscaler) (log : List Emitted) : Prop where
  flips  : ∀ p, a.lastFlipTs.get? p = lastFlip p log
  thrash : a.thrash = some (thrashCount log)

theorem tickPool_remembers (t : TickArgs) (hdt : 0 < t.dt) {a b : PoolAutoscaler} {p : Pool} {topo : PoolTopology}
    {d : AutoscalerDecision} {log : List Emitted} (h : Remembers a log) (htick : tickPool t a p topo = .ok (d, b)) :
    Remembers b (log ++ [⟨t.now, d⟩]) := by
  obtain ⟨b', hok, hview, hkeep, hthrash⟩ := tickPool_view t a p topo hdt
  rw [htick] at hok
  cases hok
  refine ⟨fun q => ?_, ?_⟩
  · rw [lastFlip_concat]
    by_cases hq : q = p
    · subst hq
      have hlast : b.lastFlipTs.get? q = if ((a.view q).decide t q topo).delta ≠ 0 then some t.now
          else a.lastFlipTs.get? q := congrArg PoolView.lastFlip hview
      rw [hlast, ← h.flips q]
      simp [Emitted.isFlip]
    · rw [hkeep.flips q hq, h.flips q, if_neg]
      simp [Emitted.isFlip, Ne.symm hq]
  · rw [hthrash, h.thrash, thrashCount_concat, Option.map_some, h.flips p]
    unfold thrashes
    rw [PoolView.decide_pool]
    simp only [decide_eq_true_eq]
    split <;> rfl

theorem tickPools_remembers (t : TickArgs) (hdt : 0 < t.dt) : ∀ (l : List (Pool × PoolTopology))
    {a b : PoolAutoscaler} {ds : List AutoscalerDecision} {log : List Emitted}, Remembers a log →
    tickPools t l a = .ok (ds, b) → Remembers b (log ++ ds.map (⟨t.now, ·⟩))
  | [], a, b, ds, log, h, htick => by
    cases htick
    rw [List.map_nil, List.append_nil]
    exact h
  | (p, topo) :: rest, a, b, ds, log, h, htick => by
    obtain ⟨a₁, hp, -⟩ := tickPool_view t a p topo hdt
    obtain ⟨ds₁, b₁, hrest⟩ := tickPools_returns t hdt rest a₁
    rw [tickPools_cons_ok hp hrest] at htick
    cases htick
    have hall := tickPools_remembers t hdt rest (tickPool_remembers t hdt h hp) hrest
    rwa [List.append_assoc] at hall

/-- A tick that is given no positive duration decides nothing but `no_controller`, or raises. -/
theorem tickPools_of_nonpos (t : TickArgs) (hdt : t.dt ≤ 0) : ∀ (l : List (Pool × PoolTopology)) (a : PoolAutoscaler),
    (∃ e, tickPools t l a = .error e) ∨
      tickPools t l a = .ok (l.map (fun x => ⟨x.1, 0, .noController, false⟩), a) ∧
        ∀ x ∈ l, a.controllers.get? x.1 = none
  | [], a => Or.inr ⟨rfl, fun _ h => by cases h⟩
  | (p, topo) :: rest, a => by
    cases href : a.controllers.get? p with
    | some ref =>
      refine Or.inl ⟨"dt must be > 0", ?_⟩
      have hraise : (a.pids ref).update (((t.queueDepths.get? p).getD 0 - topo.targetQueueDepth : Int) : ℚ) t.dt =
          .error "dt must be > 0" := by
        unfold PidController.update
        rw [if_pos hdt]
      have hpool : tickPool t a p topo = .error "dt must be > 0" := by
        unfold tickPool
        rw [href]
        simp only
        rw [hraise]
      rw [tickPools, hpool]
      rfl
    | none =>
      have hpool : tickPool t a p topo = .ok (⟨p, 0, .noController, false⟩, a) := by
        unfold tickPool
        rw [href]
      rcases tickPools_of_nonpos t hdt rest a with ⟨e, he⟩ | ⟨hrest, hnone⟩
      · left
        refine ⟨e, ?_⟩
        simp [tickPools, hpool, he, bind, Except.bind]
      · right
        refine ⟨tickPools_cons_ok hpool hrest, fun x hx => ?_⟩
        rcases List.mem_cons.1 hx with rfl | hx
        · exact href
        · exact hnone x hx

theorem remembers_quiet {a : PoolAutoscaler} {log : List Emitted} (h : Remembers a log) : ∀ (es : List Emitted),
    (∀ e ∈ es, e.decision.delta = 0) → Remembers a (log ++ es)
  | [], _ => by rwa [List.append_nil]
  | e :: es, hes => by
    have he := hes e List.mem_cons_self
    have hone : Remembers a (log ++ [e]) := by
      refine ⟨fun q => ?_, ?_⟩
      · rw [lastFlip_concat, h.flips q, if_neg (by simp [Emitted.isFlip, he])]
      · rw [thrashCount_concat, h.thrash, if_neg (by simp [thrashes, he]), Nat.add_zero]
    have hall := remembers_quiet hone es (fun e' he' => hes e' (List.mem_cons_of_mem _ he'))
    rwa [List.append_assoc] at hall

/-- **Every tick keeps what is remembered.** -/
theorem tick_remembers (a : PoolAutoscaler) (log : List Emitted) (t : TickArgs) (h : Remembers a log) :
    Remembers (a.tickOrKeep t) (log ++ a.emitted t) := by
  unfold tickOrKeep emitted tick
  by_cases hdt : 0 < t.dt
  · obtain ⟨ds, b, hok⟩ := tickPools_returns t hdt t.topology.items a
    rw [hok]
    exact tickPools_remembers t hdt _ h hok
  · rcases tickPools_of_nonpos t (not_lt.1 hdt) t.topology.items a with ⟨e, he⟩ | ⟨hok, -⟩
    · rw [he]
      exact remembers_quiet h [] (fun e he => by cases he)
    · rw [hok]
      refine remembers_quiet h _ (fun e he => ?_)
      obtain ⟨d, hd, rfl⟩ := List.mem_map.1 he
      obtain ⟨x, -, rfl⟩ := List.mem_map.1 hd
      rfl

theorem run_remembers (config : AutoscalerConfig) (controllers : OrdDict Pool Nat) (pids : Nat → PidController)
    (ticks : List TickArgs) :
    Remembers (Runs.run tickOrKeep (fresh config controllers pids true) ticks)
      (Runs.log tickOrKeep emitted (fresh config controllers pids true) ticks) :=
  Runs.run_log_invariant emitted Remembers tick_remembers ticks _ [] ⟨fun _ => rfl, rfl⟩

/-! ## A dwell time of 240 s or more -/

theorem not_within_of_le {window window' now : ℚ} {last : Option ℚ} (hle : window ≤ window')
    (h : within window' last now = false) : within window last now = false := by
  cases last with
  | none      => rfl
  | some last =>
    simp only [within, decide_eq_false_iff_not, not_lt] at h ⊢
    exact hle.trans h

theorem tickPool_thrash_of_dwell (t : TickArgs) (a : PoolAutoscaler) (p : Pool) (topo : PoolTopology) (hdt : 0 < t.dt)
    (hdwell : thrashWindowS ≤ a.config.minDwellS) :
    ∃ d b, tickPool t a p topo = .ok (d, b) ∧ b.config = a.config ∧ b.thrash = a.thrash := by
  obtain ⟨b, hok, -, hkeep, hthrash⟩ := tickPool_view t a p topo hdt
  refine ⟨_, b, hok, hkeep.config, ?_⟩
  have hpos : 0 < a.config.minDwellS := lt_of_lt_of_le (by decide +kernel) hdwell
  have hno : ¬ (((a.view p).decide t p topo).delta ≠ 0 ∧
      within thrashWindowS (a.lastFlipTs.get? p) t.now = true) := by
    rintro ⟨hflip, hwithin⟩
    unfold PoolView.decide at hflip
    cases hc : (a.view p).controller with
    | none =>
      rw [hc] at hflip
      exact hflip rfl
    | some c =>
      rw [hc] at hflip
      have hlate := (gate_delta_ne_zero hflip).2.2 hpos
      rw [show (a.view p).lastFlip = a.lastFlipTs.get? p from rfl] at hlate
      rw [not_within_of_le hdwell hlate] at hwithin
      cases hwithin
  simp only [if_neg hno] at hthrash
  rw [hthrash, Option.map_id']

theorem tickPools_thrash_of_dwell (t : TickArgs) (hdt : 0 < t.dt) : ∀ (l : List (Pool × PoolTopology))
    (a : PoolAutoscaler), thrashWindowS ≤ a.config.minDwellS →
    ∃ ds b, tickPools t l a = .ok (ds, b) ∧ b.config = a.config ∧ b.thrash = a.thrash
  | [], a, _ => ⟨[], a, rfl, rfl, rfl⟩
  | (p, topo) :: rest, a, hdwell => by
    obtain ⟨d, b, hp, hcfg, hthrash⟩ := tickPool_thrash_of_dwell t a p topo hdt hdwell
    obtain ⟨ds, c, hrest, hcfg', hthrash'⟩ := tickPools_thrash_of_dwell t hdt rest b (by rw [hcfg]; exact hdwell)
    exact ⟨_, c, tickPools_cons_ok hp hrest, hcfg'.trans hcfg, hthrash'.trans hthrash⟩

theorem tick_thrash_of_dwell (a : PoolAutoscaler) (t : TickArgs) (hdwell : thrashWindowS ≤ a.config.minDwellS) :
    (a.tickOrKeep t).config = a.config ∧ (a.tickOrKeep t).thrash = a.thrash := by
  unfold tickOrKeep tick
  by_cases hdt : 0 < t.dt
  · obtain ⟨ds, b, hok, hcfg, hthrash⟩ := tickPools_thrash_of_dwell t hdt t.topology.items a hdwell
    rw [hok]
    exact ⟨hcfg, hthrash⟩
  · rcases tickPools_of_nonpos t (not_lt.1 hdt) t.topology.items a with ⟨e, he⟩ | ⟨hok, -⟩
    · rw [he]
      exact ⟨rfl, rfl⟩
    · rw [hok]
      exact ⟨rfl, rfl⟩

/-- **The thrash counter is exact.**  After any ticks of an autoscaler with metrics it is the number of flips emitted less
than 240 s after the last flip of their pool; with a dwell time of at least 240 s it stays at zero. -/
theorem thrash_eq_thrashCount (config : AutoscalerConfig) (controllers : OrdDict Pool Nat) (pids : Nat → PidController)
    (ticks : List TickArgs) :
    (Runs.run tickOrKeep (fresh config controllers pids true) ticks).thrash =
      some (thrashCount (Runs.log tickOrKeep emitted (fresh config controllers pids true) ticks)) ∧
    (240 ≤ config.minDwellS →
      (Runs.run tickOrKeep (fresh config controllers pids true) ticks).thrash = some 0) := by
  refine ⟨(run_remembers config controllers pids ticks).thrash, fun hdwell => ?_⟩
  have hstep : ∀ a, ∀ t ∈ ticks, a.config = config ∧ a.thrash = some 0 →
      (tickOrKeep a t).config = config ∧ (tickOrKeep a t).thrash = some 0 := by
    rintro a t - ⟨hcfg, hzero⟩
    obtain ⟨hcfg', hthrash⟩ := tick_thrash_of_dwell a t (by rw [hcfg]; exact hdwell)
    exact ⟨hcfg'.trans hcfg, hthrash.trans hzero⟩
  exact (Runs.run_invariant (fun a : PoolAutoscaler => a.config = config ∧ a.thrash = some 0) ticks _ hstep ⟨rfl, rfl⟩).2

/-- A burst, a tick one minute later that the drain gate holds back and a scale-down another minute later. -/
def flipTicks : List TickArgs :=
  [burstTick, ⟨1060, burstTick.topology, OrdDict.ofList [(.prefill, 0)], OrdDict.ofList [(.prefill, 3)], 1⟩,
    ⟨1120, burstTick.topology, OrdDict.ofList [(.prefill, 0)], OrdDict.empty, 1⟩]

def flipPids : Nat → PidController := burstScaler.pids

theorem flipTicks_dwell : (Runs.run tickOrKeep (fresh ⟨1, 8, 2, 300, by decide, by decide, by decide, by decide +kernel⟩
    (OrdDict.ofList [(.prefill, 0)]) flipPids true) flipTicks).thrash = some 0 :=
  (thrash_eq_thrashCount _ _ _ flipTicks).2 (by decide +kernel)

example : (Runs.run tickOrKeep (fresh undwelled (OrdDict.ofList [(.prefill, 0)]) flipPids true) flipTicks).thrash =
    some 1 := by decide +kernel

end PoolAutoscaler
end GoodputLab
