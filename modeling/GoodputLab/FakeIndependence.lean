import GoodputLab.FakeEngine
import GoodputLab.KvLockstep
import GoodputLab.KvWindow
/-!
# FakeIndependence — whether a sample sees what ran before it

`end_sample` frees every block but finishes no request, and nothing removes one.  A request that has finished is never
seen again (`behind_inStep`); one that was aborted or ended before it finished goes on producing tokens, and the next
sample meets an id it does not know.  So a sample after `end_sample` is that of a new engine exactly when every request
of the history has finished (`samples_independent_iff`).
-/
namespace GoodputLab
namespace FakeEngine

variable (e : FakeEngine)

/-! ## The end of a sample -/

def freed (requests : OrdDict Text FakeRequest) : OrdDict Text FakeRequest :=
  requests.mapValues (fun r => { r with freed := true })

theorem usedBy_eq (requests : OrdDict Text FakeRequest) :
    e.usedBy requests = (requests.items.map (fun p => e.blocksOf p.2)).sum := by
  unfold usedBy OrdDict.values
  rw [List.map_map]
  rfl

theorem free_of_freed {r : FakeRequest} (h : r.freed = true) : { r with freed := true } = r := by
  rw [← h]

theorem sum_blocksOf_freed {l : List (Text × FakeRequest)} (h : ∀ p ∈ l, p.2.freed = true) :
    (l.map (fun p => e.blocksOf p.2)).sum = 0 := by
  refine List.sum_eq_zero (fun x hx => ?_)
  obtain ⟨p, hp, rfl⟩ := List.mem_map.1 hx
  simp [blocksOf, h p hp]

theorem usedBy_of_freed {requests : OrdDict Text FakeRequest} (h : ∀ p ∈ requests.items, p.2.freed = true) :
    e.usedBy requests = 0 := by
  rw [usedBy_eq]
  exact e.sum_blocksOf_freed h

theorem freed_all (requests : OrdDict Text FakeRequest) : ∀ p ∈ (freed requests).items, p.2.freed = true := by
  intro p hp
  obtain ⟨q, -, rfl⟩ := List.mem_map.1 hp
  rfl

theorem syncPool_of_freed {s : FakeState} (h : ∀ p ∈ s.requests.items, p.2.freed = true) :
    e.syncPool s = (.ok (), { s with usedBlocks := 0 }) := by
  have hpos := e.totalPos
  unfold syncPool
  simp only [e.usedBy_of_freed h]
  rw [if_neg (by omega)]

/-- **`end_sample` never raises, and leaves the pool free.** -/
theorem endSample_eq (s : FakeState) : e.endSample s = (.ok (), ⟨0, freed s.requests⟩) := by
  unfold endSample
  rw [e.syncPool_of_freed (s := { s with requests := s.requests.mapValues (fun r => { r with freed := true }) })
    (freed_all s.requests)]
  rfl

/-! ## Finished requests are never seen again -/

/-- The same engine, with the finished and freed requests `old` before the others. -/
def Behind (old : List (Text × FakeRequest)) (s t : FakeState) : Prop :=
  s.usedBlocks = t.usedBlocks ∧ s.requests.items = old ++ t.requests.items

variable {old : List (Text × FakeRequest)}

theorem behind_mapValues {s t : FakeState} (h : Behind old s t) {f : FakeRequest → FakeRequest}
    (hf : ∀ p ∈ old, f p.2 = p.2) :
    Behind old { s with requests := s.requests.mapValues f } { t with requests := t.requests.mapValues f } := by
  refine ⟨h.1, ?_⟩
  simp only [OrdDict.mapValues]
  rw [h.2, List.map_append, OrdDict.map_value_eq_self hf]

theorem advance_finished {r : FakeRequest} (h : r.finished = true) : e.advance r = r := if_pos h

theorem filter_unfinished {l : List (Text × FakeRequest)} (h : ∀ p ∈ l, p.2.finished = true) :
    l.filter (fun p => !p.2.finished) = [] := by
  rw [List.filter_eq_nil_iff]
  intro p hp
  simp [h p hp]

section Behind

variable (hold : ∀ p ∈ old, p.2.finished = true ∧ p.2.freed = true)

include hold

theorem behind_usedBy {s t : FakeState} (h : Behind old s t) : e.usedBy s.requests = e.usedBy t.requests := by
  have hzero := e.sum_blocksOf_freed (fun p hp => (hold p hp).2)
  rw [usedBy_eq, usedBy_eq, h.2, List.map_append, List.sum_append, hzero, Int.zero_add]

theorem behind_syncPool : Act.InStep (Behind old) e.syncPool e.syncPool := by
  intro s t h
  unfold syncPool
  simp only [e.behind_usedBy hold h]
  split
  · exact ⟨rfl, h⟩
  · exact ⟨rfl, rfl, h.2⟩

theorem behind_addRequest (r : AddRequest) (hr : r.requestId ∉ old.map Prod.fst) :
    Act.InStep (Behind old) (e.addRequest r) (e.addRequest r) := by
  intro s t h
  have hget := OrdDict.get?_of_items_append h.2 hr
  unfold addRequest
  simp only [OrdDict.contains, hget]
  cases ht : t.requests.get? r.requestId with
  | some q => exact ⟨rfl, h⟩
  | none =>
    rw [ht] at hget
    simp only [Option.isSome_none, Bool.false_eq_true, if_false]
    split
    · exact ⟨rfl, h⟩
    split
    · exact ⟨rfl, h⟩
    · refine e.behind_syncPool hold _ _ ⟨h.1, ?_⟩
      rw [OrdDict.items_set_of_notMem _ _ hget, OrdDict.items_set_of_notMem _ _ ht, h.2, List.append_assoc]

theorem behind_outputs {s t : FakeState} (h : Behind old s t) : e.outputs s.requests = e.outputs t.requests := by
  have hnone := filter_unfinished (fun p hp => (hold p hp).1)
  unfold outputs
  rw [h.2, List.filter_append, hnone, List.nil_append]

theorem behind_step : Act.InStep (Behind old) e.step e.step := by
  intro s t h
  have hadvance : ∀ p ∈ old, e.advance p.2 = p.2 := fun p hp => e.advance_finished (hold p hp).1
  obtain ⟨hr, hs⟩ := e.behind_syncPool hold _ _ (behind_mapValues h hadvance)
  have houts := e.behind_outputs hold h
  unfold step
  rw [houts]
  cases hx : e.syncPool { s with requests := s.requests.mapValues e.advance } with
  | mk q s' =>
    cases hy : e.syncPool { t with requests := t.requests.mapValues e.advance } with
    | mk q' t' =>
      rw [hx, hy] at hr hs
      obtain rfl : q = q' := hr
      cases q <;> exact ⟨rfl, hs⟩

theorem behind_unfinished : Act.InStep (Behind old) getNumUnfinishedRequests getNumUnfinishedRequests := by
  intro s t h
  have hzero : (old.map Prod.snd).countP (fun r => !r.finished) = 0 := by
    rw [List.countP_eq_zero]
    intro r hr
    obtain ⟨p, hp, rfl⟩ := List.mem_map.1 hr
    simp [(hold p hp).1]
  refine ⟨?_, h⟩
  unfold getNumUnfinishedRequests OrdDict.values
  rw [h.2, List.map_append, List.countP_append, hzero, Nat.zero_add]

/-- **An engine with finished and freed requests in it answers as one without them.** -/
theorem behind_inStep :
    EnginesInStep (Behind old) (fun r => r.requestId ∉ old.map Prod.fst) e.driver e.driver where
  numGpuBlocks := fun _ _ h => ⟨rfl, h⟩
  numFreeBlocks := fun s t h => ⟨by simp only [driver, h.1], h⟩
  addRequest := fun r hr => e.behind_addRequest hold r hr
  step := e.behind_step hold
  unfinished := behind_unfinished hold
  endSample := fun s t h =>
    e.behind_syncPool hold _ _ (behind_mapValues h (fun p hp => free_of_freed (hold p hp).2))

end Behind

/-! ## A request that has not finished is seen -/

/-- The smallest sample: one request of one prompt token, finished by its first token. -/
def probe (rid : Text) : SampleArgs := ⟨[rid], [[]], [1], 1, true, 1, 1, 1⟩

def probeRequest : FakeRequest := ⟨1, 1, true, 0, false, false⟩

/-- The requests that have not finished, in order. -/
def unfinishedIds (requests : OrdDict Text FakeRequest) : List Text :=
  (requests.items.filter (fun p => !p.2.finished)).map Prod.fst

theorem ensuring_endSample_eq {α : Type} (x : Act SampleError FakeState α) (s : FakeState) :
    Act.ensuring x e.driver.endSample s = ((x s).1, ⟨0, freed (x s).2.requests⟩) := by
  have hend : e.driver.endSample (x s).2 = (.ok (), ⟨0, freed (x s).2.requests⟩) := e.endSample_eq _
  unfold Act.ensuring
  rw [hend]

theorem ensuring_endSample {α : Type} (x : Act SampleError FakeState α) (s : FakeState) :
    (Act.ensuring x e.driver.endSample s).1 = (x s).1 := by
  rw [ensuring_endSample_eq]

theorem advance_freed {r : FakeRequest} (h : r.freed = true) : (e.advance r).freed = true := by
  unfold advance
  split
  · exact h
  split
  · rfl
  · exact h

theorem advance_probeRequest : e.advance probeRequest = ⟨1, 1, true, 1, true, true⟩ := by
  have hfinish : e.finishAfter probeRequest = 1 := by
    unfold finishAfter
    cases e.eosAfter <;> rfl
  unfold advance
  rw [hfinish]
  rfl

theorem add_probe {s : FakeState} {rid : Text} (hfreed : ∀ p ∈ s.requests.items, p.2.freed = true)
    (hnew : s.requests.get? rid = none) :
    e.driver.addRequest ⟨rid, [], 1, 0, 1, true⟩ s = (.ok (), ⟨0, s.requests.set rid probeRequest⟩) := by
  have hused : e.usedBy (s.requests.set rid probeRequest) = 0 := by
    rw [usedBy_eq, OrdDict.items_set_of_notMem _ _ hnew, List.map_append, List.sum_append, ← usedBy_eq,
      e.usedBy_of_freed hfreed]
    rfl
  have hpos := e.totalPos
  show e.addRequest ⟨rid, [], 1, 0, 1, true⟩ s = _
  unfold addRequest
  simp only [OrdDict.contains, hnew, Option.isSome_none, Bool.false_eq_true, if_false]
  rw [if_neg (by decide), if_neg (by decide)]
  unfold syncPool
  rw [show (⟨1, 1, true, 0, false, false⟩ : FakeRequest) = probeRequest from rfl]
  simp only [hused]
  rw [if_neg (by omega)]

theorem step_probe {s : FakeState} {rid : Text} (hfreed : ∀ p ∈ s.requests.items, p.2.freed = true)
    (hnew : s.requests.get? rid = none) :
    ∃ s', e.driver.step ⟨0, s.requests.set rid probeRequest⟩ = (.ok (e.outputs s.requests ++ [⟨rid, 1, true⟩]), s') := by
  have hitems := OrdDict.items_set_of_notMem s.requests probeRequest hnew
  have hall : ∀ p ∈ ((s.requests.set rid probeRequest).mapValues e.advance).items, p.2.freed = true := by
    intro p hp
    obtain ⟨q, hq, rfl⟩ := List.mem_map.1 hp
    rw [hitems] at hq
    rcases List.mem_append.1 hq with hq | hq
    · exact e.advance_freed (hfreed q hq)
    · rw [List.mem_singleton.1 hq]
      rw [e.advance_probeRequest]
  have houts : e.outputs (s.requests.set rid probeRequest) = e.outputs s.requests ++ [⟨rid, 1, true⟩] := by
    have hone : [(rid, probeRequest)].filter (fun p => !p.2.finished) = [(rid, probeRequest)] := rfl
    unfold outputs
    rw [hitems, List.filter_append, hone, List.map_append, List.map_singleton, e.advance_probeRequest]
  show ∃ s', e.step ⟨0, s.requests.set rid probeRequest⟩ = _
  unfold step
  rw [e.syncPool_of_freed (s := ⟨0, (s.requests.set rid probeRequest).mapValues e.advance⟩) hall, houts]
  exact ⟨_, rfl⟩

theorem outputs_of_none {requests : OrdDict Text FakeRequest} (h : unfinishedIds requests = []) :
    e.outputs requests = [] := by
  rw [outputs, List.map_eq_nil_iff]
  exact List.map_eq_nil_iff.1 h

/-- The first request that has not finished answers first. -/
theorem outputs_of_unfinished {requests : OrdDict Text FakeRequest} {old : Text} {more : List Text}
    (h : unfinishedIds requests = old :: more) : ∃ o outs, e.outputs requests = o :: outs ∧ o.requestId = old := by
  rw [unfinishedIds] at h
  obtain ⟨q, l, hl, hq, -⟩ := List.map_eq_cons_iff.1 h
  exact ⟨_, _, by rw [outputs, hl, List.map_cons], hq⟩

theorem mem_keys_of_unfinished {requests : OrdDict Text FakeRequest} {rid : Text} (h : rid ∈ unfinishedIds requests) :
    rid ∈ requests.keys := by
  obtain ⟨p, hp, rfl⟩ := List.mem_map.1 h
  exact List.mem_map.2 ⟨p, (List.mem_filter.1 hp).1, rfl⟩

/-- Before the first pass the probe counts its one prompt token, and its blocks are not due. -/
theorem initial_probe (rid : Text) :
    (Window.initial [rid]).scheduled (probe rid) = false ∧ (Window.initial [rid]).liveTokens (probe rid) = 1 := by
  have hc : Counts (probe rid) [] (Window.initial [rid]) := counts_initial (probe rid)
  have hno : (Window.initial [rid]).anyFinished = false := hc.anyFinished_false.2 (fun r _ => rfl)
  constructor
  · rw [← Bool.not_eq_true, hc.scheduled_iff hno]
    intro halive
    have h := (halive rid List.mem_cons_self).1
    simp [tokensOf] at h
  · rw [hc.liveTokens_eq hno]
    rfl

/-- The probe's own token finishes it, and nothing is read before it. -/
theorem absorb_probe (rid : Text) :
    ∃ w, Window.absorbAll [⟨rid, 1, true⟩] (Window.initial [rid]) = .ok w ∧ w.allFinished = true ∧
      w.prefillUsed = none ∧ w.decodeUsed = none := by
  have hc : Counts (probe rid) [] (Window.initial [rid]) := counts_initial (probe rid)
  obtain ⟨w, habs, hcw, hsame⟩ := absorbAll_known [⟨rid, 1, true⟩] hc (fun o ho => by
    rw [List.mem_singleton.1 ho]
    exact ⟨List.mem_cons_self, Int.one_nonneg⟩)
  refine ⟨w, habs, ?_, hsame.1, hsame.2.2.1⟩
  rw [hcw.allFinished_iff]
  intro r hr
  rw [List.mem_singleton.1 hr]
  simp [finishedIn]

/-- The only pass of the probe: an unfinished request answers first and is not known, or the probe finishes. -/
theorem probe_pass {s : FakeState} {rid : Text} (hfreed : ∀ p ∈ s.requests.items, p.2.freed = true)
    (hnew : s.requests.get? rid = none) :
    (∃ s' w, unfinishedIds s.requests = [] ∧ w.prefillUsed = none ∧
      sampleStep e.driver (probe rid) e.totalBlocks 0 (Window.initial [rid]) ⟨0, s.requests.set rid probeRequest⟩ =
        (.ok (w, true), s')) ∨
    ∃ s' old more, unfinishedIds s.requests = old :: more ∧
      sampleStep e.driver (probe rid) e.totalBlocks 0 (Window.initial [rid]) ⟨0, s.requests.set rid probeRequest⟩ =
        (.error (.unknownRequest old), s') := by
  set s₁ : FakeState := ⟨0, s.requests.set rid probeRequest⟩ with hs₁
  obtain ⟨hsched, hlive⟩ := initial_probe rid
  have hfree : e.driver.numFreeBlocks s₁ = (.ok (e.totalBlocks - 0), s₁) := rfl
  have hgate : checkBlockConsistency (e.totalBlocks - (e.totalBlocks - 0)) 1 (probe rid).batch (probe rid).blockSize
      false (.preStep 0) = .ok () := by
    rw [sub_zero, sub_self]
    rfl
  obtain ⟨s₂, hstep⟩ := e.step_probe hfreed hnew
  unfold sampleStep
  rw [Act.bind_of_ok hfree, hlive, hsched, hgate, Act.lift_ok_bind, Act.bind_of_ok hstep]
  cases hids : unfinishedIds s.requests with
  | nil =>
    obtain ⟨w, habs, hall, hprefill, hdecode⟩ := absorb_probe rid
    refine Or.inl ⟨s₂, w, rfl, hprefill, ?_⟩
    rw [e.outputs_of_none hids, List.nil_append, habs, Act.lift_ok_bind, if_pos hall, hdecode]
    rfl
  | cons old more =>
    have hunknown : old ∉ (probe rid).requestIds := by
      intro hr
      rw [OrdDict.get?_eq_none, ← List.mem_singleton.1 hr] at hnew
      exact hnew (mem_keys_of_unfinished (hids ▸ List.mem_cons_self))
    obtain ⟨o, outs, houts, ho⟩ := e.outputs_of_unfinished hids
    have hc : Counts (probe rid) [] (Window.initial [rid]) := counts_initial (probe rid)
    have habs : Window.absorbAll (e.outputs s.requests ++ [⟨rid, 1, true⟩]) (Window.initial [rid]) =
        .error (.unknownRequest old) := by
      rw [houts, List.cons_append, Window.absorbAll, hc.absorb_unknown (by rw [ho]; exact hunknown), ho]
      rfl
    refine Or.inr ⟨s₂, old, more, rfl, ?_⟩
    rw [habs]
    exact Act.bind_of_error rfl

/-- **The probe after `end_sample`**: an unfinished request of the history answers first and is not known; without one
the probe finishes at once and reads nothing. -/
theorem probe_outcome {s : FakeState} {rid : Text} (hfreed : ∀ p ∈ s.requests.items, p.2.freed = true)
    (hnew : s.requests.get? rid = none) :
    (sampleDecodeWindow e.driver (probe rid) s).1 =
      match unfinishedIds s.requests with
      | []       => .error .prefillNeverCompleted
      | old :: _ => .error (.unknownRequest old) := by
  have hpos := e.totalPos
  have htotal : e.driver.numGpuBlocks s = (.ok (some e.totalBlocks), s) := rfl
  have hcheck : checkTotal (some e.totalBlocks) = .ok e.totalBlocks := if_neg (by omega)
  have hadd : addRequests e.driver (probe rid).requests s = (.ok (), ⟨0, s.requests.set rid probeRequest⟩) := by
    have h := e.add_probe hfreed hnew
    show addRequests e.driver [⟨rid, [], 1, 0, 1, true⟩] s = _
    rw [addRequests, Act.bind_of_ok h]
    rfl
  have hfuel : (maxSteps (probe rid)).toNat = 9 + 1 := rfl
  unfold sampleDecodeWindow
  rw [show checkArgs (probe rid) = .ok () from rfl, Act.lift_ok_bind, Act.bind_of_ok htotal, hcheck, Act.lift_ok_bind,
    Act.bind_of_ok hadd, ensuring_endSample, hfuel]
  rcases e.probe_pass hfreed hnew with ⟨s', w, hids, hw, hpass⟩ | ⟨s', old, more, hids, hpass⟩
  · have hloop := sampleLoop_last 9 hpass
    rw [show (probe rid).requestIds = [rid] from rfl, Act.bind_of_ok hloop, hids]
    simp only [finish, hw]
    rfl
  · have hloop := sampleLoop_error 9 hpass
    rw [show (probe rid).requestIds = [rid] from rfl, Act.bind_of_error hloop, hids]

/-! ## Histories -/

/-- The pool is free, and a sample with new request ids ends as on a new engine. -/
def LikeNew (s : FakeState) : Prop :=
  (e.driver.numFreeBlocks s).1 = .ok e.totalBlocks ∧
    ∀ a : SampleArgs, (∀ rid ∈ a.requestIds, s.requests.contains rid = false) →
      (sampleDecodeWindow e.driver a s).1 = (sampleDecodeWindow e.driver a .fresh).1

theorem like_new_of_finished {s : FakeState} (hused : s.usedBlocks = 0)
    (hall : ∀ p ∈ s.requests.items, p.2.finished = true ∧ p.2.freed = true) : e.LikeNew s := by
  refine ⟨by simp only [driver, hused, sub_zero], fun a hnew => ?_⟩
  have hbehind : Behind s.requests.items s .fresh := ⟨hused, (List.append_nil _).symm⟩
  refine (sampleDecodeWindow_inStep (e.behind_inStep hall) a (fun r hr => ?_) s .fresh hbehind).1
  obtain ⟨p, hp, rfl⟩ := List.mem_map.1 hr
  have hno := hnew p.1 (List.of_mem_zip hp).1
  rw [← Bool.not_eq_true, OrdDict.contains_iff, ← OrdDict.mem_keys] at hno
  exact hno

theorem unfinished_seen {s : FakeState} (hfreed : ∀ p ∈ s.requests.items, p.2.freed = true) (h : e.LikeNew s) :
    unfinishedIds s.requests = [] := by
  obtain ⟨rid, hrid⟩ := Infinite.exists_notMem_finset s.requests.keys.toFinset
  have hnew : s.requests.get? rid = none := by
    rw [OrdDict.get?_eq_none]
    simpa using hrid
  have hsame := h.2 (probe rid) (fun r hr => by
    rw [List.mem_singleton.1 hr, OrdDict.contains, hnew]
    rfl)
  have hfresh : (sampleDecodeWindow e.driver (probe rid) .fresh).1 = .error .prefillNeverCompleted :=
    e.probe_outcome (s := .fresh) (fun p hp => by cases hp) rfl
  rw [e.probe_outcome hfreed hnew, hfresh] at hsame
  cases hids : unfinishedIds s.requests with
  | nil => rfl
  | cons old more =>
    rw [hids] at hsame
    cases hsame

/-- **A sample after `end_sample` is that of a new engine exactly when every request of the history has finished.** -/
theorem samples_independent_iff (ops : List Op) :
    let s := Runs.run e.apply .fresh (ops ++ [.endSample])
    e.LikeNew s ↔ ∀ r ∈ s.requests.values, r.finished = true := by
  have hend : Runs.run e.apply .fresh (ops ++ [.endSample]) =
      ⟨0, freed (Runs.run e.apply .fresh ops).requests⟩ := by
    rw [Runs.run_append]
    exact congrArg Prod.snd (e.endSample_eq _)
  rw [hend]
  set d := (Runs.run e.apply FakeState.fresh ops).requests with hd
  constructor
  · intro h r hr
    have hnone := e.unfinished_seen (s := ⟨0, freed d⟩) (freed_all d) h
    obtain ⟨p, hp, rfl⟩ := List.mem_map.1 hr
    by_contra hno
    have hmem : p.1 ∈ unfinishedIds (freed d) :=
      List.mem_map.2 ⟨p, List.mem_filter.2 ⟨hp, by simpa using hno⟩, rfl⟩
    rw [hnone] at hmem
    cases hmem
  · intro h
    exact e.like_new_of_finished rfl (fun p hp => ⟨h p.2 (List.mem_map.2 ⟨p, hp, rfl⟩), freed_all d p hp⟩)

/-- Sixteen-token blocks, ten of them. -/
def tenBlocks : FakeEngine := ⟨10, 16, 1, none, by decide, by decide, by decide, by decide⟩

/-- A request of four tokens is added and stepped once, and the sample ended. -/
def endedEarly : FakeState :=
  Runs.run tenBlocks.apply .fresh [.addRequest ⟨"a".toList, [], 4, 0, 16, true⟩, .step, .endSample]

theorem ended_request_answers_later :
    (tenBlocks.driver.numFreeBlocks endedEarly).1 = .ok 10 ∧
    (sampleDecodeWindow tenBlocks.driver (probe "b".toList) endedEarly).1 = .error (.unknownRequest "a".toList) ∧
    (sampleDecodeWindow tenBlocks.driver (probe "b".toList) .fresh).1 = .error .prefillNeverCompleted ∧
    ¬ tenBlocks.LikeNew endedEarly := by
  have hfreed : ∀ p ∈ endedEarly.requests.items, p.2.freed = true := by decide +kernel
  have hnew : endedEarly.requests.get? "b".toList = none := by decide +kernel
  have hids : unfinishedIds endedEarly.requests = ["a".toList] := by decide +kernel
  have hlater := tenBlocks.probe_outcome hfreed hnew
  rw [hids] at hlater
  refine ⟨by decide +kernel, hlater, tenBlocks.probe_outcome (fun p hp => by cases hp) rfl, fun h => ?_⟩
  have hnone := tenBlocks.unfinished_seen hfreed h
  rw [hids] at hnone
  cases hnone

end FakeEngine
end GoodputLab
