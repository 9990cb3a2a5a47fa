import GoodputLab.KvStagger
/-!
# KvStaggerSample — a sample of an engine that serves its batch staggered

The sample reads the first step with the whole batch alive and the last, `tokens - 1` (`readSoFar_freeze`).  It returns
when its step budget reaches the last token of the last request (`sample_staggered`), and raises when it does not
(`sample_outOfSteps`).
-/
namespace GoodputLab
namespace Stagger

variable {σ : Type} {d : EngineDriver σ} {p : Stagger} {a : SampleArgs} {seen : List Text} {k : Nat}

/-- The readings after `k` steps. -/
structure ReadSoFar (p : Stagger) (k : Nat) (w : Window) : Prop where
  before : k ≤ p.last → w.prefillUsed = none
  after  : p.last < k → w.prefillUsed = some (p.held (p.last + 1)) ∧ w.prefillLive = p.live (p.last + 1) ∧
    w.decodeUsed = some (p.held (min k (p.tokens - 1))) ∧ w.decodeLive = p.live (min k (p.tokens - 1))

theorem readSoFar_congr {w w' : Window} (hs : SameReadings w w') (h : p.ReadSoFar k w) : p.ReadSoFar k w' := by
  obtain ⟨hpu, hpl, hdu, hdl⟩ := hs
  refine ⟨fun hk => ?_, fun hk => ?_⟩
  · rw [hpu]
    exact h.before hk
  · rw [hpu, hpl, hdu, hdl]
    exact h.after hk

theorem onSchedule_freeze {w : Window} (h : p.OnSchedule a k w) (used : Int) : p.OnSchedule a k (w.freeze a used) := by
  obtain ⟨outs, hc, hall⟩ := h
  exact ⟨outs, counts_freeze hc used, hall⟩

/-- **A pass moves the readings with the schedule**: nothing until the last request has started, then both readings, then
the decode reading, until the first request finishes. -/
theorem readSoFar_freeze {w : Window} (hasks : p.Asks a) (hw : p.OnSchedule a (k + 1) w) (h : p.ReadSoFar k w) :
    p.ReadSoFar (k + 1) (w.freeze a (p.held (k + 1))) := by
  have hoverlap := p.overlap
  have hsched := hw.scheduled_eq hasks
  have hany := hw.anyFinished_eq hasks
  rcases Nat.lt_trichotomy k p.last with hk | hk | hk
  · have hnone := h.before hk.le
    rw [decide_eq_false (by omega)] at hsched
    have hfreeze : w.freeze a (p.held (k + 1)) = w := by simp [Window.freeze, hnone, hsched]
    rw [hfreeze]
    exact ⟨fun _ => hnone, fun hlt => by omega⟩
  · have hnone := h.before hk.le
    have hlive := hw.liveTokens_alive hasks (by omega)
    rw [decide_eq_true (by omega)] at hsched
    rw [decide_eq_false (by omega)] at hany
    have hany' : ({ w with prefillUsed := some (p.held (k + 1)), prefillLive := p.live (k + 1) } :
        Window).anyFinished = false := hany
    have hmin : min (k + 1) (p.tokens - 1) = k + 1 := by omega
    refine ⟨fun hlt => by omega, fun _ => ?_⟩
    rw [hmin, ← hk]
    simp [Window.freeze, hnone, hsched, hany', hlive]
  · obtain ⟨hpu, hpl, hdu, hdl⟩ := h.after hk
    refine ⟨fun hlt => by omega, fun _ => ?_⟩
    by_cases hlt : k + 1 < p.tokens
    · have hlive := hw.liveTokens_alive hasks hlt
      rw [decide_eq_false (by omega)] at hany
      have hmin : min (k + 1) (p.tokens - 1) = k + 1 := by omega
      rw [hmin]
      simp [Window.freeze, hpu, hpl, hany, hlive]
    · rw [decide_eq_true (by omega)] at hany
      have hmin : min (k + 1) (p.tokens - 1) = min k (p.tokens - 1) := by omega
      rw [hmin]
      simp [Window.freeze, hpu, hpl, hany, hdu, hdl]

/-! ## The loop -/

/-- What holds after `k` steps: the engine serves the batch, and the window is where the schedule has it. -/
structure AfterSteps (engine : Serves d p) (seen : List Text) (a : SampleArgs) (k : Nat) (w : Window) (s : σ) : Prop where
  serving  : engine.serving seen a.requestIds k s
  window   : p.OnSchedule a k w
  readings : p.ReadSoFar k w

/-- **One pass is one step of the schedule**, and it is the last pass when all have finished. -/
theorem sampleStep_staggered (engine : Serves d p) (hasks : p.Asks a) {idx : Nat} {w : Window} {s : σ}
    (h : AfterSteps engine seen a k w s) (hk : k < p.last + p.tokens) :
    Act.Returns (sampleStep d a p.total idx w) s
      (fun r s' => AfterSteps engine seen a (k + 1) r.1 s' ∧ r.2 = decide (p.last + p.tokens ≤ k + 1)) := by
  have hoverlap := p.overlap
  unfold sampleStep
  refine (engine.free h.serving).bind (fun before s₁ ⟨hbefore, hs₁⟩ => ?_)
  rw [hbefore, sub_sub_cancel, h.window.gate_ok hasks, Act.Returns, Act.lift_ok_bind]
  refine (engine.step hs₁ hk).bind (fun outs s₂ ⟨houts, hs₂⟩ => ?_)
  obtain ⟨w', habs, hw', hsame⟩ := onSchedule_step hasks h.window houts
  have hread := readSoFar_congr hsame h.readings
  rw [habs, Act.Returns, Act.lift_ok_bind, hw'.allFinished_eq hasks]
  by_cases hall : p.last + p.tokens ≤ k + 1
  · -- the last pass freezes nothing, and the decode reading is long settled
    obtain ⟨hpu, hpl, hdu, hdl⟩ := hread.after (by omega)
    have hlast : p.ReadSoFar (k + 1) w' := by
      have hmin : min (k + 1) (p.tokens - 1) = min k (p.tokens - 1) := by omega
      exact ⟨fun hlt => by omega, fun _ => by rw [hmin]; exact ⟨hpu, hpl, hdu, hdl⟩⟩
    rw [decide_eq_true hall, if_pos rfl, if_pos (by rw [hdu]; rfl)]
    refine (engine.unfinished hs₂).bind (fun _ s₃ hs₃ => ?_)
    exact Act.returns_pure ⟨⟨hs₃, hw', hlast⟩, rfl⟩
  · rw [decide_eq_false hall, if_neg Bool.false_ne_true]
    refine (engine.free hs₂).bind (fun after s₃ ⟨hafter, hs₃⟩ => ?_)
    have hguard : (w'.prefillUsed.isNone && w'.anyFinished) = false := by
      rw [hw'.anyFinished_eq hasks]
      by_cases hlast : k ≤ p.last
      · rw [decide_eq_false (by omega), Bool.and_false]
      · rw [(hread.after (by omega)).1]
        rfl
    rw [hafter, sub_sub_cancel, hw'.gate_ok hasks, hguard, Act.Returns, Act.lift_ok_bind]
    exact Act.returns_pure ⟨⟨hs₃, onSchedule_freeze hw' _, readSoFar_freeze hasks hw' hread⟩, rfl⟩

/-- **With a pass for each step left, the loop ends when the last request does.** -/
theorem sampleLoop_staggered (engine : Serves d p) (hasks : p.Asks a) : ∀ (fuel k idx : Nat) {w : Window} {s : σ},
    AfterSteps engine seen a k w s → k < p.last + p.tokens → p.last + p.tokens ≤ k + fuel →
    Act.Returns (sampleLoop d a p.total fuel idx w) s (fun w' s' => AfterSteps engine seen a (p.last + p.tokens) w' s')
  | 0, k, idx, w, s, _, hk, hfuel => by omega
  | fuel + 1, k, idx, w, s, h, hk, hfuel => by
    unfold sampleLoop
    refine (sampleStep_staggered engine hasks h hk).bind (fun r s' hstep => ?_)
    obtain ⟨hr, hdone⟩ := hstep
    by_cases hall : p.last + p.tokens ≤ k + 1
    · rw [hdone, decide_eq_true hall, if_pos rfl]
      have hend : k + 1 = p.last + p.tokens := by omega
      rw [hend] at hr
      exact Act.returns_pure hr
    · rw [hdone, decide_eq_false hall, if_neg Bool.false_ne_true]
      exact sampleLoop_staggered engine hasks fuel (k + 1) (idx + 1) hr (by omega) (by omega)

/-- **With fewer, it runs out of steps.** -/
theorem sampleLoop_outOfSteps (engine : Serves d p) (hasks : p.Asks a) : ∀ (fuel k idx : Nat) {w : Window} {s : σ},
    AfterSteps engine seen a k w s → k + fuel < p.last + p.tokens → Act.Raises (sampleLoop d a p.total fuel idx w) s
  | 0, k, idx, w, s, _, _ => ⟨_, _, rfl⟩
  | fuel + 1, k, idx, w, s, h, hfuel => by
    unfold sampleLoop
    refine (sampleStep_staggered engine hasks h (by omega)).bind_raises (fun r s' hstep => ?_)
    obtain ⟨hr, hdone⟩ := hstep
    rw [hdone, decide_eq_false (by omega), if_neg Bool.false_ne_true]
    exact sampleLoop_outOfSteps engine hasks fuel (k + 1) (idx + 1) hr (by omega)

/-! ## The sample -/

/-- What the sample returns. -/
def readings (p : Stagger) (theoryBpt : Int) : SampleReadings where
  kvBytesPrefill := p.held (p.last + 1) * p.blockSize * theoryBpt
  kvBytesDecode := p.held (p.tokens - 1) * p.blockSize * theoryBpt
  liveTokensPrefill := p.live (p.last + 1)
  liveTokensDecode := p.live (p.tokens - 1)
  usedBlocksPrefill := p.held (p.last + 1)
  usedBlocksDecode := p.held (p.tokens - 1)

theorem Asks.requests_eq (hasks : p.Asks a) :
    a.requests = (a.requestIds.zip a.prompts).map (fun q => p.request q.1 q.2) := by
  have hzip : a.prompts.zip a.promptLens = a.prompts.map (fun prompt => (prompt, p.seqLen)) := by
    rw [hasks.lens, ← hasks.prompts, zip_replicate_length]
  unfold SampleArgs.requests
  rw [hzip, List.zip_map_right, List.map_map]
  refine List.map_congr_left (fun q _ => ?_)
  simp only [Function.comp_apply, Prod.map_fst, Prod.map_snd, id_eq, hasks.decode, hasks.eos]
  rfl

/-- **The engine takes the whole batch.** -/
theorem addRequests_staggered (engine : Serves d p) : ∀ (l : List (Text × Text)) {rids : List Text} {s : σ},
    engine.queued seen rids s → rids.length + l.length ≤ p.starts.length →
    (∀ q ∈ l, q.1 ∉ seen ++ rids) → (l.map Prod.fst).Nodup →
    Act.Returns (addRequests d (l.map (fun q => p.request q.1 q.2))) s
      (fun _ s' => engine.queued seen (rids ++ l.map Prod.fst) s')
  | [], rids, s, h, _, _, _ => by
    rw [List.map_nil, List.map_nil, List.append_nil]
    exact Act.returns_pure h
  | q :: l, rids, s, h, hlen, hnew, hdistinct => by
    rw [List.length_cons] at hlen
    rw [List.map_cons, List.nodup_cons] at hdistinct
    rw [List.map_cons, List.map_cons, addRequests]
    refine (engine.add q.1 q.2 h (by omega) (hnew q List.mem_cons_self)).bind (fun _ s' hs' => ?_)
    have hlater : ∀ r ∈ l, r.1 ∉ seen ++ (rids ++ [q.1]) := by
      intro r hr hmem
      rw [← List.append_assoc] at hmem
      rcases List.mem_append.1 hmem with hmem | hmem
      · exact hnew r (List.mem_cons_of_mem _ hr) hmem
      · exact hdistinct.1 (List.mem_map.2 ⟨r, hr, List.mem_singleton.1 hmem⟩)
    have hrest := addRequests_staggered engine l hs' (by rw [List.length_append, List.length_singleton]; omega)
      hlater hdistinct.2
    rwa [List.append_assoc, List.singleton_append] at hrest

theorem Asks.checkArgs_ok (hasks : p.Asks a) : checkArgs a = .ok () := by
  have hoverlap := p.overlap
  have hseq := p.seqPos
  have hblock := p.blockPos
  have htheory := hasks.theoryPos
  have hpos : 0 < p.starts.length := List.length_pos_of_mem p.firstMem
  have hlens : a.promptLens.any (fun pl => decide (pl ≤ 0)) = false := by
    rw [hasks.lens, List.any_eq_false]
    intro pl hpl
    rw [List.eq_of_mem_replicate hpl, decide_eq_true_eq]
    omega
  unfold checkArgs
  rw [hasks.ids, hasks.prompts, hlens, hasks.decode, hasks.blocks, hasks.lens, List.length_replicate]
  rw [if_neg (by omega), if_neg (by simp), if_neg Bool.false_ne_true, if_neg (by omega), if_neg (by omega),
    if_neg (by omega)]

/-- A sample up to its loop. -/
theorem sample_started (engine : Serves d p) (hasks : p.Asks a) {s : σ} (hidle : engine.idle seen s)
    (hnew : ∀ rid ∈ a.requestIds, rid ∉ seen) :
    ∃ s', AfterSteps engine seen a 0 (Window.initial a.requestIds) s' ∧
      sampleDecodeWindow d a s = Act.ensuring (do
        let w ← sampleLoop d a p.total (maxSteps a).toNat 0 (Window.initial a.requestIds)
        Act.lift (finish a w)) d.endSample s' := by
  obtain ⟨n, s₁, hnum, hn, hs₁⟩ := engine.numBlocks hidle
  have htotal : checkTotal (some p.total) = .ok p.total := if_neg (by have := p.totalPos; omega)
  have hids : (a.requestIds.zip a.prompts).map Prod.fst = a.requestIds :=
    List.map_fst_zip (by rw [hasks.ids, hasks.prompts])
  have hlen : (a.requestIds.zip a.prompts).length = p.starts.length := by
    rw [List.length_zip, hasks.ids, hasks.prompts, Nat.min_self]
  obtain ⟨u, s₂, hadd, hs₂⟩ := addRequests_staggered engine (a.requestIds.zip a.prompts) hs₁
    (by rw [List.length_nil, hlen, Nat.zero_add])
    (fun q hq => by rw [List.append_nil]; exact hnew q.1 (List.of_mem_zip hq).1) (by rw [hids]; exact hasks.distinct)
  rw [← hasks.requests_eq] at hadd
  rw [hids, List.nil_append] at hs₂
  refine ⟨s₂, ⟨engine.start hs₂ hasks.ids, p.onSchedule_initial a, fun _ => rfl, fun hlt => by omega⟩, ?_⟩
  unfold sampleDecodeWindow
  rw [hasks.checkArgs_ok, Act.lift_ok_bind, Act.bind_of_ok hnum, hn, htotal, Act.lift_ok_bind, Act.bind_of_ok hadd]

theorem Asks.maxSteps_eq (hasks : p.Asks a) : maxSteps a = a.prefillChunks + p.tokens + 8 := by
  rw [maxSteps, hasks.decode]

/-- **A sample whose budget reaches the last token** returns the readings of the first and the last step with the whole
batch alive, and leaves the engine ready for the next one. -/
theorem sample_staggered (engine : Serves d p) (hasks : p.Asks a) {s : σ} (hidle : engine.idle seen s)
    (hnew : ∀ rid ∈ a.requestIds, rid ∉ seen) (hbudget : (p.last : Int) ≤ a.prefillChunks + 8) :
    Act.Returns (sampleDecodeWindow d a) s
      (fun r s' => r = p.readings a.theoryBpt ∧ engine.idle (seen ++ a.requestIds) s') := by
  have hoverlap := p.overlap
  have hmax := hasks.maxSteps_eq
  obtain ⟨s₁, hs₁, hsample⟩ := sample_started engine hasks hidle hnew
  unfold Act.Returns
  rw [hsample]
  refine Act.Returns.ensuring (Q := fun r s' => r = p.readings a.theoryBpt ∧
    engine.serving seen a.requestIds (p.last + p.tokens) s') ?_ ?_
  · refine (sampleLoop_staggered engine hasks (maxSteps a).toNat 0 0 hs₁ (by omega) (by omega)).bind
      (fun w s' hs' => ?_)
    have hmin : min (p.last + p.tokens) (p.tokens - 1) = p.tokens - 1 := by omega
    obtain ⟨hpu, hpl, hdu, hdl⟩ := hs'.readings.after (by omega)
    rw [hmin] at hdu hdl
    have hmono : ¬ p.held (p.tokens - 1) < p.held (p.last + 1) := by
      rw [not_lt]
      exact p.held_mono ((p.allAlive_iff _).2 (by omega)) ((p.allAlive_iff _).2 (by omega)) (by omega)
    have hfinish : finish a w = .ok (p.readings a.theoryBpt) := by
      unfold finish
      rw [hpu, hdu, hpl, hdl, hasks.blocks]
      exact if_neg hmono
    rw [hfinish]
    exact Act.returns_pure ⟨rfl, hs'.serving⟩
  · rintro r s' ⟨hr, hs'⟩
    exact (engine.finish hs' (le_refl _)).mono (fun _ s'' hs'' => ⟨hr, hs''⟩)

/-- **A sample whose budget does not reach it raises.** -/
theorem sample_outOfSteps (engine : Serves d p) (hasks : p.Asks a) {s : σ} (hidle : engine.idle seen s)
    (hnew : ∀ rid ∈ a.requestIds, rid ∉ seen) (hbudget : a.prefillChunks + 8 < (p.last : Int)) :
    Act.Raises (sampleDecodeWindow d a) s := by
  have hoverlap := p.overlap
  have hmax := hasks.maxSteps_eq
  obtain ⟨s₁, hs₁, hsample⟩ := sample_started engine hasks hidle hnew
  unfold Act.Raises
  rw [hsample]
  exact (sampleLoop_outOfSteps engine hasks (maxSteps a).toNat 0 0 hs₁ (by omega)).bind.ensuring

end Stagger
end GoodputLab
