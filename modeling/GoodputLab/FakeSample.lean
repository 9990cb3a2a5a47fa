import GoodputLab.FakeBatch
import GoodputLab.KvStagger
/-!
# FakeSample — what a sample of the fake engine reads

A sample of a batch of new requests, on a fake engine none of whose requests is unfinished, reads the blocks and the
tokens after the first token and after the last but one, and leaves the pool free; with one token to decode there is
nothing to read, and it raises (`sampleDecodeWindow_closedForm`).
-/
namespace GoodputLab
namespace FakeEngine

variable (e : FakeEngine)

/-! ## What every history leaves -/

/-- A finished request is freed, and with every request freed no block is used. -/
structure Tidy (s : FakeState) : Prop where
  freed : ∀ q ∈ s.requests.items, q.2.finished = true → q.2.freed = true
  free  : (∀ q ∈ s.requests.items, q.2.freed = true) → s.usedBlocks = 0

theorem tidy_fresh : Tidy .fresh := ⟨fun _ hq => (by cases hq), fun _ => rfl⟩

/-- A pool that cannot hold the blocks keeps its count, but then some request holds them. -/
theorem tidy_syncPool {s : FakeState} (h : ∀ q ∈ s.requests.items, q.2.finished = true → q.2.freed = true) :
    Tidy (e.syncPool s).2 := by
  by_cases hall : ∀ q ∈ s.requests.items, q.2.freed = true
  · rw [e.syncPool_of_freed hall]
    exact ⟨h, fun _ => rfl⟩
  · have hsame : (e.syncPool s).2.requests = s.requests := by
      unfold syncPool
      simp only
      split <;> rfl
    exact ⟨by rwa [hsame], fun hfree => absurd (by rwa [hsame] at hfree) hall⟩

theorem tidy_mapValues {s : FakeState} {f : FakeRequest → FakeRequest}
    (hf : ∀ q ∈ s.requests.items, (f q.2).finished = true → (f q.2).freed = true) :
    Tidy (e.syncPool { s with requests := s.requests.mapValues f }).2 := by
  refine e.tidy_syncPool (fun q hq => ?_)
  obtain ⟨r, hr, rfl⟩ := List.mem_map.1 hq
  exact hf r hr

theorem advance_tidy {r : FakeRequest} (h : r.finished = true → r.freed = true) :
    (e.advance r).finished = true → (e.advance r).freed = true := by
  unfold advance
  split
  · exact h
  · split
    · exact fun _ => rfl
    · exact h

theorem tidy_addRequest (r : AddRequest) {s : FakeState} (h : Tidy s) : Tidy (e.addRequest r s).2 := by
  unfold addRequest
  split
  · exact h
  split
  · exact h
  split
  · exact h
  · rename_i hno _ _
    have hnone : s.requests.get? r.requestId = none := by
      rwa [OrdDict.contains, Bool.not_eq_true, Option.isSome_eq_false_iff, Option.isNone_iff_eq_none] at hno
    refine e.tidy_syncPool (fun q hq => ?_)
    rw [OrdDict.items_set_of_notMem _ _ hnone] at hq
    rcases List.mem_append.1 hq with hq | hq
    · exact h.freed q hq
    · rw [List.mem_singleton.1 hq]
      intro hfin
      cases hfin

theorem tidy_step {s : FakeState} (h : Tidy s) : Tidy (e.step s).2 := by
  have hs := e.tidy_mapValues (s := s) (f := e.advance) (fun q hq => e.advance_tidy (h.freed q hq))
  unfold step
  cases hx : e.syncPool { s with requests := s.requests.mapValues e.advance } with
  | mk q s' =>
    rw [hx] at hs
    cases q <;> exact hs

theorem tidy_endSample (s : FakeState) : Tidy (e.endSample s).2 := e.tidy_mapValues (fun _ _ _ => rfl)

theorem tidy_abortRequest (rid : Text) {s : FakeState} (h : Tidy s) : Tidy (e.abortRequest rid s).2 := by
  unfold abortRequest
  split
  · refine e.tidy_syncPool (fun q hq => ?_)
    obtain ⟨r, hr, rfl⟩ := List.mem_map.1 hq
    simp only
    split
    · exact fun _ => rfl
    · exact h.freed r hr
  · exact h

/-- A sample is made of the engine's own calls. -/
theorem tidy_inStep : EnginesInStep (fun s t => s = t ∧ Tidy s) (fun _ => True) e.driver e.driver where
  numGpuBlocks := fun _ _ h => ⟨by rw [h.1], h⟩
  numFreeBlocks := by
    rintro s t ⟨rfl, h⟩
    exact ⟨rfl, rfl, h⟩
  addRequest := by
    rintro r - s t ⟨rfl, h⟩
    exact ⟨rfl, rfl, e.tidy_addRequest r h⟩
  step := by
    rintro s t ⟨rfl, h⟩
    exact ⟨rfl, rfl, e.tidy_step h⟩
  unfinished := by
    rintro s t ⟨rfl, h⟩
    exact ⟨rfl, rfl, h⟩
  endSample := by
    rintro s t ⟨rfl, -⟩
    exact ⟨rfl, rfl, e.tidy_endSample s⟩

theorem tidy_apply {s : FakeState} (h : Tidy s) (op : Op) : Tidy (e.apply s op) := by
  cases op with
  | addRequest r => exact e.tidy_addRequest r h
  | step => exact e.tidy_step h
  | abortRequest rid => exact e.tidy_abortRequest rid h
  | endSample => exact e.tidy_endSample s
  | sample a => exact (sampleDecodeWindow_inStep e.tidy_inStep a (fun _ _ => trivial) s s ⟨rfl, h⟩).2.2

theorem tidy_run (ops : List Op) : Tidy (Runs.run e.apply .fresh ops) :=
  Runs.run_invariant Tidy ops .fresh (fun _ op _ h => e.tidy_apply h op) tidy_fresh

/-! ## The batch of a sample -/

/-- What a sample asks of the engine `e` in the state `s`: new requests of any lengths, that the pool holds at their
longest. -/
structure FreshBatch (e : FakeEngine) (s : FakeState) (a : SampleArgs) : Prop where
  nonempty  : a.requestIds ≠ []
  distinct  : a.requestIds.Nodup
  fresh     : ∀ rid ∈ a.requestIds, s.requests.contains rid = false
  prompts   : a.prompts.length = a.requestIds.length
  lens      : a.promptLens.length = a.requestIds.length
  lensPos   : ∀ p ∈ a.promptLens, 0 < p
  decode    : 1 ≤ a.decodeTokens
  eos       : a.ignoreEos = true
  chunks    : 0 ≤ a.prefillChunks
  theoryPos : 0 < a.theoryBpt
  blocks    : a.blockSize = e.blockSize
  roomy     : e.blocksAfter a.promptLens (a.decodeTokens - 1) ≤ e.totalBlocks

def batchOf (a : SampleArgs) : List (Text × Int) := a.requestIds.zip a.promptLens

def tokensOfSample (a : SampleArgs) : Nat := a.decodeTokens.toNat

namespace FreshBatch

variable {e} {s : FakeState} {a : SampleArgs}

theorem batch_fst (h : FreshBatch e s a) : (batchOf a).map Prod.fst = a.requestIds := List.map_fst_zip h.lens.ge

theorem batch_snd (h : FreshBatch e s a) : (batchOf a).map Prod.snd = a.promptLens := List.map_snd_zip h.lens.le

theorem tokens_eq (h : FreshBatch e s a) : (tokensOfSample a : Int) = a.decodeTokens := by
  have := h.decode
  unfold tokensOfSample
  omega

theorem tokens_pos (h : FreshBatch e s a) : 1 ≤ tokensOfSample a := by
  have := h.decode
  have := h.tokens_eq
  omega

theorem room (h : FreshBatch e s a) :
    e.blocksAfter ((batchOf a).map Prod.snd) ((tokensOfSample a : Int) - 1) ≤ e.totalBlocks := by
  rw [h.batch_snd, h.tokens_eq]
  exact h.roomy

theorem batch_pos (h : FreshBatch e s a) : ∀ p ∈ (batchOf a).map Prod.snd, 0 < p := by
  rw [h.batch_snd]
  exact h.lensPos

theorem checkArgs_ok (h : FreshBatch e s a) : checkArgs a = .ok () := by
  have hids := List.length_pos_iff.2 h.nonempty
  have hdecode := h.decode
  have htheory := h.theoryPos
  have hblock := e.blockSizePos
  have hlens : a.promptLens.any (fun pl => decide (pl ≤ 0)) = false := by
    rw [List.any_eq_false]
    intro p hp
    have := h.lensPos p hp
    rw [decide_eq_true_eq]
    omega
  unfold checkArgs
  rw [hlens, h.prompts, h.lens, h.blocks]
  rw [if_neg (by omega), if_neg (by simp), if_neg Bool.false_ne_true, if_neg (by omega), if_neg (by omega),
    if_neg (by omega)]

/-- **The engine takes the whole batch.** -/
theorem addRequests_batch {tokens : Nat} {old : List (Text × FakeRequest)}
    (hold : ∀ q ∈ old, q.2.finished = true ∧ q.2.freed = true) (htokens : 1 ≤ tokens) :
    ∀ (l : List (Text × Text × Int)) {batch : List (Text × Int)} {s : FakeState}, e.BatchAt old tokens batch 0 s →
    (∀ q ∈ l, 0 < q.2.2) → (∀ q ∈ l, q.1 ∉ s.requests.keys) → (l.map Prod.fst).Nodup →
    ∃ s', addRequests e.driver (l.map (fun q => ⟨q.1, q.2.1, tokens, 0, q.2.2, true⟩)) s = (.ok (), s') ∧
      e.BatchAt old tokens (batch ++ l.map (fun q => (q.1, q.2.2))) 0 s'
  | [], batch, s, h, _, _, _ => ⟨s, rfl, by rwa [List.map_nil, List.append_nil]⟩
  | q :: l, batch, s, h, hpos, hnew, hdistinct => by
    rw [List.map_cons, List.nodup_cons] at hdistinct
    obtain ⟨s₁, hadd, hs₁⟩ := h.add hold q.1 q.2.1 0 (hpos q List.mem_cons_self) htokens (hnew q List.mem_cons_self)
    have hlater : ∀ r ∈ l, r.1 ∉ s₁.requests.keys := by
      intro r hr hmem
      rw [hs₁.keys_eq, List.map_append, ← List.append_assoc, ← h.keys_eq] at hmem
      rcases List.mem_append.1 hmem with hmem | hmem
      · exact hnew r (List.mem_cons_of_mem _ hr) hmem
      · exact hdistinct.1 (List.mem_map.2 ⟨r, hr, List.mem_singleton.1 hmem⟩)
    obtain ⟨s₂, hrest, hs₂⟩ := addRequests_batch hold htokens l hs₁
      (fun r hr => hpos r (List.mem_cons_of_mem _ hr)) hlater hdistinct.2
    refine ⟨s₂, ?_, by rwa [List.append_assoc] at hs₂⟩
    rw [List.map_cons, addRequests, Act.bind_of_ok hadd]
    exact hrest

theorem requests_eq (h : FreshBatch e s a) : a.requests =
    (a.requestIds.zip (a.prompts.zip a.promptLens)).map (fun q => ⟨q.1, q.2.1, tokensOfSample a, 0, q.2.2, true⟩) := by
  unfold SampleArgs.requests
  rw [h.eos, ← h.tokens_eq]

theorem addRequests_ok (h : FreshBatch e s a) (hs : e.BatchAt s.requests.items (tokensOfSample a) [] 0 s)
    (hold : ∀ q ∈ s.requests.items, q.2.finished = true ∧ q.2.freed = true) :
    ∃ s', addRequests e.driver a.requests s = (.ok (), s') ∧
      e.BatchAt s.requests.items (tokensOfSample a) (batchOf a) 0 s' := by
  have hzip : (a.prompts.zip a.promptLens).length = a.requestIds.length := by
    rw [List.length_zip, h.prompts, h.lens, Nat.min_self]
  have hbatch : (a.requestIds.zip (a.prompts.zip a.promptLens)).map (fun q => (q.1, q.2.2)) = batchOf a := by
    have hsnd : (a.prompts.zip a.promptLens).map Prod.snd = a.promptLens :=
      List.map_snd_zip (by rw [h.prompts, h.lens])
    unfold batchOf
    conv_rhs => rw [← hsnd, List.zip_map_right]
    rfl
  rw [h.requests_eq, ← hbatch]
  refine addRequests_batch hold h.tokens_pos _ hs (fun q hq => ?_) (fun q hq hmem => ?_) ?_
  · exact h.lensPos _ (List.of_mem_zip (List.of_mem_zip hq).2).2
  · have hno := h.fresh q.1 (List.of_mem_zip hq).1
    rw [OrdDict.mem_keys, ← OrdDict.contains_iff, hno] at hmem
    cases hmem
  · rw [List.map_fst_zip hzip.ge]
    exact h.distinct

end FreshBatch

/-! ## The window -/

/-- After `k` steps the window counts `min tokens k` tokens for every request. -/
def Counted (a : SampleArgs) (k : Nat) (w : Window) : Prop :=
  ∃ outs, Counts a outs w ∧ ∀ rid ∈ a.requestIds,
    tokensOf rid outs = (min (tokensOfSample a) k : Nat) ∧ finishedIn rid outs = decide (tokensOfSample a ≤ k)

namespace FreshBatch

variable {e} {s : FakeState} {a : SampleArgs} {k : Nat} {w : Window}

theorem counted_initial (h : FreshBatch e s a) : Counted a 0 (Window.initial a.requestIds) := by
  have htokens := h.tokens_pos
  refine ⟨[], counts_initial a, fun rid _ => ⟨?_, ?_⟩⟩
  · rw [Nat.min_zero]
    rfl
  · rw [decide_eq_false (by omega)]
    rfl

/-- A step answers each request once. -/
theorem answers (h : FreshBatch e s a) (last : Bool) {rid : Text} (hr : rid ∈ a.requestIds) :
    ((batchOf a).map (fun q => (⟨q.1, 1, last⟩ : StepOutput))).filter (fun o => decide (o.requestId = rid)) =
      [⟨rid, 1, last⟩] := by
  have hmem := hr
  rw [← h.batch_fst] at hmem
  obtain ⟨q, hq, rfl⟩ := List.mem_map.1 hmem
  have hone : (batchOf a).filter (fun r => decide (r.1 = q.1)) = [q] :=
    Stagger.filter_key (by rw [h.batch_fst]; exact h.distinct) hq
  rw [List.filter_map]
  exact congrArg (List.map (fun q => (⟨q.1, 1, last⟩ : StepOutput))) hone

theorem counted_step (h : FreshBatch e s a) (hk : k < tokensOfSample a) (hw : Counted a k w) :
    ∃ w', Window.absorbAll ((batchOf a).map (fun q => ⟨q.1, 1, decide (tokensOfSample a ≤ k + 1)⟩)) w = .ok w' ∧
      Counted a (k + 1) w' ∧ SameReadings w w' := by
  obtain ⟨outs, hc, hall⟩ := hw
  have hknown : ∀ o ∈ (batchOf a).map (fun q => (⟨q.1, 1, decide (tokensOfSample a ≤ k + 1)⟩ : StepOutput)),
      o.requestId ∈ a.requestIds ∧ 0 ≤ o.newTokens := by
    intro o ho
    obtain ⟨q, hq, rfl⟩ := List.mem_map.1 ho
    exact ⟨(List.of_mem_zip hq).1, Int.one_nonneg⟩
  obtain ⟨w', habs, hc', hsame⟩ := absorbAll_known _ hc hknown
  refine ⟨w', habs, ⟨_, hc', fun rid hr => ⟨?_, ?_⟩⟩, hsame⟩
  · rw [tokensOf_append, (hall rid hr).1, tokensOf, h.answers _ hr]
    simp only [List.map_cons, List.map_nil, List.sum_cons, List.sum_nil]
    omega
  · rw [finishedIn_append, (hall rid hr).2, finishedIn, ← List.any_filter, h.answers _ hr, List.any_cons, List.any_nil,
      Bool.or_false, ← Bool.decide_or, decide_eq_decide]
    omega

theorem anyFinished_eq (h : FreshBatch e s a) (hw : Counted a k w) :
    w.anyFinished = decide (tokensOfSample a ≤ k) := by
  obtain ⟨outs, hc, hall⟩ := hw
  obtain ⟨rid, hr⟩ := List.exists_mem_of_ne_nil _ h.nonempty
  by_cases hk : tokensOfSample a ≤ k
  · rw [decide_eq_true hk]
    by_contra hno
    have hfin := hc.anyFinished_false.1 (Bool.eq_false_iff.2 hno) rid hr
    rw [(hall rid hr).2, decide_eq_true hk] at hfin
    cases hfin
  · rw [decide_eq_false hk, hc.anyFinished_false]
    intro rid hr
    rw [(hall rid hr).2, decide_eq_false hk]

theorem allFinished_eq (h : FreshBatch e s a) (hw : Counted a k w) :
    w.allFinished = decide (tokensOfSample a ≤ k) := by
  obtain ⟨outs, hc, hall⟩ := hw
  obtain ⟨rid, hr⟩ := List.exists_mem_of_ne_nil _ h.nonempty
  rw [Bool.eq_iff_iff, hc.allFinished_iff]
  constructor
  · intro hfin
    rw [← (hall rid hr).2]
    exact hfin rid hr
  · intro hk rid hr
    rw [(hall rid hr).2, hk]

/-- While the batch decodes, every request has a token once the first step is done. -/
theorem scheduled_eq (h : FreshBatch e s a) (hw : Counted a k w) (hk : k < tokensOfSample a) :
    w.scheduled a = decide (0 < k) := by
  have hno := h.anyFinished_eq hw
  rw [decide_eq_false (by omega)] at hno
  obtain ⟨outs, hc, hall⟩ := hw
  obtain ⟨rid, hr⟩ := List.exists_mem_of_ne_nil _ h.nonempty
  rw [Bool.eq_iff_iff, hc.scheduled_iff hno, decide_eq_true_eq]
  constructor
  · intro halive
    have hone := (halive rid hr).1
    rw [(hall rid hr).1] at hone
    omega
  · intro hpos rid hr
    rw [(hall rid hr).1, (hall rid hr).2, decide_eq_false (by omega)]
    exact ⟨by omega, rfl⟩

theorem liveTokens_eq (h : FreshBatch e s a) (hw : Counted a k w) (hk : k < tokensOfSample a) :
    w.liveTokens a = tokensAfter a.promptLens k := by
  have hno := h.anyFinished_eq hw
  rw [decide_eq_false (by omega)] at hno
  obtain ⟨outs, hc, hall⟩ := hw
  have hmin : min (tokensOfSample a) k = k := Nat.min_eq_right hk.le
  have hmap : (batchOf a).map (fun q => q.2 + tokensOf q.1 outs) =
      ((batchOf a).map Prod.snd).map (fun p => p + (k : Int)) := by
    rw [List.map_map]
    refine List.map_congr_left (fun q hq => ?_)
    rw [(hall q.1 (List.of_mem_zip hq).1).1, hmin]
    rfl
  rw [hc.liveTokens_eq hno, tokensAfter, ← h.batch_snd, ← hmap]
  rfl

/-- **The block gate lets the batch pass** while it decodes: it asks nothing of the blocks before the first step, and
after it the blocks hold the tokens. -/
theorem gate_ok (h : FreshBatch e s a) (hw : Counted a k w) (hk : k < tokensOfSample a) (gate : Gate) :
    checkBlockConsistency (e.heldAfter a.promptLens (tokensOfSample a) k) (w.liveTokens a) a.batch a.blockSize
      (w.scheduled a) gate = .ok () := by
  have hlive := tokensAfter_nonneg h.lensPos (Int.natCast_nonneg k)
  have hbatch : 0 ≤ a.batch * e.blockSize := mul_nonneg (Int.natCast_nonneg _) e.blockSizePos.le
  unfold checkBlockConsistency
  rw [h.liveTokens_eq hw hk, h.scheduled_eq hw hk, h.blocks]
  simp only
  by_cases hpos : 0 < k
  · have hle := e.tokensAfter_le a.promptLens k
    have hge := e.blocksAfter_le a.promptLens k
    have hnonneg := e.blocksAfter_nonneg h.lensPos (Int.natCast_nonneg k)
    have hbatch' : a.batch = (a.promptLens.length : Int) := by rw [SampleArgs.batch, h.lens]
    have hheld : e.heldAfter a.promptLens (tokensOfSample a) k = e.blocksAfter a.promptLens k := if_pos ⟨hpos, hk⟩
    rw [hheld, hbatch', if_neg (by omega), if_neg (by omega)]
    rw [if_neg (by simpa using fun _ => hle)]
  · obtain rfl : k = 0 := by omega
    rw [e.heldAfter_zero, Int.zero_mul, if_neg (by omega), if_neg (by omega)]
    rw [if_neg (by simp)]

end FreshBatch

/-! ## The loop -/

/-- The readings after `k` steps of a batch that still decodes. -/
structure ReadAt (e : FakeEngine) (a : SampleArgs) (k : Nat) (w : Window) : Prop where
  before : k = 0 → w.prefillUsed = none
  after  : 0 < k → w.prefillUsed = some (e.blocksAfter a.promptLens 1) ∧ w.prefillLive = tokensAfter a.promptLens 1 ∧
    w.decodeUsed = some (e.blocksAfter a.promptLens k) ∧ w.decodeLive = tokensAfter a.promptLens k

theorem ReadAt.congr {e : FakeEngine} {a : SampleArgs} {k : Nat} {w w' : Window} (hs : SameReadings w w')
    (h : ReadAt e a k w) : ReadAt e a k w' := by
  obtain ⟨hpu, hpl, hdu, hdl⟩ := hs
  refine ⟨fun hk => ?_, fun hk => ?_⟩
  · rw [hpu]
    exact h.before hk
  · rw [hpu, hpl, hdu, hdl]
    exact h.after hk

/-- What a pass starts from. -/
structure Sampling (e : FakeEngine) (a : SampleArgs) (old : List (Text × FakeRequest)) (k : Nat) (w : Window)
    (s : FakeState) : Prop where
  batch   : e.BatchAt old (tokensOfSample a) (batchOf a) k s
  counted : Counted a k w
  read    : ReadAt e a k w

namespace FreshBatch

variable {e} {s : FakeState} {a : SampleArgs} {k : Nat} {w : Window}

/-- The first step freezes both readings, and each later one moves the decode reading. -/
theorem read_freeze (h : FreshBatch e s a) (hk : k + 1 < tokensOfSample a) (hw : Counted a (k + 1) w)
    (hread : ReadAt e a k w) : ReadAt e a (k + 1) (w.freeze a (e.heldAfter a.promptLens (tokensOfSample a) (k + 1))) := by
  have hsched := h.scheduled_eq hw hk
  have hlive := h.liveTokens_eq hw hk
  have hany := h.anyFinished_eq hw
  have hheld : e.heldAfter a.promptLens (tokensOfSample a) (k + 1) = e.blocksAfter a.promptLens (k + 1 : Nat) :=
    if_pos ⟨Nat.succ_pos k, hk⟩
  rw [decide_eq_true (by omega)] at hsched
  rw [decide_eq_false (by omega)] at hany
  rw [hheld]
  refine ⟨fun hzero => by omega, fun _ => ?_⟩
  by_cases hzero : k = 0
  · subst hzero
    rw [Nat.zero_add, Nat.cast_one] at hlive ⊢
    have hany' : ({ w with prefillUsed := some (e.blocksAfter a.promptLens 1),
                           prefillLive := tokensAfter a.promptLens 1 } : Window).anyFinished = false := hany
    simp [Window.freeze, hread.before rfl, hsched, hlive, hany']
  · obtain ⟨hpu, hpl, hdu, hdl⟩ := hread.after (by omega)
    simp [Window.freeze, hpu, hpl, hany, hlive]

variable {old : List (Text × FakeRequest)} {t : FakeState}

theorem numFreeBlocks_eq (h : FreshBatch e s a) (ht : e.BatchAt old (tokensOfSample a) (batchOf a) k t) :
    e.driver.numFreeBlocks t = (.ok (e.totalBlocks - e.heldAfter a.promptLens (tokensOfSample a) k), t) := by
  rw [← h.batch_snd, ← ht.used]
  rfl

/-- **One pass**: it is a step of the batch, and ends the loop when the step was the last. -/
theorem sampleStep_ok (h : FreshBatch e s a) (hold : ∀ q ∈ old, q.2.finished = true ∧ q.2.freed = true) (idx : Nat)
    (hk : k < tokensOfSample a) (ht : Sampling e a old k w t) :
    ∃ w' t', sampleStep e.driver a e.totalBlocks idx w t = (.ok (w', decide (tokensOfSample a ≤ k + 1)), t') ∧
      (tokensOfSample a ≤ k + 1 → ReadAt e a k w') ∧ (k + 1 < tokensOfSample a → Sampling e a old (k + 1) w' t') := by
  obtain ⟨t', hstep, ht'⟩ := ht.batch.step hold h.batch_pos h.room hk
  obtain ⟨w₁, habs, hw₁, hsame⟩ := h.counted_step hk ht.counted
  have hread := ht.read.congr hsame
  unfold sampleStep
  rw [Act.bind_of_ok (h.numFreeBlocks_eq ht.batch), sub_sub_cancel, h.gate_ok ht.counted hk, Act.lift_ok_bind,
    Act.bind_of_ok hstep, habs, Act.lift_ok_bind, h.allFinished_eq hw₁]
  by_cases hlast : tokensOfSample a ≤ k + 1
  · rw [decide_eq_true hlast, if_pos rfl]
    refine ⟨w₁, t', ?_, fun _ => hread, fun hlt => by omega⟩
    split
    · exact Act.bind_of_ok rfl
    · rfl
  · rw [decide_eq_false hlast, if_neg Bool.false_ne_true, Act.bind_of_ok (h.numFreeBlocks_eq ht'), sub_sub_cancel,
      h.gate_ok hw₁ (by omega), Act.lift_ok_bind, h.anyFinished_eq hw₁, decide_eq_false hlast, Bool.and_false]
    refine ⟨w₁.freeze a (e.heldAfter a.promptLens (tokensOfSample a) (k + 1)), t', rfl, fun hle => absurd hle hlast, ?_⟩
    intro hlt
    obtain ⟨outs, hc, hall⟩ := hw₁
    exact ⟨ht', ⟨outs, counts_freeze hc _, hall⟩, h.read_freeze hlt ⟨outs, hc, hall⟩ hread⟩

/-- **The loop** ends with the readings after the last step but one: it has a pass for each step. -/
theorem sampleLoop_returns (h : FreshBatch e s a) (hold : ∀ q ∈ old, q.2.finished = true ∧ q.2.freed = true) :
    ∀ (fuel k idx : Nat) {w : Window} {t : FakeState}, k < tokensOfSample a → tokensOfSample a ≤ k + fuel →
    Sampling e a old k w t →
    ∃ w' t', sampleLoop e.driver a e.totalBlocks fuel idx w t = (.ok w', t') ∧ ReadAt e a (tokensOfSample a - 1) w'
  | 0, k, idx, w, t, hk, hfuel, _ => by omega
  | fuel + 1, k, idx, w, t, hk, hfuel, ht => by
    obtain ⟨w₁, t₁, hstep, hlast, hgoes⟩ := h.sampleStep_ok hold idx hk ht
    unfold sampleLoop
    rw [Act.bind_of_ok hstep]
    by_cases hdone : tokensOfSample a ≤ k + 1
    · have hend : tokensOfSample a - 1 = k := by omega
      rw [decide_eq_true hdone, if_pos rfl, hend]
      exact ⟨w₁, t₁, rfl, hlast hdone⟩
    · rw [decide_eq_false hdone, if_neg Bool.false_ne_true]
      exact sampleLoop_returns h hold fuel (k + 1) (idx + 1) (by omega) (by omega) (hgoes (by omega))

/-- **The sample up to its end**: what it makes of the readings after the last step but one, and a free pool. -/
theorem sample_returns (h : FreshBatch e s a) (hs : e.BatchAt s.requests.items (tokensOfSample a) [] 0 s)
    (hold : ∀ q ∈ s.requests.items, q.2.finished = true ∧ q.2.freed = true) :
    ∃ w s', ReadAt e a (tokensOfSample a - 1) w ∧ sampleDecodeWindow e.driver a s = (finish a w, s') ∧
      s'.usedBlocks = 0 := by
  have htotal : checkTotal (some e.totalBlocks) = .ok e.totalBlocks := if_neg (by have := e.totalPos; omega)
  have hnum : e.driver.numGpuBlocks s = (.ok (some e.totalBlocks), s) := rfl
  have htokens := h.tokens_pos
  have hsteps : tokensOfSample a ≤ 0 + (maxSteps a).toNat := by
    have := h.chunks
    have := h.tokens_eq
    unfold maxSteps
    omega
  obtain ⟨s₁, hadd, hs₁⟩ := h.addRequests_ok hs hold
  have hstart : Sampling e a s.requests.items 0 (Window.initial a.requestIds) s₁ :=
    ⟨hs₁, h.counted_initial, fun _ => rfl, fun hlt => by omega⟩
  obtain ⟨w, t, hloop, hread⟩ := h.sampleLoop_returns hold (maxSteps a).toNat 0 0 htokens hsteps hstart
  refine ⟨w, ⟨0, freed t.requests⟩, hread, ?_, rfl⟩
  unfold sampleDecodeWindow
  rw [h.checkArgs_ok, Act.lift_ok_bind, Act.bind_of_ok hnum, htotal, Act.lift_ok_bind, Act.bind_of_ok hadd]
  rw [ensuring_endSample_eq, Act.bind_of_ok hloop]
  rfl

end FreshBatch

/-! ## The closed form -/

/-- The readings of a batch: its blocks and tokens after the first token, and after the last but one. -/
def closedForm (a : SampleArgs) : SampleReadings where
  kvBytesPrefill := e.blocksAfter a.promptLens 1 * a.blockSize * a.theoryBpt
  kvBytesDecode := e.blocksAfter a.promptLens (a.decodeTokens - 1) * a.blockSize * a.theoryBpt
  liveTokensPrefill := tokensAfter a.promptLens 1
  liveTokensDecode := tokensAfter a.promptLens (a.decodeTokens - 1)
  usedBlocksPrefill := e.blocksAfter a.promptLens 1
  usedBlocksDecode := e.blocksAfter a.promptLens (a.decodeTokens - 1)

theorem finish_closedForm {e : FakeEngine} {s : FakeState} {a : SampleArgs} {w : Window} (h : FreshBatch e s a)
    (hread : ReadAt e a (tokensOfSample a - 1) w) (hd : 2 ≤ a.decodeTokens) : finish a w = .ok (e.closedForm a) := by
  have htokens := h.tokens_eq
  have hlast : ((tokensOfSample a - 1 : Nat) : Int) = a.decodeTokens - 1 := by omega
  obtain ⟨hpu, hpl, hdu, hdl⟩ := hread.after (by omega)
  have hmono : e.blocksAfter a.promptLens 1 ≤ e.blocksAfter a.promptLens (a.decodeTokens - 1) :=
    e.blocksAfter_mono (by omega)
  unfold finish
  rw [hpu, hdu, hpl, hdl, hlast]
  exact if_neg (not_lt.2 hmono)

/-- **A sample of the fake engine has a closed form**, whatever ran before it as long as nothing is unfinished: of a new
batch that fits the pool it reads the blocks and tokens after the first token and after the last but one; of a batch with
one token each it reads nothing and raises.  Either way the pool is free afterwards. -/
theorem sampleDecodeWindow_closedForm (ops : List Op) (a : SampleArgs) :
    let s := Runs.run e.apply .fresh ops
    (getNumUnfinishedRequests s).1 = .ok 0 → FreshBatch e s a →
      ∃ s', (e.driver.numFreeBlocks s').1 = .ok e.totalBlocks ∧
        (2 ≤ a.decodeTokens → sampleDecodeWindow e.driver a s = (.ok (e.closedForm a), s')) ∧
        (a.decodeTokens = 1 → sampleDecodeWindow e.driver a s = (.error .prefillNeverCompleted, s')) := by
  intro s hnone hbatch
  have htidy := e.tidy_run ops
  have hfinished : ∀ q ∈ s.requests.items, q.2.finished = true := by
    intro q hq
    have hcount : s.requests.values.countP (fun r => !r.finished) = 0 := by
      exact_mod_cast Except.ok.inj hnone
    have := List.countP_eq_zero.1 hcount q.2 (List.mem_map.2 ⟨q, hq, rfl⟩)
    simpa using this
  have hold : ∀ q ∈ s.requests.items, q.2.finished = true ∧ q.2.freed = true := fun q hq =>
    ⟨hfinished q hq, htidy.freed q hq (hfinished q hq)⟩
  have hstart : e.BatchAt s.requests.items (tokensOfSample a) [] 0 s := by
    refine ⟨?_, (List.append_nil _).symm⟩
    rw [heldAfter_zero]
    exact htidy.free (fun q hq => (hold q hq).2)
  obtain ⟨w, s', hread, hsample, hfree⟩ := hbatch.sample_returns hstart hold
  refine ⟨s', ?_, fun hd => ?_, fun hd => ?_⟩
  · simp only [driver, hfree, sub_zero]
  · rw [hsample, finish_closedForm hbatch hread hd]
  · have hzero : tokensOfSample a - 1 = 0 := by
      have := hbatch.tokens_eq
      omega
    rw [hzero] at hread
    rw [hsample, finish, hread.before rfl]

/-- Two prompts of different lengths, decoded for four tokens after another request has finished. -/
def mixedLengths : SampleArgs where
  requestIds := ["b".toList, "c".toList]
  prompts := ["x".toList, "y".toList]
  promptLens := [16, 30]
  decodeTokens := 4
  ignoreEos := true
  prefillChunks := 0
  theoryBpt := 2
  blockSize := 16

def oneFinished : List Op := [.addRequest ⟨"a".toList, [], 1, 0, 16, true⟩, .step]

theorem mixedLengths_closedForm :
    tenBlocks.closedForm mixedLengths = ⟨128, 160, 48, 52, 4, 5⟩ ∧
      ∃ s', (tenBlocks.driver.numFreeBlocks s').1 = .ok tenBlocks.totalBlocks ∧
        (2 ≤ mixedLengths.decodeTokens →
          sampleDecodeWindow tenBlocks.driver mixedLengths (Runs.run tenBlocks.apply .fresh oneFinished) =
            (.ok (tenBlocks.closedForm mixedLengths), s')) ∧
        (mixedLengths.decodeTokens = 1 →
          sampleDecodeWindow tenBlocks.driver mixedLengths (Runs.run tenBlocks.apply .fresh oneFinished) =
            (.error .prefillNeverCompleted, s')) := by
  refine ⟨by decide +kernel, sampleDecodeWindow_closedForm tenBlocks oneFinished mixedLengths (by decide +kernel) ?_⟩
  exact {
    nonempty := by decide
    distinct := by decide
    fresh := by decide +kernel
    prompts := rfl
    lens := rfl
    lensPos := by decide
    decode := by decide
    eos := rfl
    chunks := by decide
    theoryPos := by decide
    blocks := rfl
    roomy := by decide +kernel }

end FakeEngine
end GoodputLab
