import GoodputLab.KvLockstep
/-!
# KvEndSample — which samples are closed

A sample ends itself in a `finally`, but its requests are added before the `try`.  `recorded` is an engine that writes
down the requests it took and the calls of `end_sample`.  After a sample that added a request `end_sample` was called once,
last, unless an `add_request` raised after another had succeeded, and then it was not (`closed_iff`).
-/
namespace GoodputLab

variable {σ : Type}

inductive Call
  | added (requestId : Text)
  | endSample
deriving DecidableEq

/-- An operation that is not written down. -/
def unrecorded {L α : Type} (x : Act SampleError σ α) : Act SampleError (σ × L) α :=
  fun s => ((x s.1).1, (x s.1).2, s.2)

/-- The engine with its log: the requests it took, and the calls of `end_sample`, which count even when they raise. -/
def recorded (d : EngineDriver σ) : EngineDriver (σ × List Call) where
  numGpuBlocks := unrecorded d.numGpuBlocks
  numFreeBlocks := unrecorded d.numFreeBlocks
  addRequest := fun r s =>
    match d.addRequest r s.1 with
    | (.ok u, s')    => (.ok u, s', s.2 ++ [.added r.requestId])
    | (.error e, s') => (.error e, s', s.2)
  step := unrecorded d.step
  getNumUnfinishedRequests := unrecorded d.getNumUnfinishedRequests
  endSample := fun s => ((d.endSample s.1).1, (d.endSample s.1).2, s.2 ++ [.endSample])

theorem unrecorded_inStep {L α : Type} (x : Act SampleError σ α) :
    Act.InStep (fun s (t : σ × L) => t.1 = s) x (unrecorded x) := by
  rintro s t rfl
  exact ⟨rfl, rfl⟩

/-- **Recording changes nothing else.** -/
theorem recorded_inStep (d : EngineDriver σ) :
    EnginesInStep (fun s (t : σ × List Call) => t.1 = s) (fun _ => True) d (recorded d) where
  numGpuBlocks  := unrecorded_inStep _
  numFreeBlocks := unrecorded_inStep _
  addRequest    := by
    rintro r - s t rfl
    unfold recorded
    simp only
    cases h : d.addRequest r t.1 with
    | mk q s' =>
      cases q <;> exact ⟨rfl, rfl⟩
  step          := unrecorded_inStep _
  unfinished    := unrecorded_inStep _
  endSample     := by
    rintro s t rfl
    exact ⟨rfl, rfl⟩

theorem recorded_outcome (d : EngineDriver σ) (a : SampleArgs) (s : σ) (l : List Call) :
    (sampleDecodeWindow (recorded d) a (s, l)).1 = (sampleDecodeWindow d a s).1 :=
  (sampleDecodeWindow_inStep (recorded_inStep d) a (fun _ _ => trivial) s (s, l) rfl).1.symm

theorem keeps_unrecorded {L α : Type} (x : Act SampleError σ α) : Act.Keeps (Prod.snd : σ × L → L) (unrecorded x) :=
  fun _ => rfl

/-- Neither looking at the cache nor stepping touches `f`. -/
structure LoopKeeps {τ : Type} (f : σ → τ) (d : EngineDriver σ) : Prop where
  numFreeBlocks : Act.Keeps f d.numFreeBlocks
  step          : Act.Keeps f d.step
  unfinished    : Act.Keeps f d.getNumUnfinishedRequests

section Loop
variable {τ : Type} {f : σ → τ} {d : EngineDriver σ}

theorem sampleStep_keeps (h : LoopKeeps f d) (a : SampleArgs) (totalBlocks : Int) (stepIdx : Nat) (w : Window) :
    Act.Keeps f (sampleStep d a totalBlocks stepIdx w) := by
  unfold sampleStep
  refine Act.keeps_bind h.numFreeBlocks (fun _ => Act.keeps_bind (Act.keeps_lift _) (fun _ =>
    Act.keeps_bind h.step (fun outs => Act.keeps_bind (Act.keeps_lift _) (fun w' => ?_))))
  split
  · split
    · exact Act.keeps_bind h.unfinished (fun _ => Act.keeps_pure _)
    · exact Act.keeps_pure _
  · exact Act.keeps_bind h.numFreeBlocks (fun _ => Act.keeps_bind (Act.keeps_lift _) (fun _ =>
      Act.keeps_bind (Act.keeps_guard _ _) (fun _ => Act.keeps_pure _)))

/-- The loop neither adds a request nor ends the sample. -/
theorem sampleLoop_keeps (h : LoopKeeps f d) (a : SampleArgs) (totalBlocks : Int) :
    ∀ (fuel stepIdx : Nat) (w : Window), Act.Keeps f (sampleLoop d a totalBlocks fuel stepIdx w)
  | 0, _, _ => Act.keeps_lift _
  | fuel + 1, stepIdx, w => by
    refine Act.keeps_bind (sampleStep_keeps h a totalBlocks stepIdx w) (fun r => ?_)
    split
    · exact Act.keeps_pure _
    · exact sampleLoop_keeps h a totalBlocks fuel (stepIdx + 1) r.1

end Loop

theorem recorded_loopKeeps (d : EngineDriver σ) : LoopKeeps Prod.snd (recorded d) where
  numFreeBlocks := keeps_unrecorded _
  step          := keeps_unrecorded _
  unfinished    := keeps_unrecorded _

/-! ## Adding the requests -/

/-- The first request of `rs` that raises is `r`, after `done` were added. -/
def FailsAt (d : EngineDriver σ) (rs : List AddRequest) (s : σ) (done : List AddRequest) (r : AddRequest)
    (e : SampleError) (s' : σ) : Prop :=
  ∃ rest s₁, rs = done ++ r :: rest ∧ addRequests d done s = (.ok (), s₁) ∧ d.addRequest r s₁ = (.error e, s')

def addedCalls (rs : List AddRequest) : List Call := rs.map (fun r => .added r.requestId)

theorem addRequests_recorded (d : EngineDriver σ) : ∀ (rs : List AddRequest) (s : σ) (l : List Call),
    (∃ s', addRequests d rs s = (.ok (), s') ∧
      addRequests (recorded d) rs (s, l) = (.ok (), s', l ++ addedCalls rs)) ∨
    ∃ done r e s', FailsAt d rs s done r e s' ∧
      addRequests (recorded d) rs (s, l) = (.error e, s', l ++ addedCalls done)
  | [], s, l => Or.inl ⟨s, rfl, by rw [addedCalls, List.map_nil, List.append_nil]; rfl⟩
  | r :: rs, s, l => by
    cases h : d.addRequest r s with
    | mk q s₁ =>
      cases q with
      | error e =>
        have hr : (recorded d).addRequest r (s, l) = (.error e, s₁, l) := by
          simp only [recorded, h]
        refine Or.inr ⟨[], r, e, s₁, ⟨rs, s, rfl, rfl, h⟩, ?_⟩
        rw [addRequests, Act.bind_of_error hr, addedCalls, List.map_nil, List.append_nil]
      | ok u =>
        have hr : (recorded d).addRequest r (s, l) = (.ok u, s₁, l ++ [.added r.requestId]) := by
          simp only [recorded, h]
        have hl : ∀ done, l ++ [Call.added r.requestId] ++ addedCalls done = l ++ addedCalls (r :: done) := fun done =>
          by rw [addedCalls, addedCalls, List.map_cons, List.append_assoc, List.singleton_append]
        rcases addRequests_recorded d rs s₁ (l ++ [.added r.requestId]) with
          ⟨s', hd, hrec⟩ | ⟨done, r', e, s', ⟨rest, s₂, hrs, hdone, hfail⟩, hrec⟩
        · refine Or.inl ⟨s', ?_, ?_⟩
          · rw [addRequests, Act.bind_of_ok h, hd]
          · rw [addRequests, Act.bind_of_ok hr, hrec, hl]
        · refine Or.inr ⟨r :: done, r', e, s', ⟨rest, s₂, by rw [hrs]; rfl, ?_, hfail⟩, ?_⟩
          · rw [addRequests, Act.bind_of_ok h, hdone]
          · rw [addRequests, Act.bind_of_ok hr, hrec, hl]

theorem addRequests_of_failsAt {d : EngineDriver σ} : ∀ {done : List AddRequest} {rs : List AddRequest} {s : σ}
    {r : AddRequest} {e : SampleError} {s' : σ}, FailsAt d rs s done r e s' → addRequests d rs s = (.error e, s')
  | [], rs, s, r, e, s', ⟨rest, s₁, hrs, hdone, hfail⟩ => by
    obtain ⟨-, rfl⟩ := Act.pure_ok hdone
    rw [hrs, List.nil_append, addRequests, Act.bind_of_error hfail]
  | q :: done, rs, s, r, e, s', ⟨rest, s₁, hrs, hdone, hfail⟩ => by
    rw [addRequests] at hdone
    obtain ⟨u, s₂, hq, hdone⟩ := Act.bind_ok hdone
    rw [hrs, List.cons_append, addRequests, Act.bind_of_ok hq]
    exact addRequests_of_failsAt ⟨rest, s₁, rfl, hdone, hfail⟩

/-- Only one request fails: when the first one does, none was added before. -/
theorem failsAt_first {d : EngineDriver σ} {rs : List AddRequest} {s s' s'' : σ} {r r' : AddRequest}
    {e e' : SampleError} {done : List AddRequest} (h : FailsAt d rs s [] r e s') (h' : FailsAt d rs s done r' e' s'') :
    done = [] := by
  obtain ⟨rest, s₁, hrs, hnil, hfail⟩ := h
  obtain ⟨-, rfl⟩ := Act.pure_ok hnil
  obtain ⟨rest', s₂, hrs', hdone, -⟩ := h'
  cases done with
  | nil => rfl
  | cons q done =>
    rw [hrs] at hrs'
    obtain ⟨rfl, -⟩ := List.cons.inj hrs'
    rw [addRequests, Act.bind_of_error hfail] at hdone
    cases hdone

/-! ## The sample -/

/-- The calls a sample made. -/
def callsOf (d : EngineDriver σ) (a : SampleArgs) (s : σ) : List Call := (sampleDecodeWindow (recorded d) a (s, [])).2.2

/-- If the sample added a request, it ended itself once, after everything else. -/
def Closed (d : EngineDriver σ) (a : SampleArgs) (s : σ) : Prop :=
  (∃ rid, Call.added rid ∈ callsOf d a s) →
    (callsOf d a s).count .endSample = 1 ∧ (callsOf d a s).getLast? = some .endSample

/-- The arguments and the block total are in order, and a request after the first raises as it is added. -/
def AddFailsLate (d : EngineDriver σ) (a : SampleArgs) (s : σ) : Prop :=
  checkArgs a = .ok () ∧ ∃ total n s₀ done r e s₁, d.numGpuBlocks s = (.ok total, s₀) ∧ checkTotal total = .ok n ∧
    done ≠ [] ∧ FailsAt d a.requests s₀ done r e s₁

theorem count_addedCalls (rs : List AddRequest) : (addedCalls rs).count .endSample = 0 := by
  refine List.count_eq_zero.2 (fun h => ?_)
  obtain ⟨r, -, hr⟩ := List.mem_map.1 h
  cases hr

/-- The clean-up logs the end of the sample, whatever the loop did and however it ends itself. -/
theorem ensuring_recorded {α : Type} (d : EngineDriver σ) (x : Act SampleError (σ × List Call) α)
    (hx : Act.Keeps Prod.snd x) (s : σ × List Call) :
    (Act.ensuring x (recorded d).endSample s).2.2 = s.2 ++ [.endSample] := by
  have hlog : ((recorded d).endSample (x s).2).2.2 = s.2 ++ [.endSample] := by
    show (x s).2.2 ++ [.endSample] = _
    rw [hx s]
  unfold Act.ensuring
  cases h : (recorded d).endSample (x s).2 with
  | mk q s' =>
    rw [h] at hlog
    cases q <;> exact hlog

/-- With everything before the requests in order, only a request can fail. -/
theorem addFailsLate_iff {d : EngineDriver σ} {a : SampleArgs} {s s₀ : σ} {total : Option Int} {n : Int}
    (hargs : checkArgs a = .ok ()) (htotal : d.numGpuBlocks s = (.ok total, s₀)) (hn : checkTotal total = .ok n) :
    AddFailsLate d a s ↔ ∃ done r e s₁, done ≠ [] ∧ FailsAt d a.requests s₀ done r e s₁ := by
  constructor
  · rintro ⟨-, total', n', s₀', done, r, e, s₁, htotal', -, hne, hfail⟩
    rw [htotal] at htotal'
    cases htotal'
    exact ⟨done, r, e, s₁, hne, hfail⟩
  · rintro ⟨done, r, e, s₁, hne, hfail⟩
    exact ⟨hargs, total, n, s₀, done, r, e, s₁, htotal, hn, hne, hfail⟩

/-- **The calls of a sample**: none; the requests and the end; or, when adding one raises, those added before it. -/
theorem callsOf_cases (d : EngineDriver σ) (a : SampleArgs) (s : σ) :
    (callsOf d a s = [] ∧ ¬ AddFailsLate d a s) ∨
    (callsOf d a s = addedCalls a.requests ++ [.endSample] ∧ ¬ AddFailsLate d a s) ∨
    ∃ done, callsOf d a s = addedCalls done ∧ (AddFailsLate d a s ↔ done ≠ []) := by
  unfold callsOf sampleDecodeWindow
  cases hargs : checkArgs a with
  | error e =>
    refine Or.inl ⟨rfl, ?_⟩
    rintro ⟨hok, -⟩
    rw [hargs] at hok
    cases hok
  | ok u =>
    rw [Act.lift_ok_bind]
    cases htotal : d.numGpuBlocks s with
    | mk q s₀ =>
      have hrec : (recorded d).numGpuBlocks (s, []) = (q, s₀, []) := by
        simp only [recorded, unrecorded, htotal]
      cases q with
      | error e =>
        refine Or.inl ⟨by rw [Act.bind_of_error hrec], ?_⟩
        rintro ⟨-, total, n, t, done, r, e', s₁, ht, -⟩
        rw [htotal] at ht
        cases ht
      | ok total =>
        rw [Act.bind_of_ok hrec]
        cases hn : checkTotal total with
        | error e =>
          refine Or.inl ⟨rfl, ?_⟩
          rintro ⟨-, total', n, t, done, r, e', s₁, ht, hn', -⟩
          rw [htotal] at ht
          cases ht
          rw [hn] at hn'
          cases hn'
        | ok n =>
          rw [Act.lift_ok_bind]
          rcases addRequests_recorded d a.requests s₀ [] with
            ⟨s₁, hd, hadd⟩ | ⟨done, r, e, s₁, hfail, hadd⟩
          · right
            left
            rw [Act.bind_of_ok hadd, List.nil_append, addFailsLate_iff hargs htotal hn]
            refine ⟨?_, ?_⟩
            · rw [ensuring_recorded]
              exact Act.keeps_bind (sampleLoop_keeps (recorded_loopKeeps d) a n _ 0 _) (fun _ => Act.keeps_lift _)
            · rintro ⟨done, r, e, s₂, -, hfail⟩
              rw [addRequests_of_failsAt hfail] at hd
              cases hd
          · right
            right
            rw [Act.bind_of_error hadd, List.nil_append, addFailsLate_iff hargs htotal hn]
            refine ⟨done, rfl, ?_⟩
            constructor
            · rintro ⟨done', r', e', s₂, hne, hfail'⟩ rfl
              exact hne (failsAt_first hfail hfail')
            · intro hne
              exact ⟨done, r, e, s₁, hne, hfail⟩

/-- **A sample is closed exactly when no request after the first raises as it is added.** -/
theorem closed_iff (d : EngineDriver σ) (a : SampleArgs) (s : σ) : Closed d a s ↔ ¬ AddFailsLate d a s := by
  unfold Closed
  rcases callsOf_cases d a s with ⟨hcalls, hok⟩ | ⟨hcalls, hok⟩ | ⟨done, hcalls, hlate⟩
  · rw [hcalls]
    refine iff_of_true (fun h => ?_) hok
    obtain ⟨rid, hrid⟩ := h
    cases hrid
  · rw [hcalls]
    refine iff_of_true (fun _ => ⟨?_, by simp⟩) hok
    rw [List.count_append, count_addedCalls]
    rfl
  · rw [hcalls, hlate, not_not, count_addedCalls]
    constructor
    · intro hclosed
      by_contra hne
      obtain ⟨r, hr⟩ := List.exists_mem_of_ne_nil done hne
      exact absurd (hclosed ⟨r.requestId, List.mem_map.2 ⟨r, hr, rfl⟩⟩).1 Nat.zero_ne_one
    · rintro rfl ⟨rid, hrid⟩
      cases hrid

/-- An engine that takes one request and refuses the next. -/
def oneSlot : EngineDriver Nat where
  numGpuBlocks := fun s => (.ok (some 10), s)
  numFreeBlocks := fun s => (.ok 10, s)
  addRequest := fun _ s => if s = 0 then (.ok (), 1) else (.error (.driver "engine full"), s)
  step := fun s => (.ok [], s)
  getNumUnfinishedRequests := fun s => (.ok (s : Int), s)
  endSample := fun _ => (.ok (), 0)

def twoForOneSlot : SampleArgs where
  requestIds := ["a".toList, "b".toList]
  prompts := ["x".toList, "y".toList]
  promptLens := [1, 1]
  decodeTokens := 1
  ignoreEos := true
  prefillChunks := 1
  theoryBpt := 1
  blockSize := 1

theorem second_add_leaves_sample_open :
    callsOf oneSlot twoForOneSlot 0 = [.added "a".toList] ∧
    sampleDecodeWindow oneSlot twoForOneSlot 0 = (.error (.driver "engine full"), 1) ∧
    ¬ Closed oneSlot twoForOneSlot 0 := by
  have hcalls : callsOf oneSlot twoForOneSlot 0 = [.added "a".toList] := by decide +kernel
  refine ⟨hcalls, rfl, fun hclosed => ?_⟩
  have hone := (hclosed ⟨"a".toList, by rw [hcalls]; exact List.mem_cons_self⟩).1
  rw [hcalls] at hone
  revert hone
  decide

end GoodputLab
