import GoodputLab.KvMeasure
/-!
# KvLockstep — two engines a sample cannot tell apart

Two engines whose operations give the same answers over related states give `sampleDecodeWindow` the same readings or the
same error, and end in related states (`sampleDecodeWindow_inStep`).
-/
namespace GoodputLab

variable {σ τ : Type}

/-- The operations of `d` and `e` answer alike over states related by `R`; adding a request needs `P` of it. -/
structure EnginesInStep (R : σ → τ → Prop) (P : AddRequest → Prop) (d : EngineDriver σ) (e : EngineDriver τ) :
    Prop where
  numGpuBlocks  : Act.InStep R d.numGpuBlocks e.numGpuBlocks
  numFreeBlocks : Act.InStep R d.numFreeBlocks e.numFreeBlocks
  addRequest    : ∀ r, P r → Act.InStep R (d.addRequest r) (e.addRequest r)
  step          : Act.InStep R d.step e.step
  unfinished    : Act.InStep R d.getNumUnfinishedRequests e.getNumUnfinishedRequests
  endSample     : Act.InStep R d.endSample e.endSample

variable {R : σ → τ → Prop} {P : AddRequest → Prop} {d : EngineDriver σ} {e : EngineDriver τ}

theorem sampleStep_inStep (h : EnginesInStep R P d e) (a : SampleArgs) (totalBlocks : Int) (stepIdx : Nat)
    (w : Window) : Act.InStep R (sampleStep d a totalBlocks stepIdx w) (sampleStep e a totalBlocks stepIdx w) := by
  unfold sampleStep
  refine Act.inStep_bind h.numFreeBlocks (fun _ => Act.inStep_bind (Act.inStep_lift _) (fun _ =>
    Act.inStep_bind h.step (fun outs => Act.inStep_bind (Act.inStep_lift _) (fun w' => ?_))))
  split
  · split
    · exact Act.inStep_bind h.unfinished (fun _ => Act.inStep_pure _)
    · exact Act.inStep_pure _
  · exact Act.inStep_bind h.numFreeBlocks (fun _ => Act.inStep_bind (Act.inStep_lift _) (fun _ =>
      Act.inStep_bind (Act.inStep_guard _ _) (fun _ => Act.inStep_pure _)))

theorem sampleLoop_inStep (h : EnginesInStep R P d e) (a : SampleArgs) (totalBlocks : Int) :
    ∀ (fuel stepIdx : Nat) (w : Window),
      Act.InStep R (sampleLoop d a totalBlocks fuel stepIdx w) (sampleLoop e a totalBlocks fuel stepIdx w)
  | 0, _, _ => Act.inStep_lift _
  | fuel + 1, stepIdx, w => by
    refine Act.inStep_bind (sampleStep_inStep h a totalBlocks stepIdx w) (fun r => ?_)
    split
    · exact Act.inStep_pure _
    · exact sampleLoop_inStep h a totalBlocks fuel (stepIdx + 1) r.1

theorem addRequests_inStep (h : EnginesInStep R P d e) : ∀ (rs : List AddRequest), (∀ r ∈ rs, P r) →
    Act.InStep R (addRequests d rs) (addRequests e rs)
  | [], _ => Act.inStep_pure _
  | r :: rs, hp => Act.inStep_bind (h.addRequest r (hp r List.mem_cons_self)) (fun _ =>
      addRequests_inStep h rs (fun q hq => hp q (List.mem_cons_of_mem _ hq)))

/-- **A sample on engines in step**: it ends the same way on both, in related states. -/
theorem sampleDecodeWindow_inStep (h : EnginesInStep R P d e) (a : SampleArgs) (hp : ∀ r ∈ a.requests, P r) :
    Act.InStep R (sampleDecodeWindow d a) (sampleDecodeWindow e a) := by
  unfold sampleDecodeWindow
  refine Act.inStep_bind (Act.inStep_lift _) (fun _ => Act.inStep_bind h.numGpuBlocks (fun _ =>
    Act.inStep_bind (Act.inStep_lift _) (fun _ => Act.inStep_bind (addRequests_inStep h a.requests hp) (fun _ => ?_))))
  exact Act.inStep_ensuring
    (Act.inStep_bind (sampleLoop_inStep h a _ _ 0 _) (fun _ => Act.inStep_lift _)) h.endSample

end GoodputLab
