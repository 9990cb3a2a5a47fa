import GoodputLab.Base.Act
import GoodputLab.Base.OrdDict
import GoodputLab.Base.Text
/-!
# KvMeasure — the decode-window sampler (`bench/kv_scaling/measure.py`)

One sample adds a batch of requests to an engine, steps it until all have finished, and reads the engine's block pool at
two post-step points: the first at which every request has a token, and the last before one finishes.  The engine is any
`EngineDriver`: a state, and operations that return anything or raise.
-/
namespace GoodputLab

/-! ## The engine -/

structure StepOutput where
  requestId : Text
  newTokens : Int
  finished  : Bool
deriving DecidableEq

structure AddRequest where
  requestId   : Text
  prompt      : Text
  maxTokens   : Int
  temperature : ℚ
  promptLen   : Int
  ignoreEos   : Bool

inductive Gate
  | preStep (stepIdx : Nat)
  | postStep (stepIdx : Nat)
deriving DecidableEq

/-- The errors a sample stops with; `driver` is an exception of the engine. -/
inductive SampleError
  | needOneRequest
  | lengthsDiffer
  | promptLens (got : List Int)
  | decodeTokens (got : Int)
  | theoryBpt (got : Int)
  | blockSize (got : Int)
  | invalidTotal (got : Option Int)
  | negativeUsed (gate : Gate) (used : Int)
  | aboveLimit (gate : Gate) (usedSlots liveTokens hi : Int)
  | belowLive (gate : Gate) (usedSlots liveTokens : Int)
  | unknownRequest (requestId : Text)
  | negativeNewTokens (requestId : Text)
  | finishedBeforePrefill
  | stepBudget (maxSteps : Int) (finished : List (Text × Bool))
  | prefillNeverCompleted
  | tooStaggered
  | decodeBelowPrefill (decodeUsed prefillUsed : Int)
  | driver (exception : String)
deriving DecidableEq

/-- An engine over the state `σ`; `numGpuBlocks` returns `none` for a total that is not an integer. -/
structure EngineDriver (σ : Type) where
  numGpuBlocks             : Act SampleError σ (Option Int)
  numFreeBlocks            : Act SampleError σ Int
  addRequest               : AddRequest → Act SampleError σ Unit
  step                     : Act SampleError σ (List StepOutput)
  getNumUnfinishedRequests : Act SampleError σ Int
  endSample                : Act SampleError σ Unit

structure SampleArgs where
  requestIds    : List Text
  prompts       : List Text
  promptLens    : List Int
  decodeTokens  : Int
  ignoreEos     : Bool
  prefillChunks : Int
  theoryBpt     : Int
  blockSize     : Int

def SampleArgs.batch (a : SampleArgs) : Int := a.requestIds.length

structure SampleReadings where
  kvBytesPrefill    : Int
  kvBytesDecode     : Int
  liveTokensPrefill : Int
  liveTokensDecode  : Int
  usedBlocksPrefill : Int
  usedBlocksDecode  : Int
deriving DecidableEq

/-! ## The block gate -/

def checkBlockConsistency (usedBlocks liveTokens batchSize blockSize : Int) (fullyScheduled : Bool) (gate : Gate) :
    Except SampleError Unit :=
  let usedSlots := usedBlocks * blockSize
  let hi := liveTokens + batchSize * blockSize + 64
  if usedBlocks < 0 then .error (.negativeUsed gate usedBlocks)
  else if hi < usedSlots then .error (.aboveLimit gate usedSlots liveTokens hi)
  else if fullyScheduled && usedSlots < liveTokens then .error (.belowLive gate usedSlots liveTokens)
  else .ok ()

/-! ## The loop -/

/-- The local variables of the loop. -/
structure Window where
  generated   : OrdDict Text Int
  finished    : OrdDict Text Bool
  prefillUsed : Option Int
  prefillLive : Int
  decodeUsed  : Option Int
  decodeLive  : Int

namespace Window

def initial (requestIds : List Text) : Window where
  generated := OrdDict.ofList (requestIds.map (fun rid => (rid, 0)))
  finished := OrdDict.ofList (requestIds.map (fun rid => (rid, false)))
  prefillUsed := none
  prefillLive := 0
  decodeUsed := none
  decodeLive := 0

def tokens (w : Window) (rid : Text) : Int := (w.generated.get? rid).getD 0

def isFinished (w : Window) (rid : Text) : Bool := (w.finished.get? rid).getD false

def active (w : Window) (a : SampleArgs) : List Text := a.requestIds.filter (fun rid => !w.isFinished rid)

def liveTokens (w : Window) (a : SampleArgs) : Int :=
  (((a.requestIds.zip a.promptLens).filter (fun p => !w.isFinished p.1)).map (fun p => p.2 + w.tokens p.1)).sum

def scheduled (w : Window) (a : SampleArgs) : Bool := (w.active a).all (fun rid => decide (1 ≤ w.tokens rid))

def allFinished (w : Window) : Bool := w.finished.values.all id

def anyFinished (w : Window) : Bool := w.finished.values.any id

def absorb (w : Window) (out : StepOutput) : Except SampleError Window :=
  if !w.generated.contains out.requestId then .error (.unknownRequest out.requestId)
  else if out.newTokens < 0 then .error (.negativeNewTokens out.requestId)
  else
    let w := { w with generated := w.generated.set out.requestId (w.tokens out.requestId + out.newTokens) }
    .ok (if out.finished then { w with finished := w.finished.set out.requestId true } else w)

def absorbAll : List StepOutput → Window → Except SampleError Window
  | [], w          => .ok w
  | out :: outs, w => (w.absorb out).bind (absorbAll outs)

def freeze (w : Window) (a : SampleArgs) (used : Int) : Window :=
  let live := w.liveTokens a
  let w := if w.prefillUsed.isNone && w.scheduled a then { w with prefillUsed := some used, prefillLive := live } else w
  if w.prefillUsed.isSome && !w.anyFinished then { w with decodeUsed := some used, decodeLive := live } else w

end Window

variable {σ : Type}

/-- One pass of the loop; the flag says that every request has finished. -/
def sampleStep (d : EngineDriver σ) (a : SampleArgs) (totalBlocks : Int) (stepIdx : Nat) (w : Window) :
    Act SampleError σ (Window × Bool) := do
  let freeBefore ← d.numFreeBlocks
  Act.lift (checkBlockConsistency (totalBlocks - freeBefore) (w.liveTokens a) a.batch a.blockSize (w.scheduled a)
    (.preStep stepIdx))
  let outs ← d.step
  let w ← Act.lift (Window.absorbAll outs w)
  if w.allFinished then
    if w.decodeUsed.isSome then
      let _ ← d.getNumUnfinishedRequests
      pure (w, true)
    else pure (w, true)
  else
    let freeAfter ← d.numFreeBlocks
    Act.lift (checkBlockConsistency (totalBlocks - freeAfter) (w.liveTokens a) a.batch a.blockSize (w.scheduled a)
      (.postStep stepIdx))
    Act.guard (w.prefillUsed.isNone && w.anyFinished) .finishedBeforePrefill
    pure (w.freeze a (totalBlocks - freeAfter), false)

def maxSteps (a : SampleArgs) : Int := a.prefillChunks + a.decodeTokens + 8

/-- The passes left, from the pass numbered `stepIdx`. -/
def sampleLoop (d : EngineDriver σ) (a : SampleArgs) (totalBlocks : Int) : Nat → Nat → Window → Act SampleError σ Window
  | 0, _, w              => Act.lift (.error (.stepBudget (maxSteps a) w.finished.items))
  | fuel + 1, stepIdx, w => do
    let r ← sampleStep d a totalBlocks stepIdx w
    if r.2 then pure r.1 else sampleLoop d a totalBlocks fuel (stepIdx + 1) r.1

section Passes

variable {d : EngineDriver σ} {a : SampleArgs} {totalBlocks : Int} {stepIdx : Nat} {w w' : Window} {s s' : σ}

theorem sampleLoop_last (fuel : Nat) (h : sampleStep d a totalBlocks stepIdx w s = (.ok (w', true), s')) :
    sampleLoop d a totalBlocks (fuel + 1) stepIdx w s = (.ok w', s') := by
  rw [sampleLoop, Act.bind_of_ok h]
  rfl

theorem sampleLoop_error (fuel : Nat) {e : SampleError}
    (h : sampleStep d a totalBlocks stepIdx w s = (.error e, s')) :
    sampleLoop d a totalBlocks (fuel + 1) stepIdx w s = (.error e, s') := by
  rw [sampleLoop, Act.bind_of_error h]

end Passes

/-! ## One sample -/

def checkArgs (a : SampleArgs) : Except SampleError Unit :=
  if a.requestIds.length = 0 then .error .needOneRequest
  else if !(a.prompts.length = a.requestIds.length && a.promptLens.length = a.requestIds.length) then
    .error .lengthsDiffer
  else if a.promptLens.any (fun pl => decide (pl ≤ 0)) then .error (.promptLens a.promptLens)
  else if a.decodeTokens < 1 then .error (.decodeTokens a.decodeTokens)
  else if a.theoryBpt ≤ 0 then .error (.theoryBpt a.theoryBpt)
  else if a.blockSize ≤ 0 then .error (.blockSize a.blockSize)
  else .ok ()

def checkTotal : Option Int → Except SampleError Int
  | none   => .error (.invalidTotal none)
  | some n => if n ≤ 0 then .error (.invalidTotal (some n)) else .ok n

def SampleArgs.requests (a : SampleArgs) : List AddRequest :=
  (a.requestIds.zip (a.prompts.zip a.promptLens)).map (fun p =>
    ⟨p.1, p.2.1, a.decodeTokens, 0, p.2.2, a.ignoreEos⟩)

def addRequests (d : EngineDriver σ) : List AddRequest → Act SampleError σ Unit
  | []      => pure ()
  | r :: rs => do
    d.addRequest r
    addRequests d rs

def finish (a : SampleArgs) (w : Window) : Except SampleError SampleReadings :=
  match w.prefillUsed, w.decodeUsed with
  | none, _         => .error .prefillNeverCompleted
  | some _, none    => .error .tooStaggered
  | some up, some ud =>
    if ud < up then .error (.decodeBelowPrefill ud up)
    else .ok ⟨up * a.blockSize * a.theoryBpt, ud * a.blockSize * a.theoryBpt, w.prefillLive, w.decodeLive, up, ud⟩

def sampleDecodeWindow (d : EngineDriver σ) (a : SampleArgs) : Act SampleError σ SampleReadings := do
  Act.lift (checkArgs a)
  let total ← d.numGpuBlocks
  let totalBlocks ← Act.lift (checkTotal total)
  addRequests d a.requests
  Act.ensuring
    (do
      let w ← sampleLoop d a totalBlocks (maxSteps a).toNat 0 (Window.initial a.requestIds)
      Act.lift (finish a w))
    d.endSample

end GoodputLab
