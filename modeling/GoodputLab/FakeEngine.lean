import GoodputLab.Base.Runs
import GoodputLab.KvMeasure
/-!
# FakeEngine — the fake engine of the dry run (`bench/kv_scaling/measure.py`)

`FakeEngine` is what a `FakeEngineDriver` is constructed with and `FakeState` what its calls change: the pool's used
blocks and the requests in the order they were added, none of which is ever removed.  A call that raises leaves the state
it had reached.
-/
namespace GoodputLab

/-- What the fake engine and its pool raise. -/
inductive FakeError
  | blockSize (got : Int)
  | fixedOverheadBytes (got : Int)
  | eosAfter (got : Int)
  | totalBlocks (got : Int)
  | cannotHold (totalBlocks used : Int)
  | duplicateRequestId (requestId : Text)
  | maxTokens (got : Int)
  | promptLen (got : Int)
  | unknownRequestId (requestId : Text)
deriving DecidableEq

def FakeError.text : FakeError → String
  | .blockSize got             => "block_size must be > 0, got " ++ toString got
  | .fixedOverheadBytes got    => "fixed_overhead_bytes must be > 0, got " ++ toString got
  | .eosAfter got              => "eos_after must be >= 1, got " ++ toString got
  | .totalBlocks got           => "total_blocks must be > 0, got " ++ toString got
  | .cannotHold total used     =>
    "fake pool of " ++ toString total ++ " blocks cannot hold " ++ toString used ++ " used blocks"
  | .duplicateRequestId rid    => "duplicate request id " ++ String.ofList (Text.repr rid)
  | .maxTokens got             => "max_tokens must be >= 1, got " ++ toString got
  | .promptLen got             => "prompt_len must be > 0, got " ++ toString got
  | .unknownRequestId rid      => "unknown request id " ++ String.ofList (Text.repr rid)

def FakeError.raised (e : FakeError) : SampleError := .driver e.text

structure FakeRequest where
  promptLen : Int
  maxTokens : Int
  ignoreEos : Bool
  generated : Int
  finished  : Bool
  freed     : Bool
deriving DecidableEq

structure FakeEngine where
  totalBlocks        : Int
  blockSize          : Int
  fixedOverheadBytes : Int
  eosAfter           : Option Int
  totalPos           : 0 < totalBlocks
  blockSizePos       : 0 < blockSize
  overheadPos        : 0 < fixedOverheadBytes
  eosGe              : eosAfter.all (fun n => decide (1 ≤ n)) = true

structure FakeState where
  usedBlocks : Int
  requests   : OrdDict Text FakeRequest
deriving DecidableEq

def FakeState.fresh : FakeState := ⟨0, .empty⟩

namespace FakeEngine

def make? (totalBlocks blockSize fixedOverheadBytes : Int) (eosAfter : Option Int) : Except FakeError FakeEngine :=
  if hb : 0 < blockSize then
    if ho : 0 < fixedOverheadBytes then
      if he : eosAfter.all (fun n => decide (1 ≤ n)) = true then
        if ht : 0 < totalBlocks then .ok ⟨totalBlocks, blockSize, fixedOverheadBytes, eosAfter, ht, hb, ho, he⟩
        else .error (.totalBlocks totalBlocks)
      else .error (.eosAfter (eosAfter.getD 0))
    else .error (.fixedOverheadBytes fixedOverheadBytes)
  else .error (.blockSize blockSize)

variable (e : FakeEngine)

/-- The blocks of a request: none before its first step or after they are freed. -/
def blocksOf (r : FakeRequest) : Int :=
  if !r.freed && decide (1 ≤ r.generated) then ⌈((r.promptLen + r.generated : Int) : ℚ) / e.blockSize⌉ else 0

def usedBy (requests : OrdDict Text FakeRequest) : Int := (requests.values.map e.blocksOf).sum

def syncPool : Act SampleError FakeState Unit := fun s =>
  let used := e.usedBy s.requests
  if used < 0 ∨ e.totalBlocks < used then (.error (FakeError.cannotHold e.totalBlocks used).raised, s)
  else (.ok (), { s with usedBlocks := used })

def addRequest (r : AddRequest) : Act SampleError FakeState Unit := fun s =>
  if s.requests.contains r.requestId then (.error (FakeError.duplicateRequestId r.requestId).raised, s)
  else if r.maxTokens < 1 then (.error (FakeError.maxTokens r.maxTokens).raised, s)
  else if r.promptLen ≤ 0 then (.error (FakeError.promptLen r.promptLen).raised, s)
  else
    let request : FakeRequest := ⟨r.promptLen, r.maxTokens, r.ignoreEos, 0, false, false⟩
    e.syncPool { s with requests := s.requests.set r.requestId request }

def finishAfter (r : FakeRequest) : Int :=
  match e.eosAfter with
  | some n => if r.ignoreEos then r.maxTokens else min r.maxTokens n
  | none   => r.maxTokens

/-- One step of a request: a token, and its blocks back when that was its last. -/
def advance (r : FakeRequest) : FakeRequest :=
  if r.finished then r
  else if e.finishAfter r ≤ r.generated + 1 then { r with generated := r.generated + 1, finished := true, freed := true }
  else { r with generated := r.generated + 1 }

def outputs (requests : OrdDict Text FakeRequest) : List StepOutput :=
  (requests.items.filter (fun p => !p.2.finished)).map (fun p => ⟨p.1, 1, (e.advance p.2).finished⟩)

def step : Act SampleError FakeState (List StepOutput) := fun s =>
  match e.syncPool { s with requests := s.requests.mapValues e.advance } with
  | (.ok _, s')    => (.ok (e.outputs s.requests), s')
  | (.error x, s') => (.error x, s')

def getNumUnfinishedRequests : Act SampleError FakeState Int := fun s =>
  (.ok (s.requests.values.countP (fun r => !r.finished)), s)

def abortRequest (requestId : Text) : Act SampleError FakeState Unit := fun s =>
  if s.requests.contains requestId then
    e.syncPool { s with requests := s.requests.modify requestId (fun r => { r with freed := true }) }
  else (.error (FakeError.unknownRequestId requestId).raised, s)

def endSample : Act SampleError FakeState Unit := fun s =>
  e.syncPool { s with requests := s.requests.mapValues (fun r => { r with freed := true }) }

def driver : EngineDriver FakeState where
  numGpuBlocks := fun s => (.ok (some e.totalBlocks), s)
  numFreeBlocks := fun s => (.ok (e.totalBlocks - s.usedBlocks), s)
  addRequest := e.addRequest
  step := e.step
  getNumUnfinishedRequests := getNumUnfinishedRequests
  endSample := e.endSample

/-! ## Histories -/

inductive Op
  | addRequest (r : AddRequest)
  | step
  | abortRequest (requestId : Text)
  | endSample
  | sample (a : SampleArgs)

/-- The engine after a call, whether it returned or raised. -/
def apply (s : FakeState) : Op → FakeState
  | .addRequest r     => (e.addRequest r s).2
  | .step             => (e.step s).2
  | .abortRequest rid => (e.abortRequest rid s).2
  | .endSample        => (e.endSample s).2
  | .sample a         => (sampleDecodeWindow e.driver a s).2

end FakeEngine
end GoodputLab
