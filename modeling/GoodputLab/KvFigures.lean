import GoodputLab.Base.OrdDict
import GoodputLab.Base.Rounding
import GoodputLab.KvResults
/-!
# KvFigures — the two loaders of the plotter (`bench/kv_scaling/figures.py`)

`loadCampaign` reads the table and the summary of a campaign, `loadCampaignFromJson` its one document.  Both read a cell
through `cellFromRow`, every column with a default.
-/
namespace GoodputLab

inductive LoadError
  | csv (e : Csv.Error)
  | attribute
  | type
  | value
deriving DecidableEq

/-! ## The records -/

structure KVCell where
  modelId               : Text
  modelRevision         : Text
  gpu                   : Text
  vllmVersion           : Text
  seqLen                : Int
  batchSize             : Int
  nSamples              : Int
  p50AllocBytes         : ℚ
  p95AllocBytes         : ℚ
  baselineBytes         : ℚ
  totalTokens           : Int
  theoryBytesPerToken   : ℚ
  measuredBytesPerToken : Option ℚ
  method                : Text
deriving DecidableEq

structure KVSummary where
  campaignId             : Text
  measuredDate           : Text
  slopeBytesPerToken     : Option ℚ
  interceptBytes         : Option ℚ
  r2                     : Option ℚ
  kneeTotalTokensByBatch : OrdDict Text Int
  notes                  : Text
deriving DecidableEq

structure KVCampaign where
  cells   : List KVCell
  summary : KVSummary
deriving DecidableEq

structure TheoryCheck where
  measured  : ℚ
  theory    : ℚ
  withinTol : Bool
deriving DecidableEq

/-! ## Values -/

namespace Payload

/-- `x.get(key)`: only a dictionary has the attribute. -/
def get? (x : Payload) (key : Text) : Except LoadError (Option Payload) :=
  match x with
  | dict f => .ok (f.lookup key)
  | _      => .error .attribute

def items : Payload → Except LoadError (List (Text × Payload))
  | dict f => .ok f
  | _      => .error .attribute

/-- What a loop over a value visits. -/
def iter : Payload → Except LoadError (List Payload)
  | list l => .ok l
  | dict f => .ok (f.map (fun p => .str p.1))
  | str t  => .ok (t.map (fun c => .str [c]))
  | _      => .error .type

/-- `dict(x)` of a dictionary or of an empty list or text; no other cell row is modelled. -/
def row : Payload → Except LoadError (List (Text × Payload))
  | dict f  => .ok f
  | list [] => .ok []
  | str []  => .ok []
  | list _  => .error .value
  | str _   => .error .value
  | _       => .error .type

end Payload

namespace ValueText

variable (v : ValueText)

/-- `float(x)`. -/
def toFloat : Payload → Except LoadError ℚ
  | .bool b  => .ok (if b then 1 else 0)
  | .int n   => .ok n
  | .float q => .ok q
  | .str t   =>
    match v.parseFloat t with
    | some q => .ok q
    | none   => .error .value
  | _        => .error .type

/-- `int(x)`. -/
def toInt : Payload → Except LoadError Int
  | .bool b  => .ok (if b then 1 else 0)
  | .int n   => .ok n
  | .float q => .ok (truncate q)
  | .str t   =>
    match v.parseInt t with
    | some n => .ok n
    | none   => .error .value
  | _        => .error .type

def f (raw : Text) (default : ℚ) : ℚ := if raw.strip ≠ [] then (v.parseFloat raw).getD default else default

def i (raw : Text) (default : Int) : Int :=
  if raw.strip ≠ [] then ((v.parseFloat raw).map truncate).getD default else default

/-- `_get`: the text of a value that counts as true, and of no other. -/
def get (row : List (Text × Payload)) (key : Text) : Text :=
  v.str (((row.lookup key).getD (.str [])).or (.str []))

def optFloat (data : Payload) (key : Text) : Except LoadError (Option ℚ) := do
  let val ← data.get? key
  pure (match val with
    | none          => none
    | some (.str t) => if t.strip = [] then none else (v.toFloat (.str t)).toOption
    | some x        => (v.toFloat x).toOption)

/-- `str(data.get(key, ""))`. -/
def strOf (data : Payload) (key : Text) : Except LoadError Text := do
  let val ← data.get? key
  pure (v.str (val.getD (.str [])))

/-- `str(data.get(key, "") or "")`. -/
def strOrEmpty (data : Payload) (key : Text) : Except LoadError Text := do
  let val ← data.get? key
  pure (v.str ((val.getD (.str [])).or (.str [])))

/-- The first of two texts that is not empty, as `x or y`. -/
def firstOf (x y : Text) : Text := if x ≠ [] then x else y

def cellFromRow (row : List (Text × Payload)) (fallbackTheory : ℚ) (fallbackRevision : Text) : KVCell :=
  let measuredRaw := v.get row "measured_bytes_per_token".toList
  let theoryRaw := v.get row "theory_bytes_per_token".toList
  let revision := firstOf (v.get row "model_revision".toList) fallbackRevision
  let p50Raw := firstOf (v.get row "p50_alloc_bytes".toList) (v.get row "p50_bytes".toList)
  let p95Raw := firstOf (v.get row "p95_alloc_bytes".toList) (v.get row "p95_bytes".toList)
  { modelId := v.get row "model_id".toList
    modelRevision := revision
    gpu := v.get row "gpu".toList
    vllmVersion := v.get row "vllm_version".toList
    seqLen := v.i (v.get row "seq_len".toList) 0
    batchSize := v.i (v.get row "batch_size".toList) 0
    nSamples := v.i (v.get row "n_samples".toList) 0
    p50AllocBytes := v.f p50Raw 0
    p95AllocBytes := v.f p95Raw 0
    baselineBytes := v.f (v.get row "baseline_bytes".toList) 0
    totalTokens := v.i (v.get row "total_tokens".toList) 0
    theoryBytesPerToken := v.f theoryRaw fallbackTheory
    measuredBytesPerToken := if measuredRaw.strip ≠ [] then some (v.f measuredRaw 0) else none
    method := v.get row "method".toList }

/-! ## The table and the summary -/

/-- The entries of the legacy knee map, those whose value is no integer left out. -/
def kneeOf (entries : List (Text × Payload)) : OrdDict Text Int :=
  entries.foldl (fun d p => match v.toInt p.2 with
    | .ok n    => d.set p.1 n
    | .error _ => d) .empty

def summaryFromLegacy (data : Payload) : Except LoadError KVSummary := do
  let byBatch ← data.get? "knee_total_tokens_by_batch".toList
  let entries ← ((byBatch.getD .null).or (.dict [])).items
  let campaignId ← v.strOf data "campaign_id".toList
  let measuredDate ← v.strOf data "measured_date".toList
  let slope ← v.optFloat data "slope_bytes_per_token".toList
  let intercept ← v.optFloat data "intercept_bytes".toList
  let r2 ← v.optFloat data "r2".toList
  let notes ← v.strOf data "notes".toList
  pure ⟨campaignId, measuredDate, slope, intercept, r2, v.kneeOf entries, notes⟩

end ValueText

/-- The columns of a row, `None` for those it is too short for. -/
def zipColumns : List Text → List Text → List (Text × Payload)
  | [], _           => []
  | k :: ks, []     => (k, .null) :: zipColumns ks []
  | k :: ks, t :: l => (k, .str t) :: zipColumns ks l

/-- The dictionary reader's rows: blank ones are skipped, and the last of two columns of one name counts. -/
def dictReaderRows : List (List Text) → List (List (Text × Payload))
  | []                => []
  | header :: records => (records.filter (fun r => r ≠ [])).map (fun r => (zipColumns header r).reverse)

/-- `csv.field_size_limit()`, as it stands when nothing has set it. -/
def fieldSizeLimit : Nat := 131072

def loadCampaign (v : ValueText) (cellsCsv : Text) (payload : Payload) : Except LoadError KVCampaign := do
  let summary ← v.summaryFromLegacy payload
  let fallbackTheory ← v.strOrEmpty payload "theory_bytes_per_token".toList
  let fallbackRevision ← v.strOrEmpty payload "model_revision".toList
  let records ← (Csv.read fieldSizeLimit cellsCsv).mapError .csv
  pure ⟨(dictReaderRows records).map (fun row => v.cellFromRow row (v.f fallbackTheory 0) fallbackRevision), summary⟩

/-! ## The document -/

def coerceTheoryCheck (v : ValueText) (raw : Payload) : Except LoadError TheoryCheck := do
  let measured ← raw.get? "measured".toList
  let m ← v.toFloat (measured.getD (.float 0))
  let theory ← raw.get? "theory".toList
  let t ← v.toFloat (theory.getD (.float 0))
  let within ← raw.get? "within_tol".toList
  pure ⟨m, t, (within.getD (.bool false)).truthy⟩

/-- The knee of a campaign, named by its batch size. -/
def kneeOfDocument (v : ValueText) (kneeData : Payload) : Except LoadError (OrdDict Text Int) := do
  let total ← kneeData.get? "total_tokens".toList
  match total with
  | none | some .null => pure .empty
  | some n =>
    let batch ← kneeData.get? "batch_size".toList
    let key := match batch with
      | none | some .null => "pooled".toList
      | some b            => v.str b
    let tokens ← v.toInt n
    pure (OrdDict.empty.set key tokens)

def loadCampaignFromJson (v : ValueText) (payload : Payload) : Except LoadError (KVCampaign × Option TheoryCheck) := do
  let campaign ← payload.get? "campaign".toList
  let data := campaign.getD payload
  let theory ← v.strOrEmpty data "theory_bytes_per_token".toList
  let revision ← v.strOrEmpty data "model_revision".toList
  let regression ← data.get? "regression".toList
  let reg := (regression.getD (.dict [])).or (.dict [])
  let kneeData ← data.get? "knee".toList
  let knee ← kneeOfDocument v ((kneeData.getD (.dict [])).or (.dict []))
  let campaignId ← v.strOf data "campaign_id".toList
  let measuredDate ← v.strOf data "measured_date".toList
  let slope ← v.optFloat reg "slope_bpt".toList
  let intercept ← v.optFloat reg "intercept_bytes".toList
  let r2 ← v.optFloat reg "r2".toList
  let notes ← v.strOf data "notes".toList
  let listed ← data.get? "cells".toList
  let values ← ((listed.getD (.list [])).or (.list [])).iter
  let rows ← values.mapM Payload.row
  let cells := rows.map (fun row => v.cellFromRow row (v.f theory 0) revision)
  let raw ← data.get? "theory_check".toList
  let summary : KVSummary := ⟨campaignId, measuredDate, slope, intercept, r2, knee, notes⟩
  match raw with
  | none | some .null => pure (⟨cells, summary⟩, none)
  | some check        => do
    let c ← coerceTheoryCheck v check
    pure (⟨cells, summary⟩, some c)

end GoodputLab
