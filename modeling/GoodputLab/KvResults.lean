import GoodputLab.Base.Csv
import GoodputLab.KvDryRun
/-!
# KvResults — the files of a campaign (`bench/kv_scaling/results.py`)

A campaign is written twice: as a table, one row a cell, beside a summary, and as one JSON document.  A JSON file is the
value it holds, which `json.loads` reads back as `json.dumps` was given it.
-/
namespace GoodputLab

/-! ## Values -/

/-- What the programs put in a JSON file or in a row. -/
inductive Payload
  | null
  | bool (b : Bool)
  | int (n : Int)
  | float (q : ℚ)
  | str (t : Text)
  | list (l : List Payload)
  | dict (fields : List (Text × Payload))

namespace Payload

def truthy : Payload → Bool
  | null   => false
  | bool b => b
  | int n  => n ≠ 0
  | float q => q ≠ 0
  | str t  => t ≠ []
  | list l => !l.isEmpty
  | dict f => !f.isEmpty

/-- `x or y`. -/
def or (x y : Payload) : Payload := if x.truthy then x else y

end Payload

/-- Texts and values: what `repr` writes of a float, what `float` and `int` read, and what `str` writes of a list or a
dictionary.  A float's text has at most 24 characters, and a blank text is no number. -/
structure ValueText where
  floatRepr      : ℚ → Text
  parseFloat     : Text → Option ℚ
  parseInt       : Text → Option Int
  containerStr   : Payload → Text
  reprLength     : ∀ q, (floatRepr q).length ≤ 24
  parseBlank     : ∀ t : Text, t.strip = [] → parseFloat t = none
  parseFloatZero : parseFloat (floatRepr 0) = some 0
  parseNat       : ∀ n < 2 ^ 53, parseFloat (Text.ofNat n) = some (n : ℚ)

namespace ValueText

/-- `str(x)`. -/
def str (v : ValueText) : Payload → Text
  | .null       => "None".toList
  | .bool true  => "True".toList
  | .bool false => "False".toList
  | .int n      => Text.ofInt n
  | .float q    => v.floatRepr q
  | .str t      => t
  | x           => v.containerStr x

/-- What the table writer writes of a value: nothing of `None`. -/
def csvText (v : ValueText) : Payload → Text
  | .null => []
  | x     => v.str x

/-- A whole number, with or without `.0`. -/
def parseWhole (t : Text) : Option Nat :=
  let digits := t.takeWhile Char.isDigit
  let rest := t.dropWhile Char.isDigit
  if digits ≠ [] ∧ (rest = [] ∨ rest = ".0".toList) then some (Nat.ofDigitChars 10 digits 0) else none

theorem parseWhole_ofNat (n : Nat) : parseWhole (Text.ofNat n) = some n := by
  have hdigits : ∀ c ∈ Text.ofNat n, c.isDigit = true := fun c hc =>
    Nat.isDigit_of_mem_toDigits (by decide) (by decide) hc
  have htake : (Text.ofNat n).takeWhile Char.isDigit = Text.ofNat n := List.takeWhile_eq_self_iff.2 hdigits
  have hdrop : (Text.ofNat n).dropWhile Char.isDigit = [] := List.dropWhile_eq_nil_iff.2 hdigits
  have hne : Text.ofNat n ≠ [] := List.length_pos_iff.1 Nat.length_toDigits_pos
  unfold parseWhole
  simp only [htake, hdrop]
  rw [if_pos ⟨hne, .inl trivial⟩]
  exact congrArg some Nat.ofDigitChars_ten_toDigits

theorem parseWhole_blank {t : Text} (h : t.strip = []) : parseWhole t = none := by
  cases t with
  | nil => rfl
  | cons c t =>
    have hspace := Text.strip_eq_nil.1 h c List.mem_cons_self
    have hdigit : c.isDigit = false := by
      rw [Bool.eq_false_iff]
      intro hdigit
      have hrange : 48 ≤ c.toNat ∧ c.toNat ≤ 57 := by
        simp only [Char.isDigit, Bool.and_eq_true, decide_eq_true_eq] at hdigit
        exact hdigit
      unfold Text.isSpace at hspace
      simp only [Bool.or_eq_true, Bool.and_eq_true, decide_eq_true_eq] at hspace
      omega
    unfold parseWhole
    rw [List.takeWhile_cons_of_neg (by rw [hdigit]; decide)]
    rfl

/-- The texts of the whole numbers that a float writes without an exponent. -/
def whole : ValueText where
  floatRepr q := (Text.ofInt q.floor ++ ".0".toList).take 24
  parseFloat t := (parseWhole t).map (fun n => (n : ℚ))
  parseInt t := (parseWhole t).map (fun n => (n : Int))
  containerStr _ := []
  reprLength _ := List.length_take_le _ _
  parseBlank t h := by rw [parseWhole_blank h]; rfl
  parseFloatZero := by decide +kernel
  parseNat n _ := by rw [parseWhole_ofNat]; rfl

end ValueText

/-! ## The table -/

def schemaVersion : Text := "1.1".toList

def sampleName (i : Nat) : Text := "sample_".toList ++ Text.ofNat i

/-- The columns of every table; a column for each sample follows. -/
def cellColumns : List Text :=
  ["schema_version".toList, "campaign_id".toList, "model_revision".toList, "model_id".toList, "gpu".toList,
    "vllm_version".toList, "seq_len".toList, "batch_size".toList, "n_samples".toList, "total_tokens".toList,
    "baseline_bytes".toList, "theory_bytes_per_token".toList, "measured_bytes_per_token".toList, "p50_bytes".toList,
    "p95_bytes".toList, "method".toList]

namespace KvScalingCampaign

variable (campaign : KvScalingCampaign)

def maxSamples : Nat := ((campaign.cells.map (fun c => c.kvBytesUsedSamples.length)).max?).getD 0

def fieldnames : List Text := cellColumns ++ (List.range campaign.maxSamples).map sampleName

/-- The campaign's own id stands in for an empty one. -/
def cid (campaignId : Text) : Text := if campaignId = [] then campaign.campaignId else campaignId

/-- The values of a row but for its samples. -/
def cellValues (campaignId : Text) (cell : KvScalingCell) : List (Text × Payload) :=
  [("schema_version".toList, .str schemaVersion), ("campaign_id".toList, .str (campaign.cid campaignId)),
    ("model_revision".toList, .str campaign.modelRevision), ("model_id".toList, .str cell.modelId),
    ("gpu".toList, .str cell.gpu), ("vllm_version".toList, .str cell.vllmVersion),
    ("seq_len".toList, .int cell.seqLen), ("batch_size".toList, .int cell.batchSize),
    ("n_samples".toList, .int cell.nSamples), ("total_tokens".toList, .int cell.totalTokens),
    ("baseline_bytes".toList, .int cell.baselineBytes),
    ("theory_bytes_per_token".toList, .int campaign.theoryBytesPerToken),
    ("measured_bytes_per_token".toList, .float cell.measuredBytesPerToken), ("p50_bytes".toList, .float cell.p50Bytes),
    ("p95_bytes".toList, .float cell.p95Bytes), ("method".toList, .str cell.method)]

def cellRow (campaignId : Text) (cell : KvScalingCell) : List (Text × Payload) :=
  campaign.cellValues campaignId cell ++ cell.kvBytesUsedSamples.zipIdx.map (fun p => (sampleName p.2, .int p.1))

end KvScalingCampaign

/-- A row of the dictionary writer: nothing for a column the row has no value of. -/
def dictWriterRow (v : ValueText) (fieldnames : List Text) (row : List (Text × Payload)) : List Text :=
  fieldnames.map (fun k => ((row.lookup k).map v.csvText).getD [])

namespace KvScalingCampaign

variable (v : ValueText) (campaign : KvScalingCampaign)

def csvRows (campaignId : Text) : List (List Text) :=
  campaign.fieldnames ::
    campaign.cells.map (fun c => dictWriterRow v campaign.fieldnames (campaign.cellRow campaignId c))

def cellsCsv (campaignId : Text) : Text := Csv.write (campaign.csvRows v campaignId)

end KvScalingCampaign

/-! ## The documents -/

def KvScalingCell.dump (cell : KvScalingCell) : List (Text × Payload) :=
  [("model_id".toList, .str cell.modelId), ("gpu".toList, .str cell.gpu),
    ("vllm_version".toList, .str cell.vllmVersion), ("seq_len".toList, .int cell.seqLen),
    ("batch_size".toList, .int cell.batchSize), ("n_samples".toList, .int cell.nSamples),
    ("kv_bytes_used_samples".toList, .list (cell.kvBytesUsedSamples.map .int)),
    ("kv_bytes_prefill_samples".toList, match cell.kvBytesPrefillSamples with
      | none   => .null
      | some l => .list (l.map .int)),
    ("total_tokens".toList, .int cell.totalTokens), ("baseline_bytes".toList, .int cell.baselineBytes),
    ("method".toList, .str cell.method), ("p50_bytes".toList, .float cell.p50Bytes),
    ("p95_bytes".toList, .float cell.p95Bytes), ("measured_bytes_per_token".toList, .float cell.measuredBytesPerToken)]

def RegressionFit.dump (fit : RegressionFit) : Payload :=
  .dict [("slope_bpt".toList, .float fit.slopeBpt), ("intercept_bytes".toList, .float fit.interceptBytes),
    ("r2".toList, .float fit.r2)]

def KneePoint.dump (knee : KneePoint) : Payload :=
  .dict [("total_tokens".toList, .int knee.totalTokens), ("kv_share".toList, .float knee.kvShare),
    ("batch_size".toList, match knee.batchSize with
      | none   => .null
      | some b => .int b)]

namespace KvScalingCampaign

variable (campaign : KvScalingCampaign)

def dump : Payload :=
  .dict [("campaign_id".toList, .str campaign.campaignId), ("model_revision".toList, .str campaign.modelRevision),
    ("cells".toList, .list (campaign.cells.map (fun c => .dict c.dump))),
    ("theory_bytes_per_token".toList, .int campaign.theoryBytesPerToken),
    ("regression".toList, campaign.regression.dump), ("knee".toList, campaign.knee.dump)]

def cellsJson : Payload := .dict [("schema_version".toList, .str schemaVersion), ("campaign".toList, campaign.dump)]

def summaryNotes : Text :=
  "KV-cache scaling study: per-cell p50 KV bytes (block-manager ".toList ++
    "accounting) vs total tokens; baseline_bytes is F.".toList

def summaryJson (measuredDate : Text) : Payload :=
  .dict [("campaign_id".toList, .str campaign.campaignId), ("measured_date".toList, .str measuredDate),
    ("slope_bytes_per_token".toList, .float campaign.regression.slopeBpt),
    ("intercept_bytes".toList, .float campaign.regression.interceptBytes), ("r2".toList, .float campaign.regression.r2),
    ("knee_total_tokens_by_batch".toList, .dict [match campaign.knee.batchSize with
      | some b => (Text.ofInt b, .int campaign.knee.totalTokens)
      | none   => ("pooled".toList, .int campaign.knee.totalTokens)]),
    ("theory_bytes_per_token".toList, .int campaign.theoryBytesPerToken),
    ("model_revision".toList, .str campaign.modelRevision),
    ("notes".toList, .str summaryNotes)]

end KvScalingCampaign

/-! ## The files -/

inductive Artifact
  | table (t : Text)
  | document (p : Payload)

/-- The files in the order they are written. -/
def writeCampaign (v : ValueText) (campaign : KvScalingCampaign) (campaignId : Text) : List (Text × Artifact) :=
  [("cells.csv".toList, .table (campaign.cellsCsv v campaignId)), ("cells.json".toList, .document campaign.cellsJson)]

def writeSummaryJson (campaign : KvScalingCampaign) (measuredDate : Text) : List (Text × Artifact) :=
  [("summary.json".toList, .document (campaign.summaryJson measuredDate))]

end GoodputLab
