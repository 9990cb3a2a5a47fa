import GoodputLab.Base.Collect
import GoodputLab.Base.JsonPrefix
import GoodputLab.KvCell
/-!
# KvCellText — the text of a cell file (`bench/kv_scaling/results.py`, `bench/kv_scaling/schema.py`)

A cell is written as indented JSON and read back as the same cell (`validate_fileText`).  A beginning of the text is read
as the whole cell or refused (`validate_torn`).
-/
namespace GoodputLab

/-- How cells are written and read back. -/
structure KvCellCodec (C : Type) where
  parse     : C → Option KvScalingCell
  dump      : KvScalingCell → C
  roundTrip : ∀ cell, parse (dump cell) = some cell

/-! ## The text of a cell -/

namespace CellFields

def jsonInts (l : List Int) : Json := .arr (l.map (fun z : Int => .num z))

/-- `model_dump(exclude_computed_fields=True)`. -/
def dumped (f : CellFields) : List (Text × Json) :=
  [("model_id".toList, .str f.modelId), ("gpu".toList, .str f.gpu), ("vllm_version".toList, .str f.vllmVersion),
    ("seq_len".toList, .num f.seqLen), ("batch_size".toList, .num f.batchSize), ("n_samples".toList, .num f.nSamples),
    ("kv_bytes_used_samples".toList, jsonInts f.kvBytesUsedSamples),
    ("kv_bytes_prefill_samples".toList, (f.kvBytesPrefillSamples.map jsonInts).getD .null),
    ("total_tokens".toList, .num f.totalTokens), ("baseline_bytes".toList, .num f.baselineBytes),
    ("method".toList, .str f.method)]

def toJson (f : CellFields) : Json := .obj f.dumped

def names : List Text :=
  ["model_id".toList, "gpu".toList, "vllm_version".toList, "seq_len".toList, "batch_size".toList, "n_samples".toList,
    "kv_bytes_used_samples".toList, "kv_bytes_prefill_samples".toList, "total_tokens".toList, "baseline_bytes".toList,
    "method".toList]

end CellFields

/-- How a field of type `int` or `str` reads a value: one of the type itself as it is. -/
structure Coercions where
  int     : Json → Option Int
  str     : Json → Option Text
  int_num : ∀ z : Int, int (.num z) = some z
  str_str : ∀ s, str (.str s) = some s

namespace Coercions

variable (p : Coercions)

def ints : Json → Option (List Int)
  | .arr l => l.mapM p.int
  | _      => none

/-- A field whose default is `None`. -/
def optionalInts : Option Json → Option (Option (List Int))
  | none       => some none
  | some .null => some none
  | some v     => (p.ints v).map some

def field (fs : List (Text × Json)) (name : Text) : Option Json := fs.lookup name

/-- The fields among an object's, each of its type. -/
def readFields (fs : List (Text × Json)) : Option CellFields := do
  let modelId ← (field fs "model_id".toList).bind p.str
  let gpu ← (field fs "gpu".toList).bind p.str
  let vllmVersion ← (field fs "vllm_version".toList).bind p.str
  let seqLen ← (field fs "seq_len".toList).bind p.int
  let batchSize ← (field fs "batch_size".toList).bind p.int
  let nSamples ← (field fs "n_samples".toList).bind p.int
  let used ← (field fs "kv_bytes_used_samples".toList).bind p.ints
  let prefill ← p.optionalInts (field fs "kv_bytes_prefill_samples".toList)
  let totalTokens ← (field fs "total_tokens".toList).bind p.int
  let baselineBytes ← (field fs "baseline_bytes".toList).bind p.int
  let method ← (field fs "method".toList).bind p.str
  some ⟨modelId, gpu, vllmVersion, seqLen, batchSize, nSamples, used, prefill, totalTokens, baselineBytes, method⟩

/-- Another field is forbidden. -/
def cellFields : Json → Option CellFields
  | .obj fs => if fs.any (fun q => !CellFields.names.contains q.1) then none else p.readFields fs
  | _       => none

end Coercions

namespace KvScalingCell

/-- Two blanks for each level.  A cell has no number that is not an integer. -/
def pretty : Json.Style := ⟨some 2, true, false, fun _ => []⟩

def modelDumpJson (cell : KvScalingCell) : Text := Json.dumps pretty cell.toJson

def modelValidateJson (p : Coercions) (raw : Text) : Option KvScalingCell :=
  match Json.loads raw with
  | .error _ => none
  | .ok v    => (p.cellFields v).bind (fun f => (KvScalingCell.make? f).toOption)

/-- What `write_cell_json` writes. -/
def fileText (cell : KvScalingCell) : Text := cell.modelDumpJson ++ ['\n']

end KvScalingCell

/-! ## A cell is read back -/

theorem writable_ints (style : Json.Style) (l : List Int) : Json.Writable style (CellFields.jsonInts l) := by
  refine .arr (fun x hx => ?_)
  obtain ⟨z, -, rfl⟩ := List.mem_map.1 hx
  exact Json.writable_int style z

theorem CellFields.writable_toJson (style : Json.Style) (f : CellFields) : Json.Writable style f.toJson := by
  rw [toJson, dumped]
  refine .obj (by simp only [List.map]; decide) ?_
  have hprefill : Json.Writable style ((f.kvBytesPrefillSamples.map jsonInts).getD .null) := by
    cases f.kvBytesPrefillSamples with
    | none => exact .null
    | some l => exact writable_ints style l
  simp only [List.forall_mem_cons]
  have hint : ∀ z : Int, Json.Writable style (.num z) := Json.writable_int style
  exact ⟨.str _, .str _, .str _, hint _, hint _, hint _, writable_ints style _, hprefill, hint _, hint _, .str _,
    fun q h => by cases h⟩

section Codec
variable (p : Coercions)

theorem Coercions.ints_jsonInts (l : List Int) : p.ints (CellFields.jsonInts l) = some l := by
  rw [CellFields.jsonInts, ints, Collect.mapM_eq_some_iff]
  induction l with
  | nil => exact .nil
  | cons z l ih => exact .cons (p.int_num z) ih

theorem Coercions.optionalInts_jsonInts (o : Option (List Int)) :
    p.optionalInts (some ((o.map CellFields.jsonInts).getD .null)) = some o := by
  cases o with
  | none => rfl
  | some l =>
    have hread := p.ints_jsonInts l
    rw [CellFields.jsonInts] at hread
    rw [Option.map_some, Option.getD_some, CellFields.jsonInts, optionalInts, hread, Option.map_some]
    exact fun h => by cases h

/-- **The fields of a dumped cell are read back.** -/
theorem Coercions.readFields_dumped (f : CellFields) : p.readFields f.dumped = some f := by
  simp only [readFields, show field f.dumped "model_id".toList = some (.str f.modelId) from rfl,
    show field f.dumped "gpu".toList = some (.str f.gpu) from rfl,
    show field f.dumped "vllm_version".toList = some (.str f.vllmVersion) from rfl,
    show field f.dumped "seq_len".toList = some (.num f.seqLen) from rfl,
    show field f.dumped "batch_size".toList = some (.num f.batchSize) from rfl,
    show field f.dumped "n_samples".toList = some (.num f.nSamples) from rfl,
    show field f.dumped "kv_bytes_used_samples".toList = some (CellFields.jsonInts f.kvBytesUsedSamples) from rfl,
    show field f.dumped "kv_bytes_prefill_samples".toList =
      some ((f.kvBytesPrefillSamples.map CellFields.jsonInts).getD .null) from rfl,
    show field f.dumped "total_tokens".toList = some (.num f.totalTokens) from rfl,
    show field f.dumped "baseline_bytes".toList = some (.num f.baselineBytes) from rfl,
    show field f.dumped "method".toList = some (.str f.method) from rfl, Option.bind_some, p.str_str, p.int_num,
    p.ints_jsonInts, p.optionalInts_jsonInts, Option.bind_eq_bind]

theorem Coercions.cellFields_toJson (f : CellFields) : p.cellFields f.toJson = some f := by
  have hknown : f.dumped.any (fun q => !CellFields.names.contains q.1) = false := by
    have hnames : f.dumped.map Prod.fst = CellFields.names := rfl
    have hall : CellFields.names.any (fun n => !CellFields.names.contains n) = false := by decide
    rw [← hall, ← hnames, List.any_map]
    rfl
  rw [CellFields.toJson, cellFields, hknown, if_neg (by decide), p.readFields_dumped]

namespace KvScalingCell

theorem isBlank_newline : ∀ c ∈ (['\n'] : Text), Json.isBlank c = true := by
  intro c hc
  rw [List.mem_singleton.1 hc]
  rfl

theorem validate_of_loads {raw : Text} {cell : KvScalingCell} (h : Json.loads raw = .ok cell.toJson) :
    modelValidateJson p raw = some cell := by
  simp only [modelValidateJson, h, p.cellFields_toJson, Option.bind_some, KvScalingCell.make?_ok cell.checked]
  rfl

/-- **A written cell is read back.** -/
theorem validate_fileText (cell : KvScalingCell) : modelValidateJson p cell.fileText = some cell :=
  validate_of_loads p (Json.loads_dumps_append (cell.toCellFields.writable_toJson pretty) isBlank_newline)

/-- **A torn file is read as the whole cell or refused.** -/
theorem validate_torn (cell : KvScalingCell) {content : Text} (h : content <+: cell.fileText) :
    modelValidateJson p content = some cell ∨ modelValidateJson p content = none := by
  rcases Json.loads_torn (cell.toCellFields.writable_toJson pretty) isBlank_newline h with hok | herror
  · exact Or.inl (validate_of_loads p hok)
  · exact Or.inr (by rw [modelValidateJson, herror])

end KvScalingCell

/-- The cell files as they are on disk. -/
def cellFileCodec : KvCellCodec Text where
  parse := KvScalingCell.modelValidateJson p
  dump := KvScalingCell.fileText
  roundTrip := KvScalingCell.validate_fileText p

end Codec

/-- A field that is no number or text of its type is refused. -/
def strictCoercions : Coercions where
  int v := match v with
    | .num q => if q.den = 1 then some q.num else none
    | _      => none
  str v := match v with
    | .str s => some s
    | _      => none
  int_num z := if_pos (Rat.den_intCast z)
  str_str _ := rfl

end GoodputLab
