import GoodputLab.KvFinish
/-!
# KvTheory — the bytes a token should take (`bench/kv_scaling/theory.py`)

The theory is read off a model's config: two vectors a layer for each KV head, of the hidden size divided by the query
heads.  A config gives a theory exactly when its numbers are positive integers that divide and its dtype is known, and
then the one of the formula (`configFromHfConfig_ok_iff`); nothing else in it counts (`configFromHfConfig_congr`).  Where
it says nothing of a dtype the engine's own is taken (`resolveTheory`), and what a sweep publishes is within the tolerance
of that formula (`published_iff_near_formula`).
-/
namespace GoodputLab

/-! ## The program -/

/-- What keeps a config from giving a theory.  A missing key is a `KeyError`, a bad value a `ValueError`. -/
inductive ConfigError
  | missing (key : Text)
  | notAnInteger (key : Text) (got : Payload)
  | notPositive (name : Text) (got : Int)
  | heads (got : Int)
  | notDivisible (hiddenSize numAttentionHeads : Int)
  | unknownDtype (dtype : Text)
  | notFetched

abbrev HfConfig := OrdDict Text Payload

def requirePositive : List (Text × Int) → Except ConfigError Unit
  | []                    => .ok ()
  | (name, value) :: rest => if value ≤ 0 then .error (.notPositive name value) else requirePositive rest

def kvBytesPerToken (nLayers nKvHeads headDim bytesPerElement : Int) : Except ConfigError Int := do
  requirePositive [("n_layers".toList, nLayers), ("n_kv_heads".toList, nKvHeads), ("head_dim".toList, headDim),
    ("bytes_per_element".toList, bytesPerElement)]
  pure (2 * nLayers * nKvHeads * headDim * bytesPerElement)

def headDimFromConfig (hiddenSize numAttentionHeads : Int) : Except ConfigError Int :=
  if numAttentionHeads ≤ 0 then .error (.heads numAttentionHeads)
  else if hiddenSize % numAttentionHeads ≠ 0 then .error (.notDivisible hiddenSize numAttentionHeads)
  else .ok (hiddenSize / numAttentionHeads)

/-- `s.replace(p, "")`; the next `skip` characters are the rest of an occurrence. -/
def removeAll (p : Text) : Nat → Text → Text
  | _, []             => []
  | skip + 1, _ :: cs => removeAll p skip cs
  | 0, c :: cs        => if p.isPrefixOf (c :: cs) then removeAll p (p.length - 1) cs else c :: removeAll p 0 cs

def dtypeBytes : List (Text × Int) :=
  [("float32".toList, 4), ("fp32".toList, 4), ("float16".toList, 2), ("fp16".toList, 2), ("bfloat16".toList, 2),
    ("bf16".toList, 2), ("float8_e4m3fn".toList, 1), ("float8_e5m2".toList, 1), ("fp8".toList, 1)]

/-- The name a dtype is looked up by.  No character but a capital letter is lowered to one of the table's. -/
def dtypeKey (dtype : Text) : Text := removeAll "torch.".toList 0 (dtype.strip.map Char.toLower)

def bytesPerElementFromDtype (dtype : Text) : Except ConfigError Int :=
  match dtypeBytes.lookup (dtypeKey dtype) with
  | some n => .ok n
  | none   => .error (.unknownDtype dtype)

/-- `config[key]`. -/
def configItem (config : HfConfig) (key : Text) : Except ConfigError Payload :=
  match config.get? key with
  | some value => .ok value
  | none       => .error (.missing key)

def configInt (config : HfConfig) (key : Text) : Except ConfigError Int := do
  match ← configItem config key with
  | .int n => pure n
  | value  => .error (.notAnInteger key value)

/-- The KV heads: the query heads where the config does not name them. -/
def kvHeadsOf (config : HfConfig) (nQueryHeads : Int) : Except ConfigError Int :=
  if config.contains "num_key_value_heads".toList then configInt config "num_key_value_heads".toList
  else .ok nQueryHeads

def configFromHfConfig (v : ValueText) (config : HfConfig) (revision : Text) : Except ConfigError HfKvTheory := do
  let nLayers ← configInt config "num_hidden_layers".toList
  let nQueryHeads ← configInt config "num_attention_heads".toList
  let nKvHeads ← kvHeadsOf config nQueryHeads
  let hiddenSize ← configInt config "hidden_size".toList
  let headDim ← headDimFromConfig hiddenSize nQueryHeads
  let dtype ← configItem config "torch_dtype".toList
  let bpe ← bytesPerElementFromDtype (v.str dtype)
  let bytesPerToken ← kvBytesPerToken nLayers nKvHeads headDim bpe
  pure ⟨bytesPerToken, revision⟩

/-- The dtype of the engine stands in for one that the config leaves out. -/
def withDtype (dtype : Option Text) (config : HfConfig) : HfConfig :=
  match config.get? "torch_dtype".toList, dtype with
  | none, some name => config.set "torch_dtype".toList (.str name)
  | _, _            => config

/-- `configs` are those found on the engine's paths, `raw` the file of the model's repository. -/
def resolveTheory (v : ValueText) (configs : List (Option HfConfig)) (raw : Option HfConfig) (dtype : Option Text)
    (revision : Text) : Except ConfigError HfKvTheory :=
  match (configs.findSome? id).or raw with
  | none        => .error .notFetched
  | some config => configFromHfConfig v (withDtype dtype config) revision

/-! ## What is read -/

theorem requirePositive_ok : ∀ {l : List (Text × Int)} {u : Unit}, requirePositive l = .ok u ↔ ∀ q ∈ l, 0 < q.2
  | [], _ => by simp [requirePositive]
  | (name, value) :: rest, u => by
    unfold requirePositive
    by_cases h : value ≤ 0
    · rw [if_pos h]
      constructor
      · intro hno
        cases hno
      · intro hall
        exact absurd (hall (name, value) List.mem_cons_self) (not_lt.2 h)
    · rw [if_neg h, requirePositive_ok]
      simp [not_le.1 h]

theorem kvBytesPerToken_ok {nLayers nKvHeads headDim bpe t : Int} : kvBytesPerToken nLayers nKvHeads headDim bpe = .ok t ↔
    (0 < nLayers ∧ 0 < nKvHeads ∧ 0 < headDim ∧ 0 < bpe) ∧ t = 2 * nLayers * nKvHeads * headDim * bpe := by
  unfold kvBytesPerToken
  cases hpos : requirePositive [("n_layers".toList, nLayers), ("n_kv_heads".toList, nKvHeads),
    ("head_dim".toList, headDim), ("bytes_per_element".toList, bpe)] with
  | error e =>
    refine iff_of_false (fun h => by cases h) (fun h => ?_)
    have hall := (requirePositive_ok (u := ())).2 (show ∀ q ∈ [("n_layers".toList, nLayers),
      ("n_kv_heads".toList, nKvHeads), ("head_dim".toList, headDim), ("bytes_per_element".toList, bpe)], 0 < q.2 by
        simpa using h.1)
    rw [hpos] at hall
    cases hall
  | ok u =>
    have hall := requirePositive_ok.1 hpos
    simp only [List.forall_mem_cons, List.not_mem_nil, false_implies, implies_true, and_true] at hall
    rw [Act.except_ok_bind, and_iff_right hall]
    exact ⟨fun h => (Except.ok.inj h).symm, fun h => h ▸ rfl⟩

theorem headDimFromConfig_ok {hiddenSize heads d : Int} : headDimFromConfig hiddenSize heads = .ok d ↔
    0 < heads ∧ heads ∣ hiddenSize ∧ d = hiddenSize / heads := by
  unfold headDimFromConfig
  by_cases hheads : heads ≤ 0
  · rw [if_pos hheads]
    exact iff_of_false (fun h => by cases h) (fun h => absurd h.1 (not_lt.2 hheads))
  rw [if_neg hheads, and_iff_right (not_le.1 hheads), Int.dvd_iff_emod_eq_zero]
  by_cases hdiv : hiddenSize % heads = 0
  · rw [if_neg (not_not.2 hdiv), and_iff_right hdiv]
    exact ⟨fun h => (Except.ok.inj h).symm, fun h => h ▸ rfl⟩
  · rw [if_pos hdiv]
    exact iff_of_false (fun h => by cases h) (fun h => hdiv h.1)

theorem configItem_ok {config : HfConfig} {key : Text} {value : Payload} :
    configItem config key = .ok value ↔ config.get? key = some value := by
  unfold configItem
  cases config.get? key with
  | none => exact iff_of_false (fun h => by cases h) (fun h => by cases h)
  | some found => exact ⟨fun h => congrArg some (Except.ok.inj h), fun h => congrArg Except.ok (Option.some.inj h)⟩

theorem configInt_ok {config : HfConfig} {key : Text} {n : Int} :
    configInt config key = .ok n ↔ config.get? key = some (.int n) := by
  unfold configInt
  cases hitem : configItem config key with
  | error e =>
    refine iff_of_false (fun h => by cases h) (fun h => ?_)
    rw [configItem_ok.2 h] at hitem
    cases hitem
  | ok value =>
    rw [Act.except_ok_bind, configItem_ok.1 hitem]
    cases value with
    | int m => exact ⟨fun h => by rw [Except.ok.inj h], fun h => by cases h; rfl⟩
    | _ => exact iff_of_false (fun h => by cases h) (fun h => by cases h)

/-- The architecture and the dtype that a config names. -/
structure Architecture (v : ValueText) (config : HfConfig) (nLayers nQueryHeads nKvHeads hiddenSize bpe : Int) : Prop where
  layers     : config.get? "num_hidden_layers".toList = some (.int nLayers)
  queryHeads : config.get? "num_attention_heads".toList = some (.int nQueryHeads)
  kvHeads    : (config.get? "num_key_value_heads".toList).getD (.int nQueryHeads) = .int nKvHeads
  hidden     : config.get? "hidden_size".toList = some (.int hiddenSize)
  dtype      : ∃ value, config.get? "torch_dtype".toList = some value ∧ bytesPerElementFromDtype (v.str value) = .ok bpe

theorem kvHeadsOf_ok {config : HfConfig} {nQueryHeads n : Int} : kvHeadsOf config nQueryHeads = .ok n ↔
    (config.get? "num_key_value_heads".toList).getD (.int nQueryHeads) = .int n := by
  unfold kvHeadsOf OrdDict.contains
  cases hget : config.get? "num_key_value_heads".toList with
  | none =>
    rw [Option.isSome_none, if_neg Bool.false_ne_true, Option.getD_none]
    exact ⟨fun h => congrArg Payload.int (Except.ok.inj h), fun h => congrArg Except.ok (Payload.int.inj h)⟩
  | some value =>
    rw [Option.isSome_some, if_pos rfl, configInt_ok, hget, Option.getD_some]
    exact ⟨Option.some.inj, fun h => congrArg some h⟩

/-- **A config gives a theory exactly when its numbers are positive and divide and its dtype is known**, and then that of
the formula, whatever else is in it. -/
theorem configFromHfConfig_ok_iff {v : ValueText} {config : HfConfig} {revision : Text} {t : HfKvTheory} :
    configFromHfConfig v config revision = .ok t ↔ ∃ nLayers nQueryHeads nKvHeads hiddenSize bpe,
      Architecture v config nLayers nQueryHeads nKvHeads hiddenSize bpe ∧
      (0 < nLayers ∧ 0 < nQueryHeads ∧ 0 < nKvHeads ∧ 0 < hiddenSize ∧ 0 < bpe) ∧ nQueryHeads ∣ hiddenSize ∧
      t = ⟨2 * nLayers * nKvHeads * (hiddenSize / nQueryHeads) * bpe, revision⟩ := by
  unfold configFromHfConfig
  simp only [Act.except_bind_ok_iff, configInt_ok, kvHeadsOf_ok, headDimFromConfig_ok, configItem_ok, kvBytesPerToken_ok]
  constructor
  · rintro ⟨nLayers, hlayers, nQueryHeads, hquery, nKvHeads, hkv, hiddenSize, hhidden, headDim, ⟨hq, hdvd, rfl⟩, dtype,
      hdtype, bpe, hbpe, _, ⟨⟨hl, hk, hd, hb⟩, rfl⟩, ht⟩
    have hpos : 0 < hiddenSize := by
      rw [← Int.mul_ediv_cancel' hdvd]
      exact Int.mul_pos hq hd
    exact ⟨nLayers, nQueryHeads, nKvHeads, hiddenSize, bpe, ⟨hlayers, hquery, hkv, hhidden, dtype, hdtype, hbpe⟩,
      ⟨hl, hq, hk, hpos, hb⟩, hdvd, (Except.ok.inj ht).symm⟩
  · rintro ⟨nLayers, nQueryHeads, nKvHeads, hiddenSize, bpe, ⟨hlayers, hquery, hkv, hhidden, dtype, hdtype, hbpe⟩,
      ⟨hl, hq, hk, hpos, hb⟩, hdvd, rfl⟩
    have hd : 0 < hiddenSize / nQueryHeads := Int.ediv_pos_of_pos_of_dvd hpos hq.le hdvd
    exact ⟨nLayers, hlayers, nQueryHeads, hquery, nKvHeads, hkv, hiddenSize, hhidden, _, ⟨hq, hdvd, rfl⟩, dtype, hdtype,
      bpe, hbpe, _, ⟨⟨hl, hk, hd, hb⟩, rfl⟩, rfl⟩

/-- The keys that are read. -/
def readKeys : List Text :=
  ["num_hidden_layers".toList, "num_attention_heads".toList, "num_key_value_heads".toList, "hidden_size".toList,
    "torch_dtype".toList]

/-- **Nothing else in a config counts**, a head dimension of its own included: configs that agree on five keys give the
same theory or the same error. -/
theorem configFromHfConfig_congr (v : ValueText) {config config' : HfConfig} (revision : Text)
    (h : ∀ key ∈ readKeys, config.get? key = config'.get? key) :
    configFromHfConfig v config revision = configFromHfConfig v config' revision := by
  have hitem : ∀ key ∈ readKeys, configItem config key = configItem config' key := by
    intro key hkey
    rw [configItem, configItem, h key hkey]
  have hint : ∀ key ∈ readKeys, configInt config key = configInt config' key := by
    intro key hkey
    rw [configInt, configInt, hitem key hkey]
  have hkv : ∀ n, kvHeadsOf config n = kvHeadsOf config' n := by
    intro n
    rw [kvHeadsOf, kvHeadsOf, OrdDict.contains, OrdDict.contains, h _ (by decide), hint _ (by decide)]
  unfold configFromHfConfig
  simp only [hkv]
  rw [hint "num_hidden_layers".toList (by decide), hint "num_attention_heads".toList (by decide),
    hint "hidden_size".toList (by decide), hitem "torch_dtype".toList (by decide)]

/-! ## The theory of a sweep -/

theorem Architecture.unique {v : ValueText} {config : HfConfig} {l q k h b l' q' k' h' b' : Int}
    (harch : Architecture v config l q k h b) (harch' : Architecture v config l' q' k' h' b') :
    l = l' ∧ q = q' ∧ k = k' ∧ h = h' ∧ b = b' := by
  have hqueries : q = q' := Payload.int.inj (Option.some.inj (harch.queryHeads.symm.trans harch'.queryHeads))
  subst hqueries
  obtain ⟨value, hvalue, hb⟩ := harch.dtype
  obtain ⟨value', hvalue', hb'⟩ := harch'.dtype
  obtain rfl : value = value' := Option.some.inj (hvalue.symm.trans hvalue')
  exact ⟨Payload.int.inj (Option.some.inj (harch.layers.symm.trans harch'.layers)), rfl,
    Payload.int.inj (harch.kvHeads.symm.trans harch'.kvHeads),
    Payload.int.inj (Option.some.inj (harch.hidden.symm.trans harch'.hidden)), Except.ok.inj (hb.symm.trans hb')⟩

section Published
variable {v : ValueText} {configs : List (Option HfConfig)} {raw : Option HfConfig} {dtype : Option Text}
  {config : HfConfig} {nLayers nQueryHeads nKvHeads hiddenSize bpe : Int}
  (hconfig : (configs.findSome? id).or raw = some config)
  (harch : Architecture v (withDtype dtype config) nLayers nQueryHeads nKvHeads hiddenSize bpe)

include hconfig harch

theorem resolveTheory_ok {revision : Text} {theory : HfKvTheory} :
    resolveTheory v configs raw dtype revision = .ok theory ↔
      ((0 < nLayers ∧ 0 < nQueryHeads ∧ 0 < nKvHeads ∧ 0 < hiddenSize ∧ 0 < bpe) ∧ nQueryHeads ∣ hiddenSize) ∧
        theory = ⟨2 * nLayers * nKvHeads * (hiddenSize / nQueryHeads) * bpe, revision⟩ := by
  unfold resolveTheory
  rw [hconfig]
  simp only [configFromHfConfig_ok_iff]
  constructor
  · rintro ⟨l, q, k, h, b, harch', hpos, hdvd, htheory⟩
    obtain ⟨rfl, rfl, rfl, rfl, rfl⟩ := harch.unique harch'
    exact ⟨⟨hpos, hdvd⟩, htheory⟩
  · rintro ⟨⟨hpos, hdvd⟩, htheory⟩
    exact ⟨nLayers, nQueryHeads, nKvHeads, hiddenSize, bpe, harch, hpos, hdvd, htheory⟩

/-- **A sweep publishes exactly what is near the formula**: its config's numbers are positive and divide, the slope of its
cells is within fifteen percent of two vectors a layer for each KV head, in the dtype of the config or else of the engine,
and the knee is reached. -/
theorem published_iff_near_formula {revision campaignId : Text} {cells : List KvScalingCell} {fixedOverhead : Int}
    (hlen : 2 ≤ cells.length) :
    (∃ theory campaign, resolveTheory v configs raw dtype revision = .ok theory ∧
      finishedCampaign cells campaignId theory fixedOverhead = .ok campaign) ↔
    ((0 < nLayers ∧ 0 < nQueryHeads ∧ 0 < nKvHeads ∧ 0 < hiddenSize ∧ 0 < bpe) ∧ nQueryHeads ∣ hiddenSize) ∧
      SlopeWithin cells (2 * nLayers * nKvHeads * (hiddenSize / nQueryHeads) * bpe) ∧ 0 ≤ fixedOverhead ∧
      ∃ c, ReachedAt fixedOverhead (byTokens cells) c := by
  constructor
  · rintro ⟨theory, campaign, htheory, hfinished⟩
    obtain ⟨hnumbers, rfl⟩ := (resolveTheory_ok hconfig harch).1 htheory
    obtain ⟨hslope, hF, ⟨c, hreached, -⟩, -⟩ := finishedCampaign_ok hlen hfinished
    exact ⟨hnumbers, hslope, hF, c, hreached⟩
  · rintro ⟨hnumbers, hslope, hF, c, hreached⟩
    have hwithin : SlopeWithin cells
        (HfKvTheory.mk (2 * nLayers * nKvHeads * (hiddenSize / nQueryHeads) * bpe) revision).bytesPerToken := hslope
    obtain ⟨campaign, hcampaign⟩ := finishedCampaign_of campaignId hlen hwithin hF hreached
    exact ⟨_, campaign, (resolveTheory_ok hconfig harch).2 ⟨hnumbers, rfl⟩, hcampaign⟩

end Published

/-- A config of one layer and one head of 25 elements that names no dtype. -/
def plainConfig : HfConfig :=
  .ofList [("num_hidden_layers".toList, .int 1), ("num_attention_heads".toList, .int 1), ("hidden_size".toList, .int 25),
    ("head_dim".toList, .int 128)]

theorem plainConfig_architecture : Architecture .whole (withDtype (some "torch.float16".toList) plainConfig) 1 1 1 25 2 :=
  ⟨rfl, rfl, rfl, rfl, .str "torch.float16".toList, rfl, rfl⟩

theorem scatteredCells_near_formula : ∃ theory campaign,
    resolveTheory .whole [none, some plainConfig] none (some "torch.float16".toList) [] = .ok theory ∧
      finishedCampaign scatteredCells "c".toList theory 50 = .ok campaign := by
  refine (published_iff_near_formula rfl plainConfig_architecture (by decide)).2 ⟨⟨by decide, Int.one_dvd 25⟩, ?_⟩
  have hcells := scatteredCells_scattered
  exact ⟨hcells.slope, hcells.overhead, hcells.knee⟩

end GoodputLab
