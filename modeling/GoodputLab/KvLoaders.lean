import GoodputLab.KvFigures
/-!
# KvLoaders — the two loaders agree but for a zero median

The table and the document of a campaign give the same cells, slope, intercept, R² and knee exactly when no cell has a
median of zero, which the loader of the document takes for a missing one, and no text is longer than the table's reader
allows (`loaders_agree_iff`).
-/
namespace GoodputLab

/-! ## The median -/

/-- **The entries of an ascending list that are zero are the first ones, none being negative.** -/
theorem getD_eq_zero_iff : ∀ (l : List ℚ), l.Pairwise (· ≤ ·) → (∀ x ∈ l, 0 ≤ x) → ∀ i < l.length,
    (l.getD i 0 = 0 ↔ i < l.count 0)
  | [], _, _, i, hi => absurd hi (Nat.not_lt_zero i)
  | a :: l, hsorted, hnonneg, i, hi => by
    rw [List.pairwise_cons] at hsorted
    by_cases ha : a = 0
    · subst ha
      rw [List.count_cons_self]
      cases i with
      | zero => simp
      | succ i =>
        rw [List.getD_cons_succ, getD_eq_zero_iff l hsorted.2 (fun x hx => hnonneg x (List.mem_cons_of_mem _ hx)) i
          (by simpa using hi)]
        omega
    · have hpos : ∀ x ∈ a :: l, 0 < x := by
        have hapos : 0 < a := lt_of_le_of_ne (hnonneg a List.mem_cons_self) (Ne.symm ha)
        intro x hx
        rcases List.mem_cons.1 hx with rfl | hx
        · exact hapos
        · exact hapos.trans_le (hsorted.1 x hx)
      have hcount : (a :: l).count 0 = 0 := List.count_eq_zero.2 (fun hmem => lt_irrefl 0 (hpos 0 hmem))
      have hget : (a :: l).getD i 0 ∈ a :: l := by
        rw [List.getD_eq_getElem _ _ hi]
        exact List.getElem_mem hi
      rw [hcount]
      exact ⟨fun hzero => absurd hzero (hpos _ hget).ne', fun h => absurd h (Nat.not_lt_zero i)⟩

theorem getD_mono {l : List ℚ} (hsorted : l.Pairwise (· ≤ ·)) {i j : Nat} (hij : i ≤ j) (hj : j < l.length) :
    l.getD i 0 ≤ l.getD j 0 := by
  rw [List.getD_eq_getElem _ _ (hij.trans_lt hj), List.getD_eq_getElem _ _ hj]
  exact hsorted.rel_get_of_le (a := ⟨i, hij.trans_lt hj⟩) (b := ⟨j, hj⟩) hij

/-- The median is the middle entry, or the mean of the two. -/
theorem kvPercentile_half {l : List ℚ} (hl : l ≠ []) : kvPercentile l (1 / 2) =
    if l.length % 2 = 1 then l.getD (l.length / 2) 0
    else (l.getD (l.length / 2 - 1) 0 + l.getD (l.length / 2) 0) / 2 := by
  have hlen := List.length_pos_iff.2 hl
  have hrank : ∀ k : Nat, ∀ r : ℚ, (k : ℚ) ≤ r → r < k + 1 → r.floor.toNat = k := by
    intro k r hle hlt
    have hfloor : ⌊r⌋ = (k : Int) := Int.floor_eq_iff.2 ⟨by exact_mod_cast hle, by exact_mod_cast hlt⟩
    rw [show r.floor = ⌊r⌋ from rfl, hfloor, Int.toNat_natCast]
  unfold kvPercentile
  by_cases hone : l.length = 1
  · simp [hone]
  · rw [if_neg hone]
    rcases Nat.mod_two_eq_zero_or_one l.length with heven | hodd
    · obtain ⟨k, hk⟩ : ∃ k, l.length = 2 * (k + 1) := ⟨l.length / 2 - 1, by omega⟩
      have hr : (1 / 2 : ℚ) * ((l.length : ℚ) - 1) = k + 1 / 2 := by
        rw [hk]
        push_cast
        ring
      have hfloor := hrank k (k + 1 / 2) (by linarith) (by linarith)
      rw [if_neg (by omega)]
      simp only [hr, hfloor]
      rw [Nat.min_eq_left (by omega), show l.length / 2 = k + 1 by omega, Nat.add_sub_cancel]
      ring
    · obtain ⟨k, hk⟩ : ∃ k, l.length = 2 * k + 1 := ⟨l.length / 2, by omega⟩
      have hr : (1 / 2 : ℚ) * ((l.length : ℚ) - 1) = k := by
        rw [hk]
        push_cast
        ring
      rw [if_pos hodd]
      simp only [hr, hrank k k le_rfl (by linarith)]
      rw [show l.length / 2 = k by omega, sub_self, zero_mul, add_zero]

theorem kvPercentile_half_eq_zero {l : List ℚ} (hl : l ≠ []) (hsorted : l.Pairwise (· ≤ ·))
    (hnonneg : ∀ x ∈ l, 0 ≤ x) : kvPercentile l (1 / 2) = 0 ↔ l.length < 2 * l.count 0 := by
  have hlen := List.length_pos_iff.2 hl
  have hhalf := getD_eq_zero_iff l hsorted hnonneg (l.length / 2) (by omega)
  have hmono := getD_mono hsorted (i := l.length / 2 - 1) (j := l.length / 2) (Nat.sub_le _ 1) (by omega)
  have hlow : 0 ≤ l.getD (l.length / 2 - 1) 0 := by
    rw [List.getD_eq_getElem _ _ (by omega)]
    exact hnonneg _ (List.getElem_mem _)
  have hzero : kvPercentile l (1 / 2) = 0 ↔ l.getD (l.length / 2) 0 = 0 := by
    rw [kvPercentile_half hl]
    split
    · rfl
    · constructor <;> intro h <;> linarith
  rw [hzero, hhalf]
  omega

/-- The samples in ascending order. -/
def KvScalingCell.sortedSamples (c : KvScalingCell) : List ℚ :=
  (c.kvBytesUsedSamples.map (fun s : Int => (s : ℚ))).mergeSort (fun x y => decide (x ≤ y))

theorem KvScalingCell.sortedSamples_perm (c : KvScalingCell) :
    c.sortedSamples.Perm (c.kvBytesUsedSamples.map (fun s : Int => (s : ℚ))) :=
  List.mergeSort_perm _ _

theorem KvScalingCell.sortedSamples_ne_nil (c : KvScalingCell) : c.sortedSamples ≠ [] := by
  intro hnil
  have hlen := c.bounds.2.2.2.1
  have h := c.sortedSamples_perm.length_eq
  rw [hnil, List.length_map, List.length_nil] at h
  omega

theorem KvScalingCell.sortedSamples_nonneg {c : KvScalingCell} (hnonneg : ∀ s ∈ c.kvBytesUsedSamples, 0 ≤ s) :
    ∀ x ∈ c.sortedSamples, 0 ≤ x := by
  intro x hx
  obtain ⟨s, hs, rfl⟩ := List.mem_map.1 (c.sortedSamples_perm.mem_iff.1 hx)
  exact_mod_cast hnonneg s hs

/-- **The median of samples none of which is negative is zero when most of them are.** -/
theorem KvScalingCell.p50Bytes_eq_zero {c : KvScalingCell} (hnonneg : ∀ s ∈ c.kvBytesUsedSamples, 0 ≤ s) :
    c.p50Bytes = 0 ↔ c.kvBytesUsedSamples.length < 2 * c.kvBytesUsedSamples.count 0 := by
  have hsorted := List.pairwise_mergeSort' (· ≤ ·) (c.kvBytesUsedSamples.map (fun s : Int => (s : ℚ)))
  have hcount : (c.kvBytesUsedSamples.map (fun s : Int => (s : ℚ))).count 0 = c.kvBytesUsedSamples.count 0 := by
    rw [← Int.cast_zero, List.count_map_of_injective _ _ Int.cast_injective]
  have hzero := kvPercentile_half_eq_zero c.sortedSamples_ne_nil hsorted (c.sortedSamples_nonneg hnonneg)
  rwa [c.sortedSamples_perm.length_eq, c.sortedSamples_perm.count_eq, hcount, List.length_map] at hzero

/-! ## The rows -/

theorem lookup_of_graph {β : Type} {g : Text → β} {k : Text} : ∀ {l : List (Text × β)}, (∀ p ∈ l, p.2 = g p.1) →
    k ∈ l.map Prod.fst → l.lookup k = some (g k)
  | [], _, hk => absurd hk List.not_mem_nil
  | (j, x) :: l, hgraph, hk => by
    rw [List.lookup_cons]
    by_cases hkj : k = j
    · subst hkj
      rw [beq_self_eq_true]
      exact congrArg some (hgraph (k, x) List.mem_cons_self)
    · rw [beq_false_of_ne hkj]
      have hk' : k ∈ l.map Prod.fst := (List.mem_cons.1 hk).resolve_left hkj
      exact lookup_of_graph (fun p hp => hgraph p (List.mem_cons_of_mem _ hp)) hk'

theorem zipColumns_map (g : Text → Text) : ∀ names : List Text,
    zipColumns names (names.map g) = names.map (fun k => (k, .str (g k)))
  | []         => rfl
  | k :: names => by rw [List.map_cons, zipColumns, zipColumns_map g names, List.map_cons]

namespace ValueText

variable (v : ValueText)

/-- A value that counts as true is written as it is. -/
theorem str_or_of_truthy {x : Payload} (hx : x.truthy = true) : v.str (x.or (.str [])) = v.str x := by
  rw [Payload.or, if_pos hx]

theorem str_float_or {q : ℚ} (hq : q ≠ 0) : v.str ((Payload.float q).or (.str [])) = v.floatRepr q :=
  v.str_or_of_truthy (decide_eq_true hq)

theorem str_int_or {n : Int} (hn : n ≠ 0) : v.str ((Payload.int n).or (.str [])) = Text.ofInt n :=
  v.str_or_of_truthy (decide_eq_true hn)

theorem str_or_empty (t : Text) : v.str ((Payload.str t).or (.str [])) = t := by
  by_cases ht : t = []
  · subst ht
    rfl
  · exact v.str_or_of_truthy (decide_eq_true ht)

/-- **A column of a table is read as the text written in it, and a column it lacks as nothing.** -/
theorem get_zipColumns (names : List Text) (g : Text → Text) (k : Text) :
    v.get (zipColumns names (names.map g)).reverse k = if k ∈ names then g k else [] := by
  unfold get
  rw [zipColumns_map]
  by_cases hk : k ∈ names
  · have hlookup : (names.map (fun k => (k, Payload.str (g k)))).reverse.lookup k = some (Payload.str (g k)) := by
      refine lookup_of_graph (g := fun k => Payload.str (g k)) (fun p hp => ?_) ?_
      · obtain ⟨j, -, rfl⟩ := List.mem_map.1 (List.mem_reverse.1 hp)
        rfl
      · rw [List.map_reverse, List.mem_reverse, List.map_map]
        exact List.mem_map.2 ⟨k, hk, rfl⟩
    rw [hlookup, Option.getD_some, str_or_empty, if_pos hk]
  · have hlookup : (names.map (fun k => (k, Payload.str (g k)))).reverse.lookup k = none := by
      rw [List.lookup_eq_none_iff]
      intro p hp
      obtain ⟨j, hj, rfl⟩ := List.mem_map.1 (List.mem_reverse.1 hp)
      exact bne_iff_ne.2 (fun h : k = j => hk (h ▸ hj))
    rw [hlookup, Option.getD_none, str_or_empty, if_neg hk]

end ValueText

/-! ## One cell -/

namespace ValueText

variable (v : ValueText)

@[simp] theorem firstOf_nil (t : Text) : firstOf [] t = t := rfl

@[simp] theorem firstOf_self (t : Text) : firstOf t t = t := ite_self t

theorem f_nil (default : ℚ) : v.f [] default = default := rfl

theorem f_default (t : Text) : v.f t (v.f t 0) = v.f t 0 := by
  unfold f
  split
  · cases v.parseFloat t with
    | none   => rfl
    | some q => rfl
  · rfl

theorem strip_floatRepr_zero : (v.floatRepr 0).strip ≠ [] := by
  intro hblank
  have hparse := v.parseBlank _ hblank
  rw [v.parseFloatZero] at hparse
  cases hparse

theorem f_floatRepr_zero : v.f (v.floatRepr 0) 0 = 0 := by
  rw [f, if_pos v.strip_floatRepr_zero, v.parseFloatZero]
  rfl

theorem f_zero : v.f (Text.ofInt 0) 0 = 0 := by
  rw [f, show Text.ofInt 0 = Text.ofNat 0 from rfl, v.parseNat 0 (by norm_num)]
  exact ite_self 0

/-- A number that counts as false is read as the default, which is what it is. -/
theorem f_float_or_empty (q : ℚ) : v.f (v.str ((Payload.float q).or (.str []))) 0 = v.f (v.floatRepr q) 0 := by
  by_cases hq : q = 0
  · subst hq
    rw [v.f_floatRepr_zero]
    rfl
  · rw [v.str_float_or hq]

theorem f_int_or_empty (n : Int) : v.f (v.str ((Payload.int n).or (.str []))) 0 = v.f (Text.ofInt n) 0 := by
  by_cases hn : n = 0
  · subst hn
    rw [v.f_zero]
    rfl
  · rw [v.str_int_or hn]

/-- The measured bytes per token read from a text. -/
def measuredOf (raw : Text) : Option ℚ := if raw.strip ≠ [] then some (v.f raw 0) else none

/-- **A document gives no measured value exactly when it is zero.** -/
theorem measuredOf_float (q : ℚ) :
    v.measuredOf (v.floatRepr q) = v.measuredOf (v.str ((Payload.float q).or (.str []))) ↔ q ≠ 0 := by
  by_cases hq : q = 0
  · subst hq
    have htable : v.measuredOf (v.floatRepr 0) = some (v.f (v.floatRepr 0) 0) := if_pos v.strip_floatRepr_zero
    have hdocument : v.measuredOf (v.str ((Payload.float 0).or (.str []))) = none := rfl
    rw [htable, hdocument]
    simp
  · rw [v.str_float_or hq]
    simp [hq]

end ValueText

namespace KvScalingCampaign

variable (v : ValueText) (campaign : KvScalingCampaign)

/-- The cell as both loaders read it but for its measured bytes per token. -/
def loaded (cell : KvScalingCell) (measured : Option ℚ) : KVCell where
  modelId := cell.modelId
  modelRevision := campaign.modelRevision
  gpu := cell.gpu
  vllmVersion := cell.vllmVersion
  seqLen := v.i (Text.ofInt cell.seqLen) 0
  batchSize := v.i (Text.ofInt cell.batchSize) 0
  nSamples := v.i (Text.ofInt cell.nSamples) 0
  p50AllocBytes := v.f (v.floatRepr cell.p50Bytes) 0
  p95AllocBytes := v.f (v.floatRepr cell.p95Bytes) 0
  baselineBytes := v.f (Text.ofInt cell.baselineBytes) 0
  totalTokens := v.i (Text.ofInt cell.totalTokens) 0
  theoryBytesPerToken := v.f (Text.ofInt campaign.theoryBytesPerToken) 0
  measuredBytesPerToken := measured
  method := cell.method

/-- **The document's loader reads a cell with its measured value, but for a zero.** -/
theorem cellFromRow_dump (cell : KvScalingCell) :
    v.cellFromRow cell.dump (v.f (Text.ofInt campaign.theoryBytesPerToken) 0) campaign.modelRevision =
      campaign.loaded v cell (v.measuredOf (v.str ((Payload.float cell.measuredBytesPerToken).or (.str [])))) := by
  obtain ⟨hseq, hbatch, hn, -, htotal, -⟩ := cell.bounds
  have hmodel : v.get cell.dump "model_id".toList = cell.modelId := v.str_or_empty _
  have hgpu : v.get cell.dump "gpu".toList = cell.gpu := v.str_or_empty _
  have hvllm : v.get cell.dump "vllm_version".toList = cell.vllmVersion := v.str_or_empty _
  have hmethod : v.get cell.dump "method".toList = cell.method := v.str_or_empty _
  have hseqs : v.get cell.dump "seq_len".toList = Text.ofInt cell.seqLen := v.str_int_or hseq.ne'
  have hsize : v.get cell.dump "batch_size".toList = Text.ofInt cell.batchSize := v.str_int_or hbatch.ne'
  have hsamples : v.get cell.dump "n_samples".toList = Text.ofInt cell.nSamples := v.str_int_or hn.ne'
  have htokens : v.get cell.dump "total_tokens".toList = Text.ofInt cell.totalTokens := v.str_int_or htotal.ne'
  have hp50 : v.f (v.get cell.dump "p50_bytes".toList) 0 = v.f (v.floatRepr cell.p50Bytes) 0 := v.f_float_or_empty _
  have hp95 : v.f (v.get cell.dump "p95_bytes".toList) 0 = v.f (v.floatRepr cell.p95Bytes) 0 := v.f_float_or_empty _
  have hbase : v.f (v.get cell.dump "baseline_bytes".toList) 0 = v.f (Text.ofInt cell.baselineBytes) 0 :=
    v.f_int_or_empty _
  have habsent : v.get cell.dump "p50_alloc_bytes".toList = [] ∧ v.get cell.dump "p95_alloc_bytes".toList = [] ∧
      v.get cell.dump "theory_bytes_per_token".toList = [] ∧ v.get cell.dump "model_revision".toList = [] :=
    ⟨rfl, rfl, rfl, rfl⟩
  unfold ValueText.cellFromRow loaded
  simp only [hmodel, hgpu, hvllm, hmethod, hseqs, hsize, hsamples, htokens, habsent, ValueText.firstOf_nil, hp50, hp95,
    hbase, ValueText.f_nil]
  rfl

/-! ## The table's cells -/

/-- The text of a row's column, empty for one it has no value of. -/
def columnText (row : List (Text × Payload)) (k : Text) : Text := ((row.lookup k).map v.csvText).getD []

/-- The row of a cell as the dictionary reader gives it. -/
def readRow (campaignId : Text) (cell : KvScalingCell) : List (Text × Payload) :=
  (zipColumns campaign.fieldnames (dictWriterRow v campaign.fieldnames (campaign.cellRow campaignId cell))).reverse

theorem get_readRow (campaignId : Text) (cell : KvScalingCell) {k : Text} (hk : k ∈ cellColumns) :
    v.get (campaign.readRow v campaignId cell) k = columnText v (campaign.cellRow campaignId cell) k :=
  (v.get_zipColumns _ _ k).trans (if_pos (List.mem_append_left _ hk))

theorem get_readRow_absent (campaignId : Text) (cell : KvScalingCell) {k : Text} (hk : k ∉ cellColumns)
    (hhead : k.head? ≠ some 's') : v.get (campaign.readRow v campaignId cell) k = [] := by
  refine (v.get_zipColumns _ _ k).trans (if_neg (fun hmem => ?_))
  rcases List.mem_append.1 hmem with hcolumn | hsample
  · exact hk hcolumn
  · obtain ⟨i, -, rfl⟩ := List.mem_map.1 hsample
    exact hhead rfl

/-- **The table's loader reads a cell with its measured value.** -/
theorem cellFromRow_readRow (campaignId : Text) (cell : KvScalingCell) :
    v.cellFromRow (campaign.readRow v campaignId cell) (v.f (Text.ofInt campaign.theoryBytesPerToken) 0)
      campaign.modelRevision = campaign.loaded v cell (v.measuredOf (v.floatRepr cell.measuredBytesPerToken)) := by
  have hget := fun k hk => campaign.get_readRow v campaignId cell (k := k) hk
  have hmodel : v.get (campaign.readRow v campaignId cell) "model_id".toList = cell.modelId := hget _ (by decide)
  have hgpu : v.get (campaign.readRow v campaignId cell) "gpu".toList = cell.gpu := hget _ (by decide)
  have hvllm : v.get (campaign.readRow v campaignId cell) "vllm_version".toList = cell.vllmVersion := hget _ (by decide)
  have hmethod : v.get (campaign.readRow v campaignId cell) "method".toList = cell.method := hget _ (by decide)
  have hrevision : v.get (campaign.readRow v campaignId cell) "model_revision".toList = campaign.modelRevision :=
    hget _ (by decide)
  have hseqs : v.get (campaign.readRow v campaignId cell) "seq_len".toList = Text.ofInt cell.seqLen :=
    hget _ (by decide)
  have hsize : v.get (campaign.readRow v campaignId cell) "batch_size".toList = Text.ofInt cell.batchSize :=
    hget _ (by decide)
  have hsamples : v.get (campaign.readRow v campaignId cell) "n_samples".toList = Text.ofInt cell.nSamples :=
    hget _ (by decide)
  have htokens : v.get (campaign.readRow v campaignId cell) "total_tokens".toList = Text.ofInt cell.totalTokens :=
    hget _ (by decide)
  have hbase : v.get (campaign.readRow v campaignId cell) "baseline_bytes".toList = Text.ofInt cell.baselineBytes :=
    hget _ (by decide)
  have htheory : v.get (campaign.readRow v campaignId cell) "theory_bytes_per_token".toList =
      Text.ofInt campaign.theoryBytesPerToken := hget _ (by decide)
  have hmeasured : v.get (campaign.readRow v campaignId cell) "measured_bytes_per_token".toList =
      v.floatRepr cell.measuredBytesPerToken := hget _ (by decide)
  have hp50 : v.get (campaign.readRow v campaignId cell) "p50_bytes".toList = v.floatRepr cell.p50Bytes :=
    hget _ (by decide)
  have hp95 : v.get (campaign.readRow v campaignId cell) "p95_bytes".toList = v.floatRepr cell.p95Bytes :=
    hget _ (by decide)
  have habsent : v.get (campaign.readRow v campaignId cell) "p50_alloc_bytes".toList = [] ∧
      v.get (campaign.readRow v campaignId cell) "p95_alloc_bytes".toList = [] :=
    ⟨campaign.get_readRow_absent v campaignId cell (by decide) (by decide),
      campaign.get_readRow_absent v campaignId cell (by decide) (by decide)⟩
  unfold ValueText.cellFromRow loaded
  simp only [hmodel, hgpu, hvllm, hmethod, hrevision, hseqs, hsize, hsamples, htokens, hbase, htheory, hmeasured, hp50,
    hp95, habsent, ValueText.firstOf_nil, ValueText.firstOf_self, ValueText.f_default]
  rfl

/-! ## The texts of a table -/

/-- The texts a table holds as they are. -/
def texts (campaignId : Text) : List Text :=
  campaign.cid campaignId :: campaign.modelRevision ::
    campaign.cells.flatMap (fun c => [c.modelId, c.gpu, c.vllmVersion, c.method])

/-- No text is longer than a field may be. -/
def TextsFit (campaignId : Text) : Prop := ∀ t ∈ campaign.texts campaignId, t.length ≤ fieldSizeLimit

instance (campaignId : Text) : Decidable (campaign.TextsFit campaignId) :=
  inferInstanceAs (Decidable (∀ t ∈ campaign.texts campaignId, t.length ≤ fieldSizeLimit))

/-- The integers of the cells are below a bound. -/
structure IntsBelow (bound : Int) : Prop where
  theory : campaign.theoryBytesPerToken < bound
  cells  : ∀ c ∈ campaign.cells, c.seqLen < bound ∧ c.batchSize < bound ∧ c.nSamples < bound ∧ c.totalTokens < bound ∧
    c.baselineBytes < bound

theorem ofNat_fits {n : Nat} (hn : n < 2 ^ 53) : (Text.ofNat n).length ≤ 16 :=
  Nat.toDigits_length 10 n 16 (by norm_num) (hn.trans (by norm_num))

theorem ofInt_fits {n : Int} (hpos : 0 ≤ n) (hn : n < 2 ^ 53) : (Text.ofInt n).length ≤ 16 := by
  obtain ⟨m, rfl⟩ := Int.eq_ofNat_of_zero_le hpos
  rw [Text.ofInt_natCast]
  exact ofNat_fits (by exact_mod_cast hn)

/-- A row's fields are at most as long as its values' texts. -/
theorem dictWriterRow_fits {limit : Nat} {names : List Text} {row : List (Text × Payload)}
    (hrow : ∀ p ∈ row, (v.csvText p.2).length ≤ limit) : ∀ f ∈ dictWriterRow v names row, f.length ≤ limit := by
  intro f hf
  obtain ⟨k, -, rfl⟩ := List.mem_map.1 hf
  cases hlookup : row.lookup k with
  | none => exact Nat.zero_le limit
  | some x =>
    obtain ⟨l₁, l₂, hsplit, -⟩ := List.lookup_eq_some_iff.1 hlookup
    exact hrow (k, x) (hsplit ▸ List.mem_append_right _ List.mem_cons_self)

theorem fieldnames_fit (h : campaign.IntsBelow (2 ^ 53)) : ∀ f ∈ campaign.fieldnames, f.length ≤ fieldSizeLimit := by
  intro f hf
  rcases List.mem_append.1 hf with hcolumn | hsample
  · have hcolumns : ∀ k ∈ cellColumns, k.length ≤ fieldSizeLimit := by decide
    exact hcolumns f hcolumn
  · obtain ⟨i, hi, rfl⟩ := List.mem_map.1 hsample
    have hmax : campaign.maxSamples < 2 ^ 53 := by
      unfold maxSamples
      cases hm : (campaign.cells.map (fun c => c.kvBytesUsedSamples.length)).max? with
      | none => exact Nat.two_pow_pos 53
      | some m =>
        obtain ⟨c, hc, rfl⟩ := List.mem_map.1 (List.max?_mem hm)
        have hlen := c.length_samples
        have hbound := (h.cells c hc).2.2.1
        rw [Option.getD_some]
        omega
    have hdigits := ofNat_fits ((List.mem_range.1 hi).trans hmax)
    have hname : (sampleName i).length = 7 + (Text.ofNat i).length := List.length_append
    unfold fieldSizeLimit
    omega

/-- **Every field of the table is short enough exactly when the texts are.** -/
theorem csvRows_fit (campaignId : Text) (h : campaign.IntsBelow (2 ^ 53))
    (hsamples : ∀ c ∈ campaign.cells, ∀ s ∈ c.kvBytesUsedSamples, 0 ≤ s ∧ s < 2 ^ 53) :
    (∀ row ∈ campaign.csvRows v campaignId, ∀ f ∈ row, f.length ≤ fieldSizeLimit) ↔ campaign.TextsFit campaignId := by
  unfold csvRows TextsFit texts
  rw [List.forall_mem_cons, List.forall_mem_map]
  constructor
  · rintro ⟨-, hrows⟩
    have hcolumn : ∀ c ∈ campaign.cells, ∀ k ∈ cellColumns,
        (columnText v (campaign.cellRow campaignId c) k).length ≤ fieldSizeLimit := fun c hc k hk =>
      hrows c hc _ (List.mem_map.2 ⟨k, List.mem_append_left _ hk, rfl⟩)
    obtain ⟨c, hc⟩ := List.exists_mem_of_length_pos campaign.cellsNonempty
    have hcid : (campaign.cid campaignId).length ≤ fieldSizeLimit := hcolumn c hc "campaign_id".toList (by decide)
    have hrevision : campaign.modelRevision.length ≤ fieldSizeLimit := hcolumn c hc "model_revision".toList (by decide)
    have hcells : ∀ c ∈ campaign.cells, ∀ t ∈ [c.modelId, c.gpu, c.vllmVersion, c.method],
        t.length ≤ fieldSizeLimit := by
      intro c hc
      have hmodel : c.modelId.length ≤ fieldSizeLimit := hcolumn c hc "model_id".toList (by decide)
      have hgpu : c.gpu.length ≤ fieldSizeLimit := hcolumn c hc "gpu".toList (by decide)
      have hvllm : c.vllmVersion.length ≤ fieldSizeLimit := hcolumn c hc "vllm_version".toList (by decide)
      have hmethod : c.method.length ≤ fieldSizeLimit := hcolumn c hc "method".toList (by decide)
      simp [hmodel, hgpu, hvllm, hmethod]
    intro t ht
    simp only [List.mem_cons (a := t), List.mem_flatMap] at ht
    rcases ht with rfl | rfl | ⟨c, hc, ht⟩
    · exact hcid
    · exact hrevision
    · exact hcells c hc t (by simpa using ht)
  · intro htexts
    refine ⟨campaign.fieldnames_fit h, fun c hc => dictWriterRow_fits v ?_⟩
    have hcell : ∀ t ∈ [c.modelId, c.gpu, c.vllmVersion, c.method], t.length ≤ fieldSizeLimit := fun t ht =>
      htexts t (List.mem_cons_of_mem _ (List.mem_cons_of_mem _ (List.mem_flatMap.2 ⟨c, hc, ht⟩)))
    have hint : ∀ n : Int, 0 ≤ n → n < 2 ^ 53 → (v.csvText (.int n)).length ≤ fieldSizeLimit := fun n hn hlt =>
      (ofInt_fits hn hlt).trans (by decide)
    have hfloat : ∀ q : ℚ, (v.csvText (.float q)).length ≤ fieldSizeLimit := fun q =>
      (v.reprLength q).trans (by decide)
    obtain ⟨hseq, hbatch, hn, -, htotal, hbase⟩ := c.bounds
    obtain ⟨hseq', hbatch', hn', htotal', hbase'⟩ := h.cells c hc
    have htext : ∀ t : Text, t ∈ campaign.texts campaignId → (v.csvText (.str t)).length ≤ fieldSizeLimit := htexts
    unfold cellRow cellValues
    rw [List.forall_mem_append]
    constructor
    · simp only [List.forall_mem_cons]
      refine ⟨(by decide : schemaVersion.length ≤ fieldSizeLimit), htext _ ?_, htext _ ?_, hcell c.modelId ?_,
        hcell c.gpu ?_, hcell c.vllmVersion ?_, hint _ hseq.le hseq', hint _ hbatch.le hbatch', hint _ hn.le hn',
        hint _ htotal.le htotal', hint _ hbase hbase',
        hint _ campaign.theoryPos.le h.theory, hfloat _, hfloat _, hfloat _, hcell c.method ?_,
        fun p hp => absurd hp List.not_mem_nil⟩
      all_goals simp [texts]
    · intro p hp
      obtain ⟨⟨s, i⟩, hs, rfl⟩ := List.mem_map.1 hp
      obtain ⟨hnonneg, hlt⟩ := hsamples c hc s (List.fst_mem_of_mem_zipIdx hs)
      exact hint s hnonneg hlt

/-! ## The loaders -/

def kneeKey : Text :=
  match campaign.knee.batchSize with
  | some b => Text.ofInt b
  | none   => "pooled".toList

/-- The summary as both loaders read it but for its date and its notes. -/
def loadedSummary (measuredDate notes : Text) : KVSummary where
  campaignId := campaign.campaignId
  measuredDate := measuredDate
  slopeBytesPerToken := some campaign.regression.slopeBpt
  interceptBytes := some campaign.regression.interceptBytes
  r2 := some campaign.regression.r2
  kneeTotalTokensByBatch := OrdDict.empty.set campaign.kneeKey campaign.knee.totalTokens
  notes := notes

theorem summaryFromLegacy_written (measuredDate : Text) :
    v.summaryFromLegacy (campaign.summaryJson measuredDate) =
      .ok (campaign.loadedSummary measuredDate summaryNotes) := by
  unfold loadedSummary kneeKey summaryJson
  cases campaign.knee.batchSize with
  | none => rfl
  | some b => rfl

theorem kneeOfDocument_written : kneeOfDocument v campaign.knee.dump =
    .ok (OrdDict.empty.set campaign.kneeKey campaign.knee.totalTokens) := by
  unfold kneeKey KneePoint.dump
  cases campaign.knee.batchSize with
  | none => rfl
  | some b => rfl

/-- The rows of the table come back as the dictionary reader's. -/
theorem dictReaderRows_csvRows (campaignId : Text) :
    dictReaderRows (campaign.csvRows v campaignId) = campaign.cells.map (campaign.readRow v campaignId) := by
  have hall : ∀ r ∈ campaign.cells.map
      (fun c => dictWriterRow v campaign.fieldnames (campaign.cellRow campaignId c)), decide (r ≠ []) = true := by
    intro r hr
    obtain ⟨c, -, rfl⟩ := List.mem_map.1 hr
    exact decide_eq_true (fun hnil => List.cons_ne_nil _ _ (List.map_eq_nil_iff.1 hnil))
  unfold csvRows readRow
  rw [dictReaderRows, List.filter_eq_self.2 hall, List.map_map, Function.comp_def]

/-- The cells of the table and those of the document. -/
def tableCells : List KVCell :=
  campaign.cells.map (fun c => campaign.loaded v c (v.measuredOf (v.floatRepr c.measuredBytesPerToken)))

def documentCells : List KVCell :=
  campaign.cells.map (fun c => campaign.loaded v c
    (v.measuredOf (v.str ((Payload.float c.measuredBytesPerToken).or (.str [])))))

/-- **The table's loader raises when a text does not fit.** -/
theorem loadCampaign_written (campaignId measuredDate : Text) (h : campaign.IntsBelow (2 ^ 53))
    (hsamples : ∀ c ∈ campaign.cells, ∀ s ∈ c.kvBytesUsedSamples, 0 ≤ s ∧ s < 2 ^ 53) :
    loadCampaign v (campaign.cellsCsv v campaignId) (campaign.summaryJson measuredDate) =
      if campaign.TextsFit campaignId then
        .ok ⟨campaign.tableCells v, campaign.loadedSummary measuredDate summaryNotes⟩
      else .error (.csv .fieldLimit) := by
  have htheory : v.strOrEmpty (campaign.summaryJson measuredDate) "theory_bytes_per_token".toList =
      .ok (Text.ofInt campaign.theoryBytesPerToken) := congrArg Except.ok (v.str_int_or campaign.theoryPos.ne')
  have hrevision : v.strOrEmpty (campaign.summaryJson measuredDate) "model_revision".toList =
      .ok campaign.modelRevision := congrArg Except.ok (v.str_or_empty _)
  unfold loadCampaign
  rw [summaryFromLegacy_written, htheory, hrevision, cellsCsv, Csv.read_write]
  simp only [campaign.csvRows_fit v campaignId h hsamples]
  by_cases hfit : campaign.TextsFit campaignId
  · rw [if_pos hfit, if_pos hfit]
    have hcells : (dictReaderRows (campaign.csvRows v campaignId)).map (fun row => v.cellFromRow row
        (v.f (Text.ofInt campaign.theoryBytesPerToken) 0) campaign.modelRevision) = campaign.tableCells v := by
      rw [dictReaderRows_csvRows, List.map_map]
      exact List.map_congr_left (fun c _ => campaign.cellFromRow_readRow v campaignId c)
    exact congrArg (fun cells => Except.ok (KVCampaign.mk cells _)) hcells
  · rw [if_neg hfit, if_neg hfit]
    rfl

theorem mapM_row_dict : ∀ rows : List (List (Text × Payload)), (rows.map Payload.dict).mapM Payload.row = .ok rows
  | []          => rfl
  | row :: rows => by
    rw [List.map_cons, List.mapM_cons, mapM_row_dict rows]
    rfl

/-- **The document's loader raises on none.** -/
theorem loadCampaignFromJson_written : loadCampaignFromJson v campaign.cellsJson =
    .ok (⟨campaign.documentCells v, campaign.loadedSummary [] []⟩, none) := by
  have htheory : v.strOrEmpty campaign.dump "theory_bytes_per_token".toList =
      .ok (Text.ofInt campaign.theoryBytesPerToken) := congrArg Except.ok (v.str_int_or campaign.theoryPos.ne')
  have hrevision : v.strOrEmpty campaign.dump "model_revision".toList = .ok campaign.modelRevision :=
    congrArg Except.ok (v.str_or_empty _)
  have hlisted : (Payload.list (campaign.cells.map (fun c => .dict c.dump))).or (.list []) =
      .list (campaign.cells.map (fun c => .dict c.dump)) := by
    refine if_pos ?_
    cases hcells : campaign.cells with
    | nil => exact absurd campaign.cellsNonempty (by rw [hcells]; decide)
    | cons c cells => rfl
  have hrows : (campaign.cells.map (fun c => Payload.dict c.dump)).mapM Payload.row =
      .ok (campaign.cells.map KvScalingCell.dump) := by
    rw [← mapM_row_dict, List.map_map]
    rfl
  have hcells : (campaign.cells.map KvScalingCell.dump).map (fun row => v.cellFromRow row
      (v.f (Text.ofInt campaign.theoryBytesPerToken) 0) campaign.modelRevision) = campaign.documentCells v := by
    rw [List.map_map]
    exact List.map_congr_left (fun c _ => campaign.cellFromRow_dump v c)
  have hcampaign : campaign.cellsJson.get? "campaign".toList = .ok (some campaign.dump) := rfl
  have hregression : campaign.dump.get? "regression".toList = .ok (some campaign.regression.dump) := rfl
  have hknee : campaign.dump.get? "knee".toList = .ok (some campaign.knee.dump) := rfl
  have hlist : campaign.dump.get? "cells".toList =
      .ok (some (.list (campaign.cells.map (fun c => .dict c.dump)))) := rfl
  have hcheck : campaign.dump.get? "theory_check".toList = .ok none := rfl
  have hor : campaign.regression.dump.or (.dict []) = campaign.regression.dump ∧
      campaign.knee.dump.or (.dict []) = campaign.knee.dump := ⟨rfl, rfl⟩
  have hid : v.strOf campaign.dump "campaign_id".toList = .ok campaign.campaignId ∧
      v.strOf campaign.dump "measured_date".toList = .ok [] ∧ v.strOf campaign.dump "notes".toList = .ok [] :=
    ⟨rfl, rfl, rfl⟩
  have hfit : v.optFloat campaign.regression.dump "slope_bpt".toList = .ok (some campaign.regression.slopeBpt) ∧
      v.optFloat campaign.regression.dump "intercept_bytes".toList = .ok (some campaign.regression.interceptBytes) ∧
      v.optFloat campaign.regression.dump "r2".toList = .ok (some campaign.regression.r2) := ⟨rfl, rfl, rfl⟩
  unfold loadCampaignFromJson
  rw [hcampaign, Act.except_ok_bind, Option.getD_some]
  simp only [htheory, hrevision, hregression, hknee, Act.except_ok_bind, Option.getD_some, hor, kneeOfDocument_written,
    hid, hfit, hlist, hlisted, Payload.iter, hrows, hcells, hcheck]
  rfl

end KvScalingCampaign

/-! ## Agreement -/

/-- Both loaders return, with the same cells, slope, intercept, R² and knee map. -/
def LoadersAgree (v : ValueText) (table : Text) (summary document : Payload) : Prop :=
  ∃ a b check, loadCampaign v table summary = .ok a ∧ loadCampaignFromJson v document = .ok (b, check) ∧
    a.cells = b.cells ∧ a.summary.slopeBytesPerToken = b.summary.slopeBytesPerToken ∧
    a.summary.interceptBytes = b.summary.interceptBytes ∧ a.summary.r2 = b.summary.r2 ∧
    a.summary.kneeTotalTokensByBatch = b.summary.kneeTotalTokensByBatch

namespace KvScalingCampaign

variable (v : ValueText) (campaign : KvScalingCampaign)

theorem cells_agree : campaign.tableCells v = campaign.documentCells v ↔ ∀ c ∈ campaign.cells, c.p50Bytes ≠ 0 := by
  unfold tableCells documentCells
  rw [List.map_inj_left]
  refine forall₂_congr (fun c _ => ?_)
  have hmeasured : c.measuredBytesPerToken ≠ 0 ↔ c.p50Bytes ≠ 0 := by
    have htotal : (c.totalTokens : ℚ) ≠ 0 := by exact_mod_cast c.bounds.2.2.2.2.1.ne'
    unfold KvScalingCell.measuredBytesPerToken
    rw [div_ne_zero_iff]
    tauto
  rw [← hmeasured, ← v.measuredOf_float]
  constructor
  · intro h
    exact congrArg KVCell.measuredBytesPerToken h
  · intro h
    rw [h]

theorem loaders_agree (campaignId measuredDate : Text) (h : campaign.IntsBelow (2 ^ 53))
    (hsamples : ∀ c ∈ campaign.cells, ∀ s ∈ c.kvBytesUsedSamples, 0 ≤ s ∧ s < 2 ^ 53) :
    LoadersAgree v (campaign.cellsCsv v campaignId) (campaign.summaryJson measuredDate) campaign.cellsJson ↔
      (∀ c ∈ campaign.cells, c.p50Bytes ≠ 0) ∧ campaign.TextsFit campaignId := by
  unfold LoadersAgree
  rw [campaign.loadCampaign_written v campaignId measuredDate h hsamples, campaign.loadCampaignFromJson_written,
    ← campaign.cells_agree v]
  constructor
  · rintro ⟨a, b, check, ha, hb, hcells, -⟩
    by_cases hfit : campaign.TextsFit campaignId
    · rw [if_pos hfit] at ha
      cases ha
      cases hb
      exact ⟨hcells, hfit⟩
    · rw [if_neg hfit] at ha
      cases ha
  · rintro ⟨hcells, hfit⟩
    rw [if_pos hfit]
    exact ⟨_, _, _, rfl, rfl, hcells, rfl, rfl, rfl, rfl⟩

/-- **The loaders agree exactly when at most half of the samples of each cell are zero and every text fits a field.** -/
theorem loaders_agree_iff (campaignId measuredDate : Text) (h : campaign.IntsBelow (2 ^ 53))
    (hsamples : ∀ c ∈ campaign.cells, ∀ s ∈ c.kvBytesUsedSamples, 0 ≤ s ∧ s < 2 ^ 53) :
    LoadersAgree v (campaign.cellsCsv v campaignId) (campaign.summaryJson measuredDate) campaign.cellsJson ↔
      (∀ c ∈ campaign.cells, 2 * c.kvBytesUsedSamples.count 0 ≤ c.kvBytesUsedSamples.length) ∧
        campaign.TextsFit campaignId := by
  have hmedian : (∀ c ∈ campaign.cells, c.p50Bytes ≠ 0) ↔
      ∀ c ∈ campaign.cells, 2 * c.kvBytesUsedSamples.count 0 ≤ c.kvBytesUsedSamples.length :=
    forall₂_congr (fun c hc => (not_congr (KvScalingCell.p50Bytes_eq_zero (fun s hs => (hsamples c hc s hs).1))).trans
      not_lt)
  rw [campaign.loaders_agree v campaignId measuredDate h hsamples, hmedian]

end KvScalingCampaign

/-! ## Two campaigns -/

/-- A campaign of one cell, measured once. -/
def oneSampleCell (used : Int) : KvScalingCell where
  modelId := "m".toList
  gpu := "gpu".toList
  vllmVersion := "0".toList
  seqLen := 1
  batchSize := 1
  nSamples := 1
  kvBytesUsedSamples := [used]
  kvBytesPrefillSamples := none
  totalTokens := 1
  baselineBytes := 0
  method := []
  checked := rfl

theorem unitSlope_nonneg : (0 : ℚ) ≤ 1 := zero_le_one

theorem unit_bounds : (0 : ℚ) ≤ 1 ∧ (1 : ℚ) ≤ 1 := ⟨zero_le_one, le_refl 1⟩

theorem noResidual_nonneg : (0 : ℚ) ≤ 0 := le_refl 0

theorem oneSampleCells_nonempty (used : Int) : 1 ≤ [oneSampleCell used].length := Nat.le_refl 1

def oneSampleCampaign (used : Int) : KvScalingCampaign where
  campaignId := "c".toList
  modelRevision := []
  cells := [oneSampleCell used]
  theoryBytesPerToken := 1
  regression := ⟨1, 0, 1, 0, unitSlope_nonneg, unit_bounds, noResidual_nonneg⟩
  knee := ⟨1, 1, some 1, Int.zero_lt_one, unit_bounds, rfl⟩
  cellsNonempty := oneSampleCells_nonempty used
  theoryPos := Int.zero_lt_one

theorem oneSampleCampaign_ints (used : Int) : (oneSampleCampaign used).IntsBelow (2 ^ 53) := by
  have hone : (1 : Int) < 2 ^ 53 := by decide
  refine ⟨hone, fun c hc => ?_⟩
  rw [List.mem_singleton.1 hc]
  exact ⟨hone, hone, hone, hone, Int.zero_lt_one.trans hone⟩

theorem oneSampleCampaign_fits (used : Int) : (oneSampleCampaign used).TextsFit [] :=
  (by decide : ∀ t ∈ ["c".toList, [], "m".toList, "gpu".toList, "0".toList, []], t.length ≤ fieldSizeLimit)

theorem oneSampleCampaign_samples (used : Int) (h : 0 ≤ used ∧ used < 2 ^ 53) :
    ∀ c ∈ (oneSampleCampaign used).cells, ∀ s ∈ c.kvBytesUsedSamples, 0 ≤ s ∧ s < 2 ^ 53 := by
  intro c hc s hs
  rw [List.mem_singleton.1 hc] at hs
  rw [List.mem_singleton.1 hs]
  exact h

/-- Three samples, one of them of no bytes. -/
def threeSampleCell : KvScalingCell :=
  ⟨{ (oneSampleCell 0).toCellFields with nSamples := 3, kvBytesUsedSamples := [0, 3, 4] }, rfl⟩

/-- Four samples at a longer point, with the prefill's. -/
def fourSampleCell : KvScalingCell :=
  ⟨{ (oneSampleCell 0).toCellFields with
    seqLen := 2
    nSamples := 4
    kvBytesUsedSamples := [5, 0, 7, 9]
    kvBytesPrefillSamples := some [2, 0, 2, 2]
    totalTokens := 2 }, rfl⟩

theorem twoCells_nonempty : 1 ≤ [threeSampleCell, fourSampleCell].length := Nat.le_succ 1

def twoCellCampaign : KvScalingCampaign :=
  { oneSampleCampaign 0 with cells := [threeSampleCell, fourSampleCell], cellsNonempty := twoCells_nonempty }

theorem two_cells_agree : LoadersAgree .whole (twoCellCampaign.cellsCsv .whole [])
    (twoCellCampaign.summaryJson []) twoCellCampaign.cellsJson := by
  have hints : twoCellCampaign.IntsBelow (2 ^ 53) := ⟨by decide, by decide⟩
  have hsamples : ∀ c ∈ twoCellCampaign.cells, ∀ s ∈ c.kvBytesUsedSamples, 0 ≤ s ∧ s < 2 ^ 53 := by decide
  have hzeros : ∀ c ∈ twoCellCampaign.cells, 2 * c.kvBytesUsedSamples.count 0 ≤ c.kvBytesUsedSamples.length := by decide
  exact (twoCellCampaign.loaders_agree_iff .whole [] [] hints hsamples).2 ⟨hzeros, by decide⟩

/-- A cell that used no bytes has a measured value of zero in the table and none in the document. -/
theorem no_bytes_disagree : (∀ c ∈ (oneSampleCampaign 0).cells, ∀ s ∈ c.kvBytesUsedSamples, 0 ≤ s ∧ s < 2 ^ 53) ∧
    (oneSampleCampaign 0).IntsBelow (2 ^ 53) ∧ (oneSampleCampaign 0).TextsFit [] ∧
    ¬ LoadersAgree .whole ((oneSampleCampaign 0).cellsCsv .whole []) ((oneSampleCampaign 0).summaryJson [])
      (oneSampleCampaign 0).cellsJson := by
  have hsamples := oneSampleCampaign_samples 0 (by decide)
  have hints := oneSampleCampaign_ints 0
  refine ⟨hsamples, hints, oneSampleCampaign_fits 0, fun hagree => ?_⟩
  have hmedian := (((oneSampleCampaign 0).loaders_agree .whole [] [] hints hsamples).1 hagree).1
  have hcell : oneSampleCell 0 ∈ (oneSampleCampaign 0).cells := List.mem_singleton_self _
  exact hmedian _ hcell ((KvScalingCell.p50Bytes_eq_zero (fun s hs => (hsamples _ hcell s hs).1)).2 (by decide))

end GoodputLab
