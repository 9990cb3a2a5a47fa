import GoodputLab.Base.Collect
import GoodputLab.ChatBudget
import GoodputLab.Matrix
/-!
# Preflight — the prompt gate before a paid run (`bench/preflight.py`)

The gate builds the traces of the first six pending cells of each mix and compares the worst request of each mix with
the model's context length.  Its verdict is exactly that the cells it samples fit (`ok_iff`), so it is sound exactly
when an overflow it cannot see comes with one it can (`preflight_sound_iff`): a cell's trace depends on its seed, and
the seed on its topology, model and rate.
-/
namespace GoodputLab

/-! ## The gate -/

def maxSampledCellsPerMix : Nat := 6

structure MixPromptStats where
  mix                       : Text
  nRequests                 : Nat
  minPromptTokens           : Nat
  meanPromptTokens          : ℚ
  p95PromptTokens           : Nat
  maxPromptTokens           : Nat
  maxPromptPlusOutputTokens : Nat

structure PromptPreflight where
  maxModelLen : Option Int
  perMix      : List MixPromptStats

namespace PromptPreflight

def overflowMixes (pf : PromptPreflight) : List Text :=
  match pf.maxModelLen with
  | none   => []
  | some l => (pf.perMix.filter (fun s => decide (l < s.maxPromptPlusOutputTokens))).map (fun s => s.mix)

def ok (pf : PromptPreflight) : Bool := pf.overflowMixes.isEmpty

end PromptPreflight

def p95 (values : List Nat) : Nat :=
  match values with
  | [] => 0
  | _  =>
    let s := values.insertionSort (· ≤ ·)
    s.getD (roundHalfEven (95 / 100 * ((s.length : ℚ) - 1))).toNat 0

def sampleCell (d : OrdDict Mix (List CellSpec)) (spec : CellSpec) : OrdDict Mix (List CellSpec) :=
  let bucket := (d.get? spec.mix).getD []
  d.set spec.mix (if bucket.length < maxSampledCellsPerMix then bucket ++ [spec] else bucket)

def sampled (specs : List CellSpec) : OrdDict Mix (List CellSpec) := specs.foldl sampleCell OrdDict.empty

/-- The statistics of one mix, `none` inside when there is no request. -/
def mixStats (source : Int → Nat → Nat → Nat) (mix : Mix) (mixSpecs : List CellSpec) : Option (Option MixPromptStats) := do
  let traces ← mixSpecs.mapM (buildTrace source)
  let requests := traces.flatMap (fun t => t.requests)
  let promptTokens := requests.map (fun r => r.promptTokens)
  let promptPlusOutput := requests.map (fun r => r.promptTokens + r.outputTokens)
  if promptTokens.isEmpty then pure none
  else pure (some ⟨mix.value, promptTokens.length, promptTokens.min?.getD 0, (promptTokens.sum : ℚ) / promptTokens.length,
    p95 promptTokens, promptTokens.max?.getD 0, promptPlusOutput.max?.getD 0⟩)

/-- The verdict; `none` when the trace of a sampled cell cannot be built. -/
def buildPromptPreflight (source : Int → Nat → Nat → Nat) (specs : List CellSpec) (maxModelLen : Option Int) :
    Option PromptPreflight := do
  let perMix ← (sampled specs).items.mapM (fun p => mixStats source p.1 p.2)
  pure ⟨maxModelLen, perMix.reduceOption⟩

/-! ## The sample -/

def ofMix (mix : Mix) (specs : List CellSpec) : List CellSpec := specs.filter (fun c => decide (c.mix = mix))

def bucketOf (mix : Mix) (d : OrdDict Mix (List CellSpec)) : List CellSpec := (d.get? mix).getD []

theorem bucketOf_sampleCell (mix : Mix) (d : OrdDict Mix (List CellSpec)) (spec : CellSpec) :
    bucketOf mix (sampleCell d spec) =
      if spec.mix = mix ∧ (bucketOf mix d).length < maxSampledCellsPerMix then bucketOf mix d ++ [spec]
      else bucketOf mix d := by
  unfold bucketOf sampleCell
  by_cases hc : spec.mix = mix
  · subst hc
    simp only [OrdDict.get?_set_self, Option.getD_some, true_and]
  · rw [if_neg (fun h => hc h.1)]
    simp only [OrdDict.get?_set_of_ne d _ (Ne.symm hc)]

theorem bucketOf_foldl (mix : Mix) : ∀ (specs : List CellSpec) (d : OrdDict Mix (List CellSpec)),
    (bucketOf mix d).length ≤ maxSampledCellsPerMix →
    bucketOf mix (specs.foldl sampleCell d) = (bucketOf mix d ++ ofMix mix specs).take maxSampledCellsPerMix
  | [], d, h => by
    rw [List.foldl_nil, ofMix, List.filter_nil, List.append_nil, List.take_of_length_le h]
  | c :: specs, d, h => by
    have hstep := bucketOf_sampleCell mix d c
    rw [List.foldl_cons, bucketOf_foldl mix specs (sampleCell d c)]
    · rw [hstep]
      by_cases hc : c.mix = mix
      · have hof : ofMix mix (c :: specs) = c :: ofMix mix specs := List.filter_cons_of_pos (by simpa using hc)
        by_cases hlen : (bucketOf mix d).length < maxSampledCellsPerMix
        · rw [if_pos ⟨hc, hlen⟩, hof, List.append_assoc]
          rfl
        · have hfull : (bucketOf mix d).length = maxSampledCellsPerMix := by omega
          rw [if_neg (fun h => hlen h.2), List.take_left' hfull, List.take_left' hfull]
      · have hof : ofMix mix (c :: specs) = ofMix mix specs := List.filter_cons_of_neg (by simpa using hc)
        rw [if_neg (fun h => hc h.1), hof]
    · rw [hstep]
      split
      · rename_i hroom
        rw [List.length_append]
        exact hroom.2
      · exact h

/-- **The sample of a mix is its first six cells.** -/
theorem bucketOf_sampled (specs : List CellSpec) (mix : Mix) :
    bucketOf mix (sampled specs) = (ofMix mix specs).take maxSampledCellsPerMix :=
  bucketOf_foldl mix specs OrdDict.empty (Nat.zero_le _)

theorem mem_sample (specs : List CellSpec) (c : CellSpec) :
    (∃ p ∈ (sampled specs).items, c ∈ p.2) ↔ ∃ mix, c ∈ (ofMix mix specs).take maxSampledCellsPerMix := by
  constructor
  · rintro ⟨⟨mix, bucket⟩, hmem, hc⟩
    refine ⟨mix, ?_⟩
    rw [← bucketOf_sampled, bucketOf, (OrdDict.mem_items _ _ _).1 hmem]
    exact hc
  · rintro ⟨mix, hc⟩
    rw [← bucketOf_sampled, bucketOf] at hc
    cases hb : (sampled specs).get? mix with
    | none =>
      rw [hb] at hc
      cases hc
    | some bucket =>
      rw [hb] at hc
      exact ⟨(mix, bucket), (OrdDict.mem_items _ _ _).2 hb, hc⟩

/-! ## The verdict -/

/-- Every request of the cell's trace fits in the context. -/
def Fits (source : Int → Nat → Nat → Nat) (maxModelLen : Int) (c : CellSpec) : Prop :=
  ∀ t, buildTrace source c = some t → ∀ r ∈ t.requests, ((r.promptTokens + r.outputTokens : Nat) : Int) ≤ maxModelLen

theorem max?_getD_le {l : List Nat} {n : Int} (hl : l ≠ []) :
    ((l.max?.getD 0 : Nat) : Int) ≤ n ↔ ∀ x : Nat, x ∈ l → (x : Int) ≤ n := by
  cases hm : l.max? with
  | none => exact absurd (List.max?_eq_none_iff.1 hm) hl
  | some m =>
    rw [Option.getD_some]
    constructor
    · intro h x hx
      have := (List.max?_eq_some_iff.1 hm).2 x hx
      omega
    · intro h
      exact h m (List.max?_eq_some_iff.1 hm).1

theorem mixStats_le_iff {source : Int → Nat → Nat → Nat} {mix : Mix} {mixSpecs : List CellSpec}
    {st : Option MixPromptStats} (h : mixStats source mix mixSpecs = some st) (l : Int) :
    (∀ s ∈ st, (s.maxPromptPlusOutputTokens : Int) ≤ l) ↔ ∀ c ∈ mixSpecs, Fits source l c := by
  obtain ⟨traces, ht, h⟩ := Option.bind_eq_some_iff.1 h
  have hfits : (∀ c ∈ mixSpecs, Fits source l c) ↔
      ∀ x : Nat, x ∈ (traces.flatMap (fun t => t.requests)).map (fun r => r.promptTokens + r.outputTokens) →
        (x : Int) ≤ l := by
    constructor
    · intro hall x hx
      obtain ⟨r, hr, rfl⟩ := List.mem_map.1 hx
      obtain ⟨t, htm, hrt⟩ := List.mem_flatMap.1 hr
      obtain ⟨c, hc, hb⟩ := Collect.exists_of_mem_right ht htm
      exact hall c hc t hb r hrt
    · intro hall c hc t hb r hr
      obtain ⟨t', htm, hb'⟩ := Collect.exists_of_mem ht hc
      rw [hb] at hb'
      cases hb'
      exact hall _ (List.mem_map.2 ⟨r, List.mem_flatMap.2 ⟨t, htm, hr⟩, rfl⟩)
  rw [hfits]
  generalize traces.flatMap (fun t => t.requests) = requests at *
  simp only at h
  split at h
  · rename_i hempty
    have hnil : requests = [] := List.map_eq_nil_iff.1 (List.isEmpty_iff.1 hempty)
    cases h
    subst hnil
    simp
  · rename_i hne
    cases h
    have hne' : requests.map (fun r => r.promptTokens + r.outputTokens) ≠ [] := by
      intro he
      exact hne (List.isEmpty_iff.2 (List.map_eq_nil_iff.2 (List.map_eq_nil_iff.1 he)))
    rw [← max?_getD_le hne']
    simp

/-- **The gate opens exactly when the first six cells of every mix fit.** -/
theorem ok_iff (source : Int → Nat → Nat → Nat) (specs : List CellSpec) (l : Int) (pf : PromptPreflight)
    (h : buildPromptPreflight source specs (some l) = some pf) :
    pf.ok = true ↔ ∀ mix, ∀ c ∈ (ofMix mix specs).take maxSampledCellsPerMix, Fits source l c := by
  obtain ⟨perMix, hm, h⟩ := Option.bind_eq_some_iff.1 h
  cases h
  have hok : (PromptPreflight.ok ⟨some l, perMix.reduceOption⟩ = true) ↔
      ∀ st ∈ perMix, ∀ s ∈ st, (s.maxPromptPlusOutputTokens : Int) ≤ l := by
    rw [PromptPreflight.ok, PromptPreflight.overflowMixes, List.isEmpty_iff, List.map_eq_nil_iff, List.filter_eq_nil_iff]
    constructor
    · intro hno st hst s hs
      rw [Option.mem_def] at hs
      subst hs
      have := hno s ((List.reduceOption_mem_iff (l := perMix) (x := s)).2 hst)
      simpa using this
    · intro hall s hs
      have := hall (some s) ((List.reduceOption_mem_iff (l := perMix) (x := s)).1 hs) s rfl
      simpa using this
  rw [hok]
  constructor
  · intro hall mix c hc
    obtain ⟨p, hp, hcp⟩ := (mem_sample specs c).2 ⟨mix, hc⟩
    obtain ⟨st, hst, hs⟩ := Collect.exists_of_mem hm hp
    exact (mixStats_le_iff hs l).1 (hall st hst) c hcp
  · intro hall st hst
    obtain ⟨p, hp, hs⟩ := Collect.exists_of_mem_right hm hst
    refine (mixStats_le_iff hs l).2 (fun c hc => ?_)
    obtain ⟨mix, hmem⟩ := (mem_sample specs c).1 ⟨p, hp, hc⟩
    exact hall mix c hmem

theorem mem_ofMix (specs : List CellSpec) (c : CellSpec) : c ∈ specs ↔ c ∈ ofMix c.mix specs := by
  simp [ofMix]

/-- The first six cells of every mix fit and a later one does not. -/
def OverflowHidden (source : Int → Nat → Nat → Nat) (maxModelLen : Int) (specs : List CellSpec) : Prop :=
  (∀ mix, ∀ c ∈ (ofMix mix specs).take maxSampledCellsPerMix, Fits source maxModelLen c) ∧
    ∃ mix, ∃ c ∈ (ofMix mix specs).drop maxSampledCellsPerMix, ¬ Fits source maxModelLen c

/-- **The gate is sound exactly when no overflow is hidden** after the sixth cell of its mix. -/
theorem preflight_sound_iff (source : Int → Nat → Nat → Nat) (specs : List CellSpec) (maxModelLen : Int)
    (pf : PromptPreflight) (h : buildPromptPreflight source specs (some maxModelLen) = some pf) :
    (pf.ok = true → ∀ c ∈ specs, Fits source maxModelLen c) ↔ ¬ OverflowHidden source maxModelLen specs := by
  rw [ok_iff source specs maxModelLen pf h]
  constructor
  · rintro hsound ⟨hfirst, mix, c, hc, hnot⟩
    have hmem : c ∈ ofMix mix specs := List.mem_of_mem_drop hc
    exact hnot (hsound hfirst c (List.mem_of_mem_filter hmem))
  · intro hno hfirst c hc
    by_contra hnot
    have hmem := (mem_ofMix specs c).1 hc
    rw [← List.take_append_drop maxSampledCellsPerMix (ofMix c.mix specs)] at hmem
    rcases List.mem_append.1 hmem with hm | hm
    · exact hnot (hfirst c.mix c hm)
    · exact hno ⟨hfirst, c.mix, c, hm, hnot⟩

/-- **With at most six cells of each mix the gate is sound.** -/
theorem preflight_sound_of_few (source : Int → Nat → Nat → Nat) (specs : List CellSpec) (maxModelLen : Int)
    (pf : PromptPreflight) (h : buildPromptPreflight source specs (some maxModelLen) = some pf)
    (hfew : ∀ mix, (ofMix mix specs).length ≤ maxSampledCellsPerMix) (hok : pf.ok = true) :
    ∀ c ∈ specs, Fits source maxModelLen c := by
  intro c hc
  have hmem := (mem_ofMix specs c).1 hc
  rw [← List.take_of_length_le (hfew c.mix)] at hmem
  exact (ok_iff source specs maxModelLen pf h).1 hok c.mix c hmem

/-! ## An overflow the gate does not see -/

/-- Two models at the default rates: twelve chat cells, of which the gate samples the six of the first model. -/
def twoModelMatrix : MatrixSpec := ⟨[.colocated], [.qwen3_1_7b, .qwen2_5_7b], [1, 2, 4, 8, 16, 32], [.chat], 0, 1⟩

def twoModelCells : List CellSpec := twoModelMatrix.cells.getD []

def hotSeed : Nat := deriveSeed .colocated .qwen2_5_7b 1 .chat

/-- The seed of one cell draws the top of every range, every other seed the bottom. -/
def hotSource : Int → Nat → Nat → Nat := fun seed _ width => if seed = hotSeed then width - 1 else 0

theorem twoModelCells_shape : ∀ c ∈ twoModelCells, c.mix = .chat ∧ c.nWarmup + c.nMeasure = 1 := by decide +kernel

theorem twoModelCells_sampled : ∀ c ∈ twoModelCells.take maxSampledCellsPerMix, c.seed ≠ hotSeed := by decide +kernel

theorem twoModelCells_ofMix (mix : Mix) : ofMix mix twoModelCells = if mix = .chat then twoModelCells else [] := by
  cases mix <;> decide +kernel

theorem fits_of_bottom {c : CellSpec} (hmix : c.mix = .chat) (hone : c.nWarmup + c.nMeasure = 1)
    (hseed : c.seed ≠ hotSeed) : Fits hotSource 1000 c := by
  obtain ⟨t, r, ht, hreq, hp, ho⟩ := buildTrace_chat_single hotSource c hmix hone
  intro t' ht' r' hr'
  rw [ht] at ht'
  cases ht'
  rw [hreq] at hr'
  rw [List.mem_singleton.1 hr']
  have hsource : hotSource c.seed = fun _ _ => 0 := by
    funext pos width
    exact if_neg (fun h => hseed (by exact_mod_cast h))
  rw [hsource] at hp ho
  have hp' : (r.promptTokens : Int) = 500 := hp
  have ho' : (r.outputTokens : Int) = 50 := ho
  omega

theorem not_fits_of_top {c : CellSpec} (hmix : c.mix = .chat) (hone : c.nWarmup + c.nMeasure = 1)
    (hseed : c.seed = hotSeed) : ¬ Fits hotSource 1000 c := by
  obtain ⟨t, r, ht, hreq, hp, ho⟩ := buildTrace_chat_single hotSource c hmix hone
  intro hfits
  have hle := hfits t ht r (by rw [hreq]; exact List.mem_singleton_self r)
  have hsource : hotSource c.seed = fun _ width => width - 1 := by
    funext pos width
    exact if_pos (by rw [hseed])
  rw [hsource] at hp ho
  have hp' : (r.promptTokens : Int) = 2000 := hp
  have ho' : (r.outputTokens : Int) = 500 := ho
  omega

theorem twoModelCells_preflight :
    ∃ pf, buildPromptPreflight hotSource twoModelCells (some 1000) = some pf := by
  have hstats : ∀ p ∈ (sampled twoModelCells).items, ∃ st, mixStats hotSource p.1 p.2 = some st := by
    intro p hp
    have hbuilt : ∀ c ∈ p.2, ∃ t, buildTrace hotSource c = some t := by
      intro c hc
      obtain ⟨mix, hm⟩ := (mem_sample twoModelCells c).1 ⟨p, hp, hc⟩
      have hmem : c ∈ twoModelCells := List.mem_of_mem_filter (List.mem_of_mem_take hm)
      obtain ⟨t, ht, -⟩ := buildTrace_chat hotSource c (twoModelCells_shape c hmem).1
      exact ⟨t, ht⟩
    obtain ⟨traces, htraces⟩ := Collect.exists_mapM hbuilt
    rw [mixStats, htraces]
    simp only [Option.bind_eq_bind, Option.bind_some]
    split
    · exact ⟨_, rfl⟩
    · exact ⟨_, rfl⟩
  obtain ⟨perMix, hm⟩ := Collect.exists_mapM hstats
  exact ⟨⟨some 1000, perMix.reduceOption⟩, by rw [buildPromptPreflight, hm]; rfl⟩

theorem preflight_sound_iff_two_models :
    ∃ pf, buildPromptPreflight hotSource twoModelCells (some 1000) = some pf ∧
      ((pf.ok = true → ∀ c ∈ twoModelCells, Fits hotSource 1000 c) ↔ ¬ OverflowHidden hotSource 1000 twoModelCells) := by
  obtain ⟨pf, hpf⟩ := twoModelCells_preflight
  exact ⟨pf, hpf, preflight_sound_iff hotSource twoModelCells 1000 pf hpf⟩

/-- **The gate opens on a cell that overflows**: the seventh chat cell of a two-model sweep. -/
theorem overflow_after_sixth_cell :
    ∃ pf, buildPromptPreflight hotSource twoModelCells (some 1000) = some pf ∧ pf.ok = true ∧
      ∃ c ∈ twoModelCells, ¬ Fits hotSource 1000 c := by
  obtain ⟨pf, hpf⟩ := twoModelCells_preflight
  refine ⟨pf, hpf, (ok_iff hotSource twoModelCells 1000 pf hpf).2 (fun mix c hc => ?_), ?_⟩
  · rw [twoModelCells_ofMix] at hc
    split at hc
    · have hshape := twoModelCells_shape c (List.mem_of_mem_take hc)
      exact fits_of_bottom hshape.1 hshape.2 (twoModelCells_sampled c hc)
    · cases hc
  · have hhot : ∃ c ∈ twoModelCells, c.seed = hotSeed := by decide +kernel
    obtain ⟨c, hc, hseed⟩ := hhot
    have hshape := twoModelCells_shape c hc
    exact ⟨c, hc, not_fits_of_top hshape.1 hshape.2 hseed⟩

end GoodputLab
