import GoodputLab.Base.Rounding
import GoodputLab.FakeIndependence
/-!
# FakeBatch — a batch of the fake engine, step by step

Requests that were added together and decode the same number of tokens are one batch, whatever their prompt lengths.
`BatchAt` is the engine after `k` steps of a batch, behind requests that have finished and given their blocks back: the
batch holds blocks from its first step to its last but one.  Adding a request, a step and the end of the sample keep it
(`BatchAt.add`, `BatchAt.step`, `BatchAt.endSample`), as long as the pool has the room.
-/
namespace GoodputLab
namespace FakeEngine

variable (e : FakeEngine)

/-! ## A request of the batch -/

/-- A request with `promptLen` prompt tokens, `k` steps after it was added. -/
def requestAt (promptLen : Int) (tokens k : Nat) : FakeRequest :=
  ⟨promptLen, tokens, true, (min tokens k : Nat), decide (tokens ≤ k), decide (tokens ≤ k)⟩

theorem requestAt_zero (promptLen : Int) {tokens : Nat} (h : 1 ≤ tokens) :
    requestAt promptLen tokens 0 = ⟨promptLen, tokens, true, 0, false, false⟩ := by
  rw [requestAt, Nat.min_zero, decide_eq_false (by omega)]
  rfl

theorem requestAt_done (promptLen : Int) {tokens k : Nat} (h : tokens ≤ k) :
    (requestAt promptLen tokens k).finished = true ∧ (requestAt promptLen tokens k).freed = true :=
  ⟨decide_eq_true h, decide_eq_true h⟩

theorem advance_requestAt (promptLen : Int) (tokens k : Nat) :
    e.advance (requestAt promptLen tokens k) = requestAt promptLen tokens (k + 1) := by
  have hfinish : e.finishAfter (requestAt promptLen tokens k) = tokens := by
    unfold finishAfter
    cases e.eosAfter <;> rfl
  unfold advance
  rw [hfinish]
  by_cases hk : tokens ≤ k
  · have hfin : (requestAt promptLen tokens k).finished = true := decide_eq_true hk
    rw [if_pos hfin, requestAt, requestAt, decide_eq_true hk, decide_eq_true (Nat.le_succ_of_le hk), Nat.min_eq_left hk,
      Nat.min_eq_left (Nat.le_succ_of_le hk)]
  · have hgen : (requestAt promptLen tokens k).generated = (k : Int) := by
      show ((min tokens k : Nat) : Int) = k
      rw [Nat.min_eq_right (by omega)]
    have hfin : (requestAt promptLen tokens k).finished = false := decide_eq_false hk
    have hnext : min tokens (k + 1) = k + 1 := by omega
    rw [hfin, if_neg Bool.false_ne_true, hgen]
    by_cases hlast : tokens ≤ k + 1
    · rw [if_pos (by omega), requestAt, requestAt, hnext, decide_eq_true hlast]
      rfl
    · rw [if_neg (by omega), requestAt, requestAt, hnext, decide_eq_false hk, decide_eq_false hlast]
      rfl

/-- A request holds the blocks of its tokens from its first step to the last but one. -/
theorem blocksOf_requestAt (promptLen : Int) (tokens k : Nat) :
    e.blocksOf (requestAt promptLen tokens k) =
      if 0 < k ∧ k < tokens then ⌈((promptLen + k : Int) : ℚ) / e.blockSize⌉ else 0 := by
  have hholds : (!(requestAt promptLen tokens k).freed && decide (1 ≤ (requestAt promptLen tokens k).generated)) =
      decide (0 < k ∧ k < tokens) := by
    show (!decide (tokens ≤ k) && decide ((1 : Int) ≤ (min tokens k : Nat))) = _
    rw [← decide_not, ← Bool.decide_and, decide_eq_decide]
    omega
  unfold blocksOf
  rw [hholds]
  by_cases hk : 0 < k ∧ k < tokens
  · have hgen : (requestAt promptLen tokens k).generated = (k : Int) := by
      show ((min tokens k : Nat) : Int) = k
      rw [Nat.min_eq_right (by omega)]
    rw [if_pos hk, if_pos (decide_eq_true hk), hgen]
    rfl
  · rw [if_neg hk, if_neg (by simpa using hk)]

/-! ## The batch -/

/-- The blocks of requests that have `n` tokens each after their prompts, and their tokens. -/
def blocksAfter (promptLens : List Int) (n : Int) : Int :=
  (promptLens.map (fun p => ⌈((p + n : Int) : ℚ) / e.blockSize⌉)).sum

def tokensAfter (promptLens : List Int) (n : Int) : Int := (promptLens.map (fun p => p + n)).sum

/-- The blocks a batch holds after `k` steps. -/
def heldAfter (promptLens : List Int) (tokens k : Nat) : Int :=
  if 0 < k ∧ k < tokens then e.blocksAfter promptLens k else 0

section Blocks

variable {promptLens : List Int}

theorem blocksAfter_nonneg (hpos : ∀ p ∈ promptLens, 0 < p) {n : Int} (hn : 0 ≤ n) : 0 ≤ e.blocksAfter promptLens n := by
  refine List.sum_nonneg (fun x hx => ?_)
  obtain ⟨p, hp, rfl⟩ := List.mem_map.1 hx
  have := hpos p hp
  exact ceil_div_nonneg (by omega) e.blockSizePos

theorem blocksAfter_mono {m n : Int} (h : m ≤ n) : e.blocksAfter promptLens m ≤ e.blocksAfter promptLens n :=
  List.sum_le_sum (fun _ _ => ceil_div_mono (by omega) e.blockSizePos)

theorem tokensAfter_nonneg (hpos : ∀ p ∈ promptLens, 0 < p) {n : Int} (hn : 0 ≤ n) : 0 ≤ tokensAfter promptLens n := by
  refine List.sum_nonneg (fun x hx => ?_)
  obtain ⟨p, hp, rfl⟩ := List.mem_map.1 hx
  have := hpos p hp
  omega

/-- **The blocks hold the tokens**, with less than one block to spare for each request. -/
theorem tokensAfter_le (promptLens : List Int) (n : Int) : tokensAfter promptLens n ≤ e.blocksAfter promptLens n * e.blockSize := by
  have hsum := List.sum_le_sum (fun p (_ : p ∈ promptLens) => le_ceil_div_mul (p + n) e.blockSizePos)
  rwa [List.sum_map_mul_right] at hsum

theorem blocksAfter_le (promptLens : List Int) (n : Int) :
    e.blocksAfter promptLens n * e.blockSize ≤ tokensAfter promptLens n + promptLens.length * e.blockSize := by
  have hsum := List.sum_le_sum (fun p (_ : p ∈ promptLens) => (ceil_div_mul_lt (p + n) e.blockSizePos).le)
  rw [List.sum_map_add, List.sum_map_mul_right, List.map_const', List.sum_replicate, nsmul_eq_mul] at hsum
  exact hsum

theorem heldAfter_zero (tokens : Nat) : e.heldAfter promptLens tokens 0 = 0 := if_neg (fun h => Nat.lt_irrefl 0 h.1)

theorem heldAfter_fits (hpos : ∀ p ∈ promptLens, 0 < p) {tokens : Nat}
    (hroom : e.blocksAfter promptLens ((tokens : Int) - 1) ≤ e.totalBlocks) (k : Nat) :
    0 ≤ e.heldAfter promptLens tokens k ∧ e.heldAfter promptLens tokens k ≤ e.totalBlocks := by
  unfold heldAfter
  split
  · exact ⟨e.blocksAfter_nonneg hpos (Int.natCast_nonneg k), le_trans (e.blocksAfter_mono (by omega)) hroom⟩
  · exact ⟨le_refl 0, e.totalPos.le⟩

end Blocks

/-- The batch `batch` after `k` steps, behind the requests `old`. -/
structure BatchAt (old : List (Text × FakeRequest)) (tokens : Nat) (batch : List (Text × Int)) (k : Nat) (s : FakeState) :
    Prop where
  used  : s.usedBlocks = e.heldAfter (batch.map Prod.snd) tokens k
  items : s.requests.items = old ++ batch.map (fun q => (q.1, requestAt q.2 tokens k))

section Batch

variable {e} {old : List (Text × FakeRequest)} {tokens k : Nat} {batch : List (Text × Int)} {s : FakeState}
variable (hold : ∀ q ∈ old, q.2.finished = true ∧ q.2.freed = true)

theorem sum_blocksOf_batch (batch : List (Text × Int)) :
    (batch.map (fun q => e.blocksOf (requestAt q.2 tokens k))).sum = e.heldAfter (batch.map Prod.snd) tokens k := by
  unfold heldAfter blocksAfter
  simp only [blocksOf_requestAt]
  by_cases hk : 0 < k ∧ k < tokens
  · simp only [if_pos hk, List.map_map]
    rfl
  · simp only [if_neg hk, List.map_const', List.sum_replicate, smul_zero]

include hold

theorem usedBy_batch {requests : OrdDict Text FakeRequest}
    (hitems : requests.items = old ++ batch.map (fun q => (q.1, requestAt q.2 tokens k))) :
    e.usedBy requests = e.heldAfter (batch.map Prod.snd) tokens k := by
  have hzero := e.sum_blocksOf_freed (fun q hq => (hold q hq).2)
  rw [usedBy_eq, hitems, List.map_append, List.sum_append, hzero, Int.zero_add, List.map_map]
  exact sum_blocksOf_batch batch

/-- **The pool takes the batch's blocks**, at every step. -/
theorem syncPool_batch (hpos : ∀ p ∈ batch.map Prod.snd, 0 < p)
    (hroom : e.blocksAfter (batch.map Prod.snd) ((tokens : Int) - 1) ≤ e.totalBlocks)
    (hitems : s.requests.items = old ++ batch.map (fun q => (q.1, requestAt q.2 tokens k))) :
    ∃ s', e.syncPool s = (.ok (), s') ∧ e.BatchAt old tokens batch k s' := by
  have hfits := e.heldAfter_fits hpos hroom k
  refine ⟨{ s with usedBlocks := e.heldAfter (batch.map Prod.snd) tokens k }, ?_, rfl, hitems⟩
  unfold syncPool
  simp only [usedBy_batch hold hitems]
  rw [if_neg (by omega)]

theorem advance_batch {requests : OrdDict Text FakeRequest}
    (hitems : requests.items = old ++ batch.map (fun q => (q.1, requestAt q.2 tokens k))) :
    (requests.mapValues e.advance).items = old ++ batch.map (fun q => (q.1, requestAt q.2 tokens (k + 1))) := by
  have hsame := OrdDict.map_value_eq_self (fun q hq => e.advance_finished (hold q hq).1)
  simp only [OrdDict.mapValues]
  rw [hitems, List.map_append, hsame, List.map_map]
  congr 1
  refine List.map_congr_left (fun q _ => ?_)
  rw [Function.comp_apply, e.advance_requestAt]

/-- Each step but those after the last gives every request of the batch a token. -/
theorem outputs_batch {requests : OrdDict Text FakeRequest} (hk : k < tokens)
    (hitems : requests.items = old ++ batch.map (fun q => (q.1, requestAt q.2 tokens k))) :
    e.outputs requests = batch.map (fun q => ⟨q.1, 1, decide (tokens ≤ k + 1)⟩) := by
  have hnone := filter_unfinished (fun q hq => (hold q hq).1)
  have hall : (batch.map (fun q => (q.1, requestAt q.2 tokens k))).filter (fun q => !q.2.finished) =
      batch.map (fun q => (q.1, requestAt q.2 tokens k)) := by
    rw [List.filter_eq_self]
    intro q hq
    obtain ⟨r, -, rfl⟩ := List.mem_map.1 hq
    show (!decide (tokens ≤ k)) = true
    rw [decide_eq_false (by omega)]
    rfl
  unfold outputs
  rw [hitems, List.filter_append, hnone, List.nil_append, hall, List.map_map]
  refine List.map_congr_left (fun q _ => ?_)
  simp only [Function.comp_apply, e.advance_requestAt]
  rfl

namespace BatchAt

omit hold in
theorem keys_eq (h : e.BatchAt old tokens batch k s) : s.requests.keys = old.map Prod.fst ++ batch.map Prod.fst := by
  rw [OrdDict.keys, h.items, List.map_append, List.map_map]
  rfl

theorem add (h : e.BatchAt old tokens batch 0 s) (rid prompt : Text) (temperature : ℚ) {promptLen : Int}
    (hpos : 0 < promptLen) (htokens : 1 ≤ tokens) (hnew : rid ∉ s.requests.keys) :
    ∃ s', e.driver.addRequest ⟨rid, prompt, tokens, temperature, promptLen, true⟩ s = (.ok (), s') ∧
      e.BatchAt old tokens (batch ++ [(rid, promptLen)]) 0 s' := by
  have hnone : s.requests.get? rid = none := by
    rw [OrdDict.get?_eq_none]
    exact hnew
  have hset : (s.requests.set rid (requestAt promptLen tokens 0)).items =
      old ++ (batch ++ [(rid, promptLen)]).map (fun q => (q.1, requestAt q.2 tokens 0)) := by
    rw [OrdDict.items_set_of_notMem _ _ hnone, h.items, List.map_append, List.append_assoc]
    rfl
  have hused : e.usedBy (s.requests.set rid (requestAt promptLen tokens 0)) = 0 := by
    rw [usedBy_batch hold hset, heldAfter_zero]
  have htotal := e.totalPos
  refine ⟨⟨0, s.requests.set rid (requestAt promptLen tokens 0)⟩, ?_, (e.heldAfter_zero tokens).symm, hset⟩
  show e.addRequest _ s = _
  unfold addRequest
  simp only [OrdDict.contains, hnone, Option.isSome_none, Bool.false_eq_true, if_false]
  rw [if_neg (by omega), if_neg (by omega), ← requestAt_zero promptLen htokens]
  unfold syncPool
  simp only [hused]
  rw [if_neg (by omega)]

theorem step (h : e.BatchAt old tokens batch k s) (hpos : ∀ p ∈ batch.map Prod.snd, 0 < p)
    (hroom : e.blocksAfter (batch.map Prod.snd) ((tokens : Int) - 1) ≤ e.totalBlocks) (hk : k < tokens) :
    ∃ s', e.driver.step s = (.ok (batch.map (fun q => ⟨q.1, 1, decide (tokens ≤ k + 1)⟩)), s') ∧
      e.BatchAt old tokens batch (k + 1) s' := by
  obtain ⟨s', hsync, hs'⟩ := syncPool_batch (s := { s with requests := s.requests.mapValues e.advance }) hold hpos hroom
    (advance_batch hold h.items)
  refine ⟨s', ?_, hs'⟩
  show e.step s = _
  unfold FakeEngine.step
  rw [hsync, outputs_batch hold hk h.items]

/-- All that is left of a batch are requests that have finished. -/
theorem done (h : e.BatchAt old tokens batch k s) (hk : tokens ≤ k) :
    ∀ q ∈ s.requests.items, q.2.finished = true ∧ q.2.freed = true := by
  intro q hq
  rw [h.items] at hq
  rcases List.mem_append.1 hq with hq | hq
  · exact hold q hq
  · obtain ⟨r, -, rfl⟩ := List.mem_map.1 hq
    exact requestAt_done r.2 hk

end BatchAt
end Batch
end FakeEngine
end GoodputLab
