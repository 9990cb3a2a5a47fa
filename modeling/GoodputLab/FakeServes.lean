import GoodputLab.FakeBatch
import GoodputLab.KvStagger
/-!
# FakeServes — the fake engine serves every batch in one wave

With a pool that holds the whole batch at its full length, the fake engine serves batch after batch with all requests
starting at once (`FakeEngine.serves`).  What it served before are finished and freed requests, which hold no block.
-/
namespace GoodputLab
namespace FakeEngine

/-- A batch all of whose requests start at once. -/
structure Batch where
  size     : Nat
  tokens   : Nat
  seqLen   : Int
  sizePos  : 0 < size
  tokensGe : 2 ≤ tokens
  seqPos   : 0 < seqLen

variable (e : FakeEngine) (b : Batch)

def schedule : Stagger where
  starts := List.replicate b.size 0
  last := 0
  tokens := b.tokens
  seqLen := b.seqLen
  blockSize := e.blockSize
  total := e.totalBlocks
  firstMem := List.mem_replicate.2 ⟨b.sizePos.ne', rfl⟩
  lastMem := List.mem_replicate.2 ⟨b.sizePos.ne', rfl⟩
  leLast := fun _ hx => (List.eq_of_mem_replicate hx).le
  overlap := by
    have := b.tokensGe
    omega
  seqPos := b.seqPos
  blockPos := e.blockSizePos
  totalPos := e.totalPos

/-- The pool holds the batch at its full length. -/
def Roomy : Prop := b.size * ⌈((b.seqLen + b.tokens : Int) : ℚ) / e.blockSize⌉ ≤ e.totalBlocks

/-! ## A request of the batch -/

def Batch.requestAt (k : Nat) : FakeRequest :=
  ⟨b.seqLen, b.tokens, true, (min b.tokens k : Nat), decide (b.tokens ≤ k), decide (b.tokens ≤ k)⟩

theorem alive_schedule (k : Nat) : (e.schedule b).Alive k 0 ↔ 0 < k ∧ k < b.tokens := by
  unfold Stagger.Alive
  rw [Nat.zero_add]
  rfl

/-- The schedule counts the blocks of one request as the engine does. -/
theorem heldBy_schedule (k : Nat) : (e.schedule b).heldBy k 0 = e.blocksOf (b.requestAt k) := by
  rw [Batch.requestAt, ← requestAt, e.blocksOf_requestAt]
  unfold Stagger.heldBy
  by_cases hk : 0 < k ∧ k < b.tokens
  · have hlen : (e.schedule b).length k 0 = b.seqLen + k := by
      show b.seqLen + ((min b.tokens k : Nat) : Int) = _
      rw [Nat.min_eq_right hk.2.le]
    rw [if_pos ((e.alive_schedule b k).2 hk), if_pos hk, hlen]
    rfl
  · rw [if_neg (fun h => hk ((e.alive_schedule b k).1 h)), if_neg hk]

/-! ## The batch -/

variable {e b}

/-- After `k` steps of the batch `rids`, which came after the batches `seen`. -/
structure Serving (e : FakeEngine) (b : Batch) (seen rids : List Text) (k : Nat) (s : FakeState) : Prop where
  used  : s.usedBlocks = rids.length * (e.schedule b).heldBy k 0
  items : ∃ old, (∀ q ∈ old, q.2.finished = true ∧ q.2.freed = true) ∧ old.map Prod.fst = seen ∧
    s.requests.items = old ++ rids.map (fun rid => (rid, b.requestAt k))

/-- The requests `rids`, all of the batch's length. -/
def Batch.requests (b : Batch) (rids : List Text) : List (Text × Int) := rids.map (fun rid => (rid, b.seqLen))

theorem held_requests (rids : List Text) (k : Nat) :
    e.heldAfter ((b.requests rids).map Prod.snd) b.tokens k = rids.length * (e.schedule b).heldBy k 0 := by
  rw [heldBy_schedule, ← sum_blocksOf_batch, Batch.requests, List.map_map]
  show (rids.map (fun _ => e.blocksOf (b.requestAt k))).sum = _
  rw [List.map_const', List.sum_replicate, nsmul_eq_mul]

theorem requests_pos (rids : List Text) : ∀ p ∈ (b.requests rids).map Prod.snd, 0 < p := by
  intro p hp
  obtain ⟨q, hq, rfl⟩ := List.mem_map.1 hp
  obtain ⟨rid, -, rfl⟩ := List.mem_map.1 hq
  exact b.seqPos

theorem requests_room (hroomy : e.Roomy b) {rids : List Text} (hlen : rids.length ≤ b.size) :
    e.blocksAfter ((b.requests rids).map Prod.snd) ((b.tokens : Int) - 1) ≤ e.totalBlocks := by
  have hseq := b.seqPos
  have hsum : e.blocksAfter ((b.requests rids).map Prod.snd) b.tokens =
      rids.length * ⌈((b.seqLen + b.tokens : Int) : ℚ) / e.blockSize⌉ := by
    rw [blocksAfter, Batch.requests, List.map_map, List.map_map]
    show (rids.map (fun _ => ⌈((b.seqLen + b.tokens : Int) : ℚ) / e.blockSize⌉)).sum = _
    rw [List.map_const', List.sum_replicate, nsmul_eq_mul]
  refine le_trans (e.blocksAfter_mono (by omega)) (le_trans (le_of_eq hsum) (le_trans ?_ hroomy))
  exact mul_le_mul_of_nonneg_right (by exact_mod_cast hlen) (ceil_div_nonneg (by omega) e.blockSizePos)

/-- **Serving a batch is being at one of its steps**, behind what was served before. -/
theorem serving_iff {seen rids : List Text} {k : Nat} {s : FakeState} : Serving e b seen rids k s ↔
    ∃ old, (∀ q ∈ old, q.2.finished = true ∧ q.2.freed = true) ∧ old.map Prod.fst = seen ∧
      e.BatchAt old b.tokens (b.requests rids) k s := by
  have hmap : (b.requests rids).map (fun q => (q.1, FakeEngine.requestAt q.2 b.tokens k)) =
      rids.map (fun rid => (rid, b.requestAt k)) := by
    rw [Batch.requests, List.map_map]
    rfl
  constructor
  · rintro ⟨hused, old, hold, hseen, hitems⟩
    exact ⟨old, hold, hseen, by rw [hused, held_requests], by rw [hitems, hmap]⟩
  · rintro ⟨old, hold, hseen, hused, hitems⟩
    exact ⟨by rw [hused, held_requests], old, hold, hseen, by rw [hitems, hmap]⟩

theorem outputs_requests {rids : List Text} {k : Nat} (hlen : rids.length = b.size) (hk : k < b.tokens) :
    (b.requests rids).map (fun q => (⟨q.1, 1, decide (b.tokens ≤ k + 1)⟩ : StepOutput)) =
      (e.schedule b).outputs rids (k + 1) := by
  have hzip : rids.zip (e.schedule b).starts = rids.map (fun rid => (rid, 0)) := by
    show rids.zip (List.replicate b.size 0) = _
    rw [← hlen, Stagger.zip_replicate_length]
  have hproduce : (rids.map (fun rid => (rid, 0))).filter
      (fun q => decide ((e.schedule b).Produces (k + 1) q.2)) = rids.map (fun rid => (rid, 0)) := by
    rw [List.filter_eq_self]
    intro q hq
    obtain ⟨rid, -, rfl⟩ := List.mem_map.1 hq
    refine decide_eq_true ⟨Nat.succ_pos k, ?_⟩
    rw [Nat.zero_add]
    exact hk
  have hlast : decide (b.tokens ≤ k + 1) = decide (k + 1 = 0 + b.tokens) := by
    rw [decide_eq_decide]
    omega
  unfold Stagger.outputs
  rw [hzip, hproduce, List.map_map, Batch.requests, List.map_map, hlast]
  rfl

theorem freed_items {requests : OrdDict Text FakeRequest} (h : ∀ q ∈ requests.items, q.2.freed = true) :
    (freed requests).items = requests.items :=
  OrdDict.map_value_eq_self (f := fun r : FakeRequest => { r with freed := true }) (fun q hq => free_of_freed (h q hq))

/-! ## The engine -/

namespace Serving

variable {seen rids : List Text} {k : Nat} {s : FakeState}

theorem fresh (e : FakeEngine) (b : Batch) : Serving e b [] [] 0 .fresh :=
  ⟨by rw [List.length_nil, Nat.cast_zero, zero_mul]; rfl, [], (fun _ hq => by cases hq), rfl, rfl⟩

/-- Between two batches nothing is left of the last one's shape. -/
theorem idle_congr {b' : Batch} (h : Serving e b seen [] 0 s) : Serving e b' seen [] 0 s := by
  obtain ⟨old, hold, hseen, hitems⟩ := h.items
  refine ⟨?_, old, hold, hseen, hitems⟩
  rw [h.used, List.length_nil, Nat.cast_zero, zero_mul, zero_mul]

theorem held_eq (h : Serving e b seen rids k s) (hlen : rids.length = b.size) :
    s.usedBlocks = (e.schedule b).held k := by
  rw [h.used, Stagger.held]
  show _ = ((List.replicate b.size 0).map ((e.schedule b).heldBy k)).sum
  rw [List.map_replicate, List.sum_replicate, nsmul_eq_mul, hlen]

theorem add (h : Serving e b seen rids 0 s) (rid prompt : Text) (hnew : rid ∉ seen ++ rids) :
    Act.Returns (e.driver.addRequest ((e.schedule b).request rid prompt)) s
      (fun _ s' => Serving e b seen (rids ++ [rid]) 0 s') := by
  have htokens := b.tokensGe
  obtain ⟨old, hold, hseen, hbatch⟩ := serving_iff.1 h
  have hkeys : s.requests.keys = seen ++ rids := by
    rw [hbatch.keys_eq, hseen, Batch.requests, List.map_map]
    congr 1
    exact List.map_id _
  obtain ⟨s', hadd, hs'⟩ := hbatch.add hold rid prompt 0 b.seqPos (by omega) (hkeys ▸ hnew)
  refine ⟨(), s', hadd, serving_iff.2 ⟨old, hold, hseen, ?_⟩⟩
  rw [Batch.requests, List.map_append]
  exact hs'

theorem step (hroomy : e.Roomy b) (h : Serving e b seen rids k s) (hlen : rids.length = b.size) (hk : k < b.tokens) :
    Act.Returns e.driver.step s
      (fun outs s' => outs = (e.schedule b).outputs rids (k + 1) ∧ Serving e b seen rids (k + 1) s') := by
  obtain ⟨old, hold, hseen, hbatch⟩ := serving_iff.1 h
  obtain ⟨s', hstep, hs'⟩ := hbatch.step hold (requests_pos rids) (requests_room hroomy hlen.le) hk
  exact ⟨_, s', hstep, outputs_requests hlen hk, serving_iff.2 ⟨old, hold, hseen, hs'⟩⟩

theorem endSample (h : Serving e b seen rids k s) (hk : b.tokens ≤ k) :
    Act.Returns e.driver.endSample s (fun _ s' => Serving e b (seen ++ rids) [] 0 s') := by
  obtain ⟨old, hold, hseen, hbatch⟩ := serving_iff.1 h
  have hdone := hbatch.done hold hk
  refine ⟨(), _, e.endSample_eq s, ?_, s.requests.items, hdone, ?_, ?_⟩
  · show (0 : Int) = _
    rw [List.length_nil, Nat.cast_zero, zero_mul]
  · show s.requests.keys = _
    rw [hbatch.keys_eq, hseen, Batch.requests, List.map_map]
    congr 1
    exact List.map_id _
  · rw [List.map_nil, List.append_nil, freed_items (fun q hq => (hdone q hq).2)]

end Serving

/-- **The fake engine serves the batch**, with every request starting at once. -/
def serves (hroomy : e.Roomy b) : Serves e.driver (e.schedule b) where
  idle := fun seen s => Serving e b seen [] 0 s
  queued := fun seen rids s => Serving e b seen rids 0 s
  serving := fun seen rids k s => Serving e b seen rids k s ∧ rids.length = b.size
  numBlocks := fun h => ⟨_, _, rfl, rfl, h⟩
  add := by
    intro seen rids s rid prompt h _ hnew
    exact h.add rid prompt hnew
  start := by
    intro seen rids s h hlen
    exact ⟨h, by rwa [schedule, List.length_replicate] at hlen⟩
  free := by
    rintro seen rids k s ⟨h, hlen⟩
    exact ⟨_, _, rfl, by rw [h.held_eq hlen]; rfl, h, hlen⟩
  step := by
    rintro seen rids k s ⟨h, hlen⟩ hk
    refine (h.step hroomy hlen (by rwa [schedule, Nat.zero_add] at hk)).mono (fun outs s' ⟨houts, hs'⟩ => ?_)
    exact ⟨houts ▸ List.Perm.refl _, hs', hlen⟩
  unfinished := fun h => ⟨_, _, rfl, h⟩
  finish := by
    rintro seen rids k s ⟨h, -⟩ hk
    exact h.endSample (by rwa [schedule, Nat.zero_add] at hk)

end FakeEngine
end GoodputLab
