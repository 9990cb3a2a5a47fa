import GoodputLab.Base.Rounding
import GoodputLab.KvWindow
/-!
# KvStagger — engines that serve a batch staggered

A `Stagger` says when each request of a batch starts: its first token comes on the step after its start, one more on each
later step until it has its tokens, and it holds the blocks of its tokens from its first until its last.  `Serves` says
that an engine does so, whatever its state is.  The window of a sample then counts what the schedule says
(`onSchedule_step`), and the block gate never fires (`OnSchedule.gate_ok`).
-/
namespace GoodputLab

/-! ## The schedule -/

/-- A batch of requests of one length.  `overlap` says that the last request starts before the first one finishes, so that
some step has them all alive. -/
structure Stagger where
  starts    : List Nat
  last      : Nat
  tokens    : Nat
  seqLen    : Int
  blockSize : Int
  total     : Int
  firstMem  : 0 ∈ starts
  lastMem   : last ∈ starts
  leLast    : ∀ x ∈ starts, x ≤ last
  overlap   : last + 2 ≤ tokens
  seqPos    : 0 < seqLen
  blockPos  : 0 < blockSize
  totalPos  : 0 < total

namespace Stagger

variable (p : Stagger)

/-- The tokens a request has after `k` steps. -/
def generated (k start : Nat) : Nat := min p.tokens (k - start)

def Produces (k start : Nat) : Prop := start < k ∧ k ≤ start + p.tokens

def Alive (k start : Nat) : Prop := start < k ∧ k < start + p.tokens

instance (k start : Nat) : Decidable (p.Produces k start) := inferInstanceAs (Decidable (_ ∧ _))

instance (k start : Nat) : Decidable (p.Alive k start) := inferInstanceAs (Decidable (_ ∧ _))

def length (k start : Nat) : Int := p.seqLen + p.generated k start

/-- The blocks a request holds after `k` steps. -/
def heldBy (k start : Nat) : Int := if p.Alive k start then ⌈(p.length k start : ℚ) / p.blockSize⌉ else 0

def held (k : Nat) : Int := (p.starts.map (p.heldBy k)).sum

def live (k : Nat) : Int := (p.starts.map (p.length k)).sum

def AllAlive (k : Nat) : Prop := ∀ start ∈ p.starts, p.Alive k start

/-- What step `k` returns for the requests `rids`, up to the order. -/
def outputs (rids : List Text) (k : Nat) : List StepOutput :=
  ((rids.zip p.starts).filter (fun q => decide (p.Produces k q.2))).map
    (fun q => ⟨q.1, 1, decide (k = q.2 + p.tokens)⟩)

def request (rid prompt : Text) : AddRequest := ⟨rid, prompt, p.tokens, 0, p.seqLen, true⟩

end Stagger

variable {σ : Type}

/-- The engine serves batches on the schedule `p`, one after another, each with ids it has not seen: `idle seen` before a
batch, `queued seen rids` while it is added, `serving seen rids k` after `k` steps of it. -/
structure Serves (d : EngineDriver σ) (p : Stagger) where
  idle       : List Text → σ → Prop
  queued     : List Text → List Text → σ → Prop
  serving    : List Text → List Text → Nat → σ → Prop
  numBlocks  : ∀ {seen s}, idle seen s → Act.Returns d.numGpuBlocks s (fun n s' => n = some p.total ∧ queued seen [] s')
  add        : ∀ {seen rids s} (rid prompt : Text), queued seen rids s → rids.length < p.starts.length →
    rid ∉ seen ++ rids → Act.Returns (d.addRequest (p.request rid prompt)) s (fun _ s' => queued seen (rids ++ [rid]) s')
  start      : ∀ {seen rids s}, queued seen rids s → rids.length = p.starts.length → serving seen rids 0 s
  free       : ∀ {seen rids k s}, serving seen rids k s →
    Act.Returns d.numFreeBlocks s (fun n s' => n = p.total - p.held k ∧ serving seen rids k s')
  step       : ∀ {seen rids k s}, serving seen rids k s → k < p.last + p.tokens →
    Act.Returns d.step s (fun outs s' => outs.Perm (p.outputs rids (k + 1)) ∧ serving seen rids (k + 1) s')
  unfinished : ∀ {seen rids k s}, serving seen rids k s →
    Act.Returns d.getNumUnfinishedRequests s (fun _ s' => serving seen rids k s')
  finish     : ∀ {seen rids k s}, serving seen rids k s → p.last + p.tokens ≤ k →
    Act.Returns d.endSample s (fun _ s' => idle (seen ++ rids) s')

/-- The sample asks for the batch `p` serves. -/
structure Stagger.Asks (p : Stagger) (a : SampleArgs) : Prop where
  ids       : a.requestIds.length = p.starts.length
  distinct  : a.requestIds.Nodup
  prompts   : a.prompts.length = p.starts.length
  lens      : a.promptLens = List.replicate p.starts.length p.seqLen
  decode    : a.decodeTokens = p.tokens
  eos       : a.ignoreEos = true
  blocks    : a.blockSize = p.blockSize
  theoryPos : 0 < a.theoryBpt

/-! ## The schedule's arithmetic -/

namespace Stagger

variable (p : Stagger)

theorem generated_succ (k start : Nat) :
    p.generated (k + 1) start = p.generated k start + if p.Produces (k + 1) start then 1 else 0 := by
  by_cases h : p.Produces (k + 1) start
  · rw [if_pos h]
    unfold Produces at h
    unfold generated
    omega
  · rw [if_neg h]
    unfold Produces at h
    unfold generated
    omega

theorem generated_pos {k start : Nat} (h : start < k) : 1 ≤ p.generated k start := by
  have := p.overlap
  unfold generated
  omega

theorem length_pos (k start : Nat) : 0 < p.length k start := by
  have := p.seqPos
  unfold length
  omega

theorem length_mono {j k : Nat} (h : j ≤ k) (start : Nat) : p.length j start ≤ p.length k start := by
  unfold length generated
  omega

theorem heldBy_nonneg (k start : Nat) : 0 ≤ p.heldBy k start := by
  unfold heldBy
  split
  · exact ceil_div_nonneg (p.length_pos k start).le p.blockPos
  · exact le_refl 0

/-- All are alive after `k` steps: the last one has started and the first one has not finished. -/
theorem allAlive_iff (k : Nat) : p.AllAlive k ↔ p.last < k ∧ k < p.tokens := by
  constructor
  · intro h
    have hlast := h p.last p.lastMem
    have hfirst := h 0 p.firstMem
    unfold Alive at hlast hfirst
    omega
  · intro h start hs
    have := p.leLast start hs
    unfold Alive
    omega

/-- **While all are alive no block is given back.** -/
theorem held_mono {j k : Nat} (hj : p.AllAlive j) (hk : p.AllAlive k) (hjk : j ≤ k) : p.held j ≤ p.held k := by
  refine List.sum_le_sum (fun start hs => ?_)
  unfold heldBy
  rw [if_pos (hj start hs), if_pos (hk start hs)]
  exact ceil_div_mono (p.length_mono hjk start) p.blockPos

/-- What a request counts in the live tokens after `k` steps. -/
def liveBy (k start : Nat) : Int := if k < start + p.tokens then p.length k start else 0

theorem sum_map_filter {α : Type} (f : α → Int) (t : α → Bool) (l : List α) :
    ((l.filter t).map f).sum = (l.map (fun x => if t x then f x else 0)).sum := by
  rw [List.sum_map_ite, List.map_const', List.sum_replicate, smul_zero, Int.add_zero]
  simp only [Bool.decide_eq_true]

theorem held_nonneg (k : Nat) : 0 ≤ p.held k := by
  refine List.sum_nonneg (fun x hx => ?_)
  obtain ⟨start, -, rfl⟩ := List.mem_map.1 hx
  exact p.heldBy_nonneg k start

theorem heldBy_mul_le (k start : Nat) : p.heldBy k start * p.blockSize ≤ p.liveBy k start + p.blockSize := by
  have hb := p.blockPos
  have hlen := p.length_pos k start
  have hlt := ceil_div_mul_lt (p.length k start) hb
  by_cases h : p.Alive k start
  · rw [heldBy, if_pos h, liveBy, if_pos h.2]
    exact hlt.le
  · rw [heldBy, if_neg h, liveBy]
    split <;> omega

theorem le_heldBy_mul {k start : Nat} (h : start < k) : p.liveBy k start ≤ p.heldBy k start * p.blockSize := by
  by_cases hk : k < start + p.tokens
  · rw [heldBy, if_pos ⟨h, hk⟩, liveBy, if_pos hk]
    exact le_ceil_div_mul (p.length k start) p.blockPos
  · rw [heldBy, if_neg (fun hal => hk hal.2), liveBy, if_neg hk, Int.zero_mul]

/-- The blocks held exceed the live tokens by less than a block for each request. -/
theorem held_le (k : Nat) :
    p.held k * p.blockSize ≤ (p.starts.map (p.liveBy k)).sum + p.starts.length * p.blockSize := by
  have hsum := List.sum_le_sum (fun start (_ : start ∈ p.starts) => p.heldBy_mul_le k start)
  rw [List.sum_map_add, List.sum_map_mul_right, List.map_const', List.sum_replicate, nsmul_eq_mul] at hsum
  exact hsum

theorem le_held {k : Nat} (h : p.last < k) : (p.starts.map (p.liveBy k)).sum ≤ p.held k * p.blockSize := by
  have hsum := List.sum_le_sum (fun start (hs : start ∈ p.starts) =>
    p.le_heldBy_mul (Nat.lt_of_le_of_lt (p.leLast start hs) h))
  rwa [List.sum_map_mul_right] at hsum

/-! ## The answers to one request -/

theorem zip_replicate_length {α β : Type} (l : List α) (y : β) :
    l.zip (List.replicate l.length y) = l.map (fun x => (x, y)) :=
  List.ext_getElem (by simp) (fun i _ _ => by simp)

theorem filter_key {α β : Type} [DecidableEq α] : ∀ {l : List (α × β)} {q : α × β}, (l.map Prod.fst).Nodup → q ∈ l →
    l.filter (fun r => decide (r.1 = q.1)) = [q]
  | r :: l, q, hn, hq => by
    rw [List.map_cons, List.nodup_cons] at hn
    rcases List.mem_cons.1 hq with rfl | hq
    · have hnone : l.filter (fun r => decide (r.1 = q.1)) = [] := by
        refine List.filter_eq_nil_iff.2 (fun r hr hkey => hn.1 ?_)
        exact List.mem_map.2 ⟨r, hr, of_decide_eq_true hkey⟩
      rw [List.filter_cons_of_pos (by simp), hnone]
    · have hne : r.1 ≠ q.1 := by
        intro he
        exact hn.1 (List.mem_map.2 ⟨q, hq, he.symm⟩)
      rw [List.filter_cons_of_neg (by simpa using hne), filter_key hn.2 hq]

variable {p}

theorem Asks.zip_fst {a : SampleArgs} (h : p.Asks a) : (a.requestIds.zip p.starts).map Prod.fst = a.requestIds :=
  List.map_fst_zip h.ids.le

theorem Asks.zip_snd {a : SampleArgs} (h : p.Asks a) : (a.requestIds.zip p.starts).map Prod.snd = p.starts :=
  List.map_snd_zip h.ids.ge

theorem Asks.exists_start {a : SampleArgs} (h : p.Asks a) {rid : Text} (hr : rid ∈ a.requestIds) :
    ∃ start, (rid, start) ∈ a.requestIds.zip p.starts := by
  rw [← h.zip_fst] at hr
  obtain ⟨q, hq, rfl⟩ := List.mem_map.1 hr
  exact ⟨q.2, hq⟩

theorem Asks.exists_id {a : SampleArgs} (h : p.Asks a) {start : Nat} (hs : start ∈ p.starts) :
    ∃ rid ∈ a.requestIds, (rid, start) ∈ a.requestIds.zip p.starts := by
  rw [← h.zip_snd] at hs
  obtain ⟨q, hq, rfl⟩ := List.mem_map.1 hs
  exact ⟨q.1, (List.of_mem_zip hq).1, hq⟩

/-- **Step `k` answers a request once, while it produces.** -/
theorem Asks.answers {a : SampleArgs} (h : p.Asks a) {outs : List StepOutput} {k : Nat}
    (houts : outs.Perm (p.outputs a.requestIds k)) {q : Text × Nat} (hq : q ∈ a.requestIds.zip p.starts) :
    outs.filter (fun o => decide (o.requestId = q.1)) =
      if p.Produces k q.2 then [⟨q.1, 1, decide (k = q.2 + p.tokens)⟩] else [] := by
  have hone : (a.requestIds.zip p.starts).filter (fun r => decide (r.1 = q.1)) = [q] :=
    filter_key (by rw [h.zip_fst]; exact h.distinct) hq
  have hsplit : (p.outputs a.requestIds k).filter (fun o => decide (o.requestId = q.1)) =
      (([q] : List (Text × Nat)).filter (fun r => decide (p.Produces k r.2))).map
        (fun r => ⟨r.1, 1, decide (k = r.2 + p.tokens)⟩) := by
    rw [← hone, List.filter_filter, outputs, List.filter_map, List.filter_filter]
    congr 2
    funext r
    exact Bool.and_comm _ _
  have hperm := houts.filter (fun o => decide (o.requestId = q.1))
  rw [hsplit] at hperm
  by_cases hk : p.Produces k q.2
  · rw [List.filter_cons_of_pos (by simpa using hk)] at hperm
    rw [if_pos hk]
    exact List.perm_singleton.1 hperm
  · rw [List.filter_cons_of_neg (by simpa using hk)] at hperm
    rw [if_neg hk]
    exact List.perm_nil.1 hperm

theorem Asks.tokensOf_answers {a : SampleArgs} (h : p.Asks a) {outs : List StepOutput} {k : Nat}
    (houts : outs.Perm (p.outputs a.requestIds k)) {q : Text × Nat} (hq : q ∈ a.requestIds.zip p.starts) :
    tokensOf q.1 outs = if p.Produces k q.2 then 1 else 0 := by
  unfold tokensOf
  rw [h.answers houts hq]
  split <;> rfl

theorem Asks.finishedIn_answers {a : SampleArgs} (h : p.Asks a) {outs : List StepOutput} {k : Nat}
    (houts : outs.Perm (p.outputs a.requestIds k)) {q : Text × Nat} (hq : q ∈ a.requestIds.zip p.starts) :
    finishedIn q.1 outs = decide (k = q.2 + p.tokens) := by
  unfold finishedIn
  rw [← List.any_filter, h.answers houts hq]
  split
  · simp
  · rename_i hk
    have := p.overlap
    unfold Produces at hk
    rw [List.any_nil, eq_comm, decide_eq_false_iff_not]
    omega

/-! ## The window on schedule -/

/-- After `k` steps the window counts what the schedule says. -/
def OnSchedule (p : Stagger) (a : SampleArgs) (k : Nat) (w : Window) : Prop :=
  ∃ outs, Counts a outs w ∧ ∀ q ∈ a.requestIds.zip p.starts,
    tokensOf q.1 outs = p.generated k q.2 ∧ finishedIn q.1 outs = decide (q.2 + p.tokens ≤ k)

theorem onSchedule_initial (p : Stagger) (a : SampleArgs) : p.OnSchedule a 0 (Window.initial a.requestIds) := by
  refine ⟨[], counts_initial a, fun q _ => ⟨?_, ?_⟩⟩
  · show (0 : Int) = (min p.tokens (0 - q.2) : Nat)
    rw [Nat.zero_sub, Nat.min_zero]
    rfl
  · have := p.overlap
    show false = _
    rw [eq_comm, decide_eq_false_iff_not]
    omega

/-- **A step's answers keep the window on schedule.** -/
theorem onSchedule_step {a : SampleArgs} {k : Nat} {w : Window} {outs : List StepOutput} (hasks : p.Asks a)
    (h : p.OnSchedule a k w) (houts : outs.Perm (p.outputs a.requestIds (k + 1))) :
    ∃ w', Window.absorbAll outs w = .ok w' ∧ p.OnSchedule a (k + 1) w' ∧ SameReadings w w' := by
  obtain ⟨before, hc, hq⟩ := h
  have hknown : ∀ o ∈ outs, o.requestId ∈ a.requestIds ∧ 0 ≤ o.newTokens := by
    intro o ho
    obtain ⟨q, hmem, rfl⟩ := List.mem_map.1 (houts.mem_iff.1 ho)
    exact ⟨(List.of_mem_zip (List.mem_filter.1 hmem).1).1, Int.one_nonneg⟩
  obtain ⟨w', habs, hc', hsame⟩ := absorbAll_known outs hc hknown
  refine ⟨w', habs, ⟨before ++ outs, hc', fun q hmem => ⟨?_, ?_⟩⟩, hsame⟩
  · rw [tokensOf_append, (hq q hmem).1, hasks.tokensOf_answers houts hmem, p.generated_succ]
    split <;> simp
  · rw [finishedIn_append, (hq q hmem).2, hasks.finishedIn_answers houts hmem, ← Bool.decide_or, decide_eq_decide]
    omega

namespace OnSchedule

variable {a : SampleArgs} {k : Nat} {w : Window}

theorem tokens_eq (h : p.OnSchedule a k w) {q : Text × Nat} (hq : q ∈ a.requestIds.zip p.starts) :
    w.tokens q.1 = p.generated k q.2 := by
  obtain ⟨outs, hc, hall⟩ := h
  rw [hc.tokens_eq (List.of_mem_zip hq).1, (hall q hq).1]

theorem isFinished_eq (h : p.OnSchedule a k w) {q : Text × Nat} (hq : q ∈ a.requestIds.zip p.starts) :
    w.isFinished q.1 = decide (q.2 + p.tokens ≤ k) := by
  obtain ⟨outs, hc, hall⟩ := h
  rw [hc.isFinished_eq (List.of_mem_zip hq).1, (hall q hq).2]

theorem anyFinished_eq (h : p.OnSchedule a k w) (hasks : p.Asks a) : w.anyFinished = decide (p.tokens ≤ k) := by
  obtain ⟨outs, hc, hall⟩ := h
  by_cases hk : p.tokens ≤ k
  · rw [decide_eq_true hk]
    obtain ⟨rid, hr, hmem⟩ := hasks.exists_id p.firstMem
    by_contra hno
    have hfin := hc.anyFinished_false.1 (Bool.eq_false_iff.2 hno) rid hr
    rw [(hall _ hmem).2, decide_eq_false_iff_not] at hfin
    exact hfin (by omega)
  · rw [decide_eq_false hk, hc.anyFinished_false]
    intro rid hr
    obtain ⟨start, hmem⟩ := hasks.exists_start hr
    rw [(hall _ hmem).2, decide_eq_false_iff_not]
    omega

theorem allFinished_eq (h : p.OnSchedule a k w) (hasks : p.Asks a) :
    w.allFinished = decide (p.last + p.tokens ≤ k) := by
  obtain ⟨outs, hc, hall⟩ := h
  rw [Bool.eq_iff_iff, hc.allFinished_iff, decide_eq_true_eq]
  constructor
  · intro hfin
    obtain ⟨rid, hr, hmem⟩ := hasks.exists_id p.lastMem
    have hlast := hfin rid hr
    rwa [(hall _ hmem).2, decide_eq_true_eq] at hlast
  · intro hk rid hr
    obtain ⟨start, hmem⟩ := hasks.exists_start hr
    have := p.leLast start (List.of_mem_zip hmem).2
    rw [(hall _ hmem).2, decide_eq_true_eq]
    omega

/-- Every unfinished request has a token once the last one has started; until then none has finished. -/
theorem scheduled_eq (h : p.OnSchedule a k w) (hasks : p.Asks a) : w.scheduled a = decide (p.last < k) := by
  have hoverlap := p.overlap
  rw [Bool.eq_iff_iff, Window.scheduled, Window.active, List.all_eq_true, decide_eq_true_eq]
  constructor
  · intro hall
    obtain ⟨rid, hr, hmem⟩ := hasks.exists_id p.lastMem
    by_contra hk
    have hactive : rid ∈ a.requestIds.filter (fun rid => !w.isFinished rid) := by
      refine List.mem_filter.2 ⟨hr, ?_⟩
      rw [h.isFinished_eq hmem, decide_eq_false (by show ¬ p.last + p.tokens ≤ k; omega)]
      rfl
    have htok := hall rid hactive
    rw [h.tokens_eq hmem, decide_eq_true_eq] at htok
    unfold generated at htok
    omega
  · intro hk rid hr
    obtain ⟨start, hmem⟩ := hasks.exists_start (List.mem_filter.1 hr).1
    have hle := p.leLast start (List.of_mem_zip hmem).2
    rw [h.tokens_eq hmem, decide_eq_true_eq]
    exact_mod_cast p.generated_pos (by omega)

theorem liveTokens_eq (h : p.OnSchedule a k w) (hasks : p.Asks a) : w.liveTokens a = (p.starts.map (p.liveBy k)).sum := by
  have hzip : a.requestIds.zip a.promptLens = (a.requestIds.zip p.starts).map (fun q => (q.1, p.seqLen)) := by
    rw [hasks.lens, ← List.map_const', List.zip_map_right]
    rfl
  have hstarts : p.starts.map (p.liveBy k) = (a.requestIds.zip p.starts).map (fun q => p.liveBy k q.2) := by
    conv_lhs => rw [← hasks.zip_snd]
    rw [List.map_map]
    rfl
  unfold Window.liveTokens
  rw [hzip, List.filter_map, List.map_map, sum_map_filter, hstarts]
  refine congrArg List.sum (List.map_congr_left (fun q hq => ?_))
  simp only [Function.comp_apply, h.isFinished_eq hq, h.tokens_eq hq]
  unfold liveBy length
  by_cases hk : k < q.2 + p.tokens
  · rw [if_pos hk, if_pos (by simpa using hk)]
  · rw [if_neg hk, if_neg (by simpa using hk)]

/-- While none has finished the window's live count is the batch's. -/
theorem liveTokens_alive (h : p.OnSchedule a k w) (hasks : p.Asks a) (hk : k < p.tokens) :
    w.liveTokens a = p.live k := by
  rw [h.liveTokens_eq hasks]
  refine congrArg List.sum (List.map_congr_left (fun start _ => ?_))
  unfold liveBy
  rw [if_pos (by omega)]

/-- **The block gate never fires on schedule.** -/
theorem gate_ok (h : p.OnSchedule a k w) (hasks : p.Asks a) (gate : Gate) :
    checkBlockConsistency (p.held k) (w.liveTokens a) a.batch a.blockSize (w.scheduled a) gate = .ok () := by
  have hnonneg : 0 ≤ p.held k := p.held_nonneg k
  have hhi := p.held_le k
  unfold checkBlockConsistency
  simp only [h.liveTokens_eq hasks, h.scheduled_eq hasks, SampleArgs.batch, hasks.ids, hasks.blocks]
  rw [if_neg (by omega), if_neg (by omega)]
  by_cases hk : p.last < k
  · have hlo := p.le_held hk
    rw [if_neg (by simpa [hk] using hlo)]
  · rw [if_neg (by simp [hk])]

end OnSchedule

end Stagger

end GoodputLab
