import GoodputLab.Base.Recency
import GoodputLab.Lmcache
/-!
# LmcacheAccounts — the accounting of the mock tier over whole runs

`Accounts` ties the store to its counters and to the history of uses: the bytes are those of the live entries, the live
hashes are the last ones of the history, and every entry ever inserted is live, was evicted by the store or was evicted by
a caller.  Each call keeps it (`accounts_step`), so every run does, and `stats` always validates (`run_accounts`).
-/
namespace GoodputLab
namespace MockLmcacheClient

/-! ## The history -/

/-- The uses of the hashes not evicted by a caller since, oldest first: a store uses its hash, a lookup uses a live one. -/
def usesAfter (c : MockLmcacheClient) (uses : List Text) : Op → List Text
  | .store k _ => uses ++ [k]
  | .lookup k  => if c.entries.contains k then uses ++ [k] else uses
  | .evict k   => uses.filter (fun j => j ≠ k)

def uses : MockLmcacheClient → List Text → List Op → List Text
  | _, h, []        => h
  | c, h, op :: ops => uses (c.step op) (c.usesAfter h op) ops

def inserts (c : MockLmcacheClient) : Op → Bool
  | .store k _ => !c.entries.contains k
  | _          => false

def removes (c : MockLmcacheClient) : Op → Bool
  | .evict k => c.entries.contains k
  | _        => false

def looksUp (_ : MockLmcacheClient) : Op → Bool
  | .lookup _ => true
  | _         => false

/-- How many calls of a run are of the kind. -/
def countOps (kind : MockLmcacheClient → Op → Bool) : MockLmcacheClient → List Op → Nat
  | _, []        => 0
  | c, op :: ops => (if kind c op then 1 else 0) + countOps kind (c.step op) ops

structure Accounts (c : MockLmcacheClient) (h : List Text) (inserted removed looked : Nat) : Prop where
  bytes   : c.usedBytes = c.entries.values.sum
  sizes   : ∀ size ∈ c.entries.values, 0 ≤ size
  room    : (c.entries.size : Int) ≤ c.capacity
  recent  : c.entries.keys <:+ h.dedup
  evicted : c.evictions + c.entries.size + removed = inserted
  looked  : c.hits + c.misses = looked

/-! ## The loop of `store` -/

/-- What the loop keeps and what it reaches: a store with room whose keys are the last ones of the old store's. -/
structure MadeRoom (c c' : MockLmcacheClient) : Prop where
  config    : c'.capacity = c.capacity ∧ c'.hits = c.hits ∧ c'.misses = c.misses
  bytes     : c'.usedBytes - c'.entries.values.sum = c.usedBytes - c.entries.values.sum
  evictions : c'.evictions + c'.entries.size = c.evictions + c.entries.size
  entries   : c'.entries.items <:+ c.entries.items
  room      : (c'.entries.size : Int) < c.capacity

theorem makeRoom_spec : ∀ (n : Nat) (c : MockLmcacheClient), 1 ≤ c.capacity → c.entries.size < n →
    ∃ c', makeRoom n c = .ok c' ∧ MadeRoom c c'
  | 0, c, _, hn => by omega
  | n + 1, c, hcap, hn => by
    unfold makeRoom
    by_cases hfull : c.capacity ≤ c.entries.size
    · rw [if_pos hfull]
      cases hitems : c.entries.items with
      | nil =>
        have hsize : c.entries.size = 0 := by rw [OrdDict.size, hitems, List.length_nil]
        omega
      | cons x rest =>
        have hpop : c.entries.popFirst.items = rest := by
          rw [show c.entries.popFirst.items = c.entries.items.tail from rfl, hitems, List.tail_cons]
        have hsize : c.entries.size = c.entries.popFirst.size + 1 := by
          rw [OrdDict.size, OrdDict.size, hpop, hitems, List.length_cons]
        have hsum : c.entries.values.sum = x.2 + c.entries.popFirst.values.sum := by
          rw [OrdDict.values, OrdDict.values, hpop, hitems, List.map_cons, List.sum_cons]
        obtain ⟨c', hok, hroom⟩ := makeRoom_spec n { c with
          entries := c.entries.popFirst, usedBytes := c.usedBytes - x.2, evictions := c.evictions + 1 } hcap
          (show c.entries.popFirst.size < n by omega)
        refine ⟨c', hok, hroom.config, ?_, ?_, ?_, hroom.room⟩
        · have h := hroom.bytes
          simp only at h
          omega
        · have h := hroom.evictions
          simp only at h
          omega
        · exact hroom.entries.trans (List.tail_suffix _)
    · rw [if_neg hfull]
      exact ⟨c, rfl, ⟨rfl, rfl, rfl⟩, rfl, rfl, List.suffix_rfl, not_le.1 hfull⟩

/-! ## The calls -/

/-- Renewing a live hash changes its place only. -/
theorem accounts_renewed {c : MockLmcacheClient} {h : List Text} {inserted removed looked looked' : Nat} {k : Text}
    (hacc : Accounts c h inserted removed looked) (hk : c.entries.contains k = true) (c' : MockLmcacheClient)
    (hcap : c'.capacity = c.capacity) (hentries : c'.entries = c.entries.moveToEnd k)
    (hbytes : c'.usedBytes = c.usedBytes) (hevict : c'.evictions = c.evictions)
    (hlooked : c'.hits + c'.misses = looked') : Accounts c' (h ++ [k]) inserted removed looked' := by
  obtain ⟨v, hv⟩ := (OrdDict.contains_iff _ _).1 hk
  have hperm := OrdDict.values_moveToEnd hv
  have hsize : c'.entries.size = c.entries.size := by rw [hentries, OrdDict.size_moveToEnd hv]
  refine ⟨?_, fun size hs => hacc.sizes size ?_, ?_, ?_, ?_, hlooked⟩
  · rw [hbytes, hacc.bytes, hentries, hperm.sum_eq]
  · rw [hentries] at hs
    exact hperm.subset hs
  · rw [hsize, hcap]
    exact hacc.room
  · rw [hentries, OrdDict.keys_moveToEnd ((OrdDict.mem_keys _ _).2 ⟨v, hv⟩), Recency.dedup_concat]
    obtain ⟨old, hold⟩ := hacc.recent.filter (fun j => decide (j ≠ k))
    exact ⟨old, by rw [← List.append_assoc, hold]⟩
  · rw [hevict, hsize]
    exact hacc.evicted

theorem accounts_inserted {c : MockLmcacheClient} {h : List Text} {inserted removed looked : Nat} {k : Text} {size : Int}
    (hacc : Accounts c h inserted removed looked) (hk : c.entries.contains k = false) (hsize : 0 ≤ size)
    {c' : MockLmcacheClient} (hroom : MadeRoom c c') :
    Accounts { c' with entries := c'.entries.set k size, usedBytes := c'.usedBytes + size } (h ++ [k]) (inserted + 1)
      removed looked := by
  have hgone : c'.entries.get? k = none := by
    rw [OrdDict.get?_eq_none]
    intro hmem
    have hold : k ∈ c.entries.keys := (hroom.entries.map Prod.fst).subset hmem
    obtain ⟨v, hv⟩ := (OrdDict.mem_keys _ _).1 hold
    rw [(OrdDict.contains_iff _ _).2 ⟨v, hv⟩] at hk
    cases hk
  have hnew := (OrdDict.get?_eq_none _ _).1 hgone
  have hvalues := OrdDict.values_set_of_notMem c'.entries size hgone
  have hlen := OrdDict.size_set_of_notMem c'.entries size hgone
  obtain ⟨hcap, hhits, hmisses⟩ := hroom.config
  have hbytes := hroom.bytes
  have hevict := hroom.evictions
  have hfree := hroom.room
  refine ⟨?_, fun s hs => ?_, ?_, ?_, ?_, ?_⟩
  · simp only [hvalues, List.sum_append, List.sum_singleton]
    have := hacc.bytes
    omega
  · simp only [hvalues, List.mem_append, List.mem_singleton] at hs
    rcases hs with hs | rfl
    · exact hacc.sizes s ((hroom.entries.map Prod.snd).subset hs)
    · exact hsize
  · simp only [hlen, hcap]
    push_cast
    omega
  · -- the keys that stayed are the last of the history, and the new one was not among them
    simp only [OrdDict.keys_set, if_neg hnew, Recency.dedup_concat]
    have hkept : c'.entries.keys.filter (fun j => j ≠ k) = c'.entries.keys := Recency.filter_ne_of_notMem hnew
    obtain ⟨old, hold⟩ := ((hroom.entries.map Prod.fst).trans hacc.recent).filter (fun j => decide (j ≠ k))
    refine ⟨old, ?_⟩
    rw [← List.append_assoc, ← hold]
    exact congrArg (fun l => old ++ l ++ [k]) hkept.symm
  · simp only [hlen]
    have := hacc.evicted
    omega
  · simp only [hhits, hmisses]
    exact hacc.looked

theorem accounts_evict {c : MockLmcacheClient} {h : List Text} {inserted removed looked : Nat} (k : Text)
    (hacc : Accounts c h inserted removed looked) :
    Accounts (c.evict k) (h.filter (fun j => j ≠ k)) inserted (removed + if c.entries.contains k then 1 else 0)
      looked := by
  unfold evict
  cases hv : c.entries.get? k with
  | none =>
    have hcontains : c.entries.contains k = false := by rw [OrdDict.contains, hv, Option.isSome_none]
    rw [hcontains]
    refine ⟨hacc.bytes, hacc.sizes, hacc.room, ?_, hacc.evicted, hacc.looked⟩
    rw [Recency.dedup_filter, ← Recency.filter_ne_of_notMem ((OrdDict.get?_eq_none _ _).1 hv)]
    exact hacc.recent.filter _
  | some size =>
    have hcontains : c.entries.contains k = true := (OrdDict.contains_iff _ _).2 ⟨size, hv⟩
    rw [hcontains]
    obtain ⟨before, rest, hitems, herased⟩ := OrdDict.exists_split_erase hv
    have hbytes := hacc.bytes
    have hsizes := hacc.sizes
    have hroom := hacc.room
    have hevicted := hacc.evicted
    simp only [OrdDict.values, OrdDict.size, hitems, List.map_append, List.map_cons, List.sum_append, List.sum_cons,
      List.length_append, List.length_cons, List.mem_append, List.mem_cons] at hbytes hsizes hroom hevicted
    refine ⟨?_, fun s hs => ?_, ?_, ?_, ?_, hacc.looked⟩
    · simp only [OrdDict.values, herased, List.map_append, List.sum_append]
      omega
    · simp only [OrdDict.values, herased, List.map_append, List.mem_append] at hs
      exact hsizes s (hs.imp id Or.inr)
    · simp only [OrdDict.size, herased, List.length_append]
      push_cast at hroom ⊢
      omega
    · rw [Recency.dedup_filter]
      simp only [OrdDict.keys_erase]
      exact hacc.recent.filter _
    · simp only [OrdDict.size, herased, List.length_append, if_true]
      omega

theorem lookup_cases (c : MockLmcacheClient) (k : Text) :
    let c' := (c.lookup k).2
    c'.capacity = c.capacity ∧ c'.entries = (if c.entries.contains k then c.entries.moveToEnd k else c.entries) ∧
      c'.usedBytes = c.usedBytes ∧ c'.evictions = c.evictions ∧ c'.hits + c'.misses = c.hits + c.misses + 1 := by
  intro c'
  show (c.lookup k).2.capacity = _ ∧ _
  unfold c' lookup
  split
  · simp only
    split
    · exact ⟨rfl, rfl, rfl, rfl, by simp only; omega⟩
    · exact ⟨rfl, rfl, rfl, rfl, by simp only; omega⟩
  · exact ⟨rfl, rfl, rfl, rfl, by simp only; omega⟩

theorem accounts_store {c : MockLmcacheClient} {h : List Text} {inserted removed looked : Nat} (hcap : 1 ≤ c.capacity)
    (hacc : Accounts c h inserted removed looked) (k : Text) {size : Int} (hsize : 0 ≤ size) :
    ∃ c', c.store k size = .ok c' ∧ c'.capacity = c.capacity ∧
      Accounts c' (h ++ [k]) (inserted + if c.entries.contains k then 0 else 1) removed looked := by
  cases hk : c.entries.contains k with
  | true =>
    have hstore : c.store k size = .ok { c with entries := c.entries.moveToEnd k } := by simp [store, hk]
    exact ⟨_, hstore, rfl, accounts_renewed hacc hk _ rfl rfl rfl rfl hacc.looked⟩
  | false =>
    obtain ⟨c', hok, hroom⟩ := makeRoom_spec (c.entries.size + 1) c hcap (Nat.lt_succ_self _)
    have hstore : c.store k size =
        .ok { c' with entries := c'.entries.set k size, usedBytes := c'.usedBytes + size } := by simp [store, hk, hok]
    exact ⟨_, hstore, hroom.config.1, accounts_inserted hacc hk hsize hroom⟩

theorem accounts_lookup {c : MockLmcacheClient} {h : List Text} {inserted removed looked : Nat}
    (hacc : Accounts c h inserted removed looked) (k : Text) :
    Accounts (c.lookup k).2 (if c.entries.contains k then h ++ [k] else h) inserted removed (looked + 1) := by
  obtain ⟨hcapacity, hentries, hbytes, hevict, hlooked⟩ := lookup_cases c k
  rw [hacc.looked] at hlooked
  cases hk : c.entries.contains k with
  | true =>
    rw [hk, if_pos rfl] at hentries
    exact accounts_renewed hacc hk _ hcapacity hentries hbytes hevict hlooked
  | false =>
    rw [hk, if_neg Bool.false_ne_true] at hentries
    refine ⟨?_, ?_, ?_, ?_, ?_, hlooked⟩
    · rw [hbytes, hentries]
      exact hacc.bytes
    · rw [hentries]
      exact hacc.sizes
    · rw [hentries, hcapacity]
      exact hacc.room
    · rw [hentries]
      exact hacc.recent
    · rw [hevict, hentries]
      exact hacc.evicted

/-- **Every call returns and keeps the accounts.** -/
theorem accounts_step {c : MockLmcacheClient} {h : List Text} {inserted removed looked : Nat} (hcap : 1 ≤ c.capacity)
    (hacc : Accounts c h inserted removed looked) (op : Op) (hsize : ∀ k size, op = .store k size → 0 ≤ size) :
    c.apply op = .ok (c.step op) ∧ (c.step op).capacity = c.capacity ∧
      Accounts (c.step op) (c.usesAfter h op) (inserted + if c.inserts op then 1 else 0)
        (removed + if c.removes op then 1 else 0) (looked + if c.looksUp op then 1 else 0) := by
  cases op with
  | store k size =>
    obtain ⟨c', hstore, hcapacity, hend⟩ := accounts_store hcap hacc k (hsize k size rfl)
    have happly : c.apply (.store k size) = .ok c' := hstore
    have hstep : c.step (.store k size) = c' := by simp [step, happly]
    have hcount : (if c.inserts (.store k size) then 1 else 0) = if c.entries.contains k then 0 else 1 := by
      cases hk : c.entries.contains k <;> simp [inserts, hk]
    rw [hstep, hcount]
    exact ⟨happly, hcapacity, hend⟩
  | lookup k =>
    rw [show c.step (.lookup k) = (c.lookup k).2 from rfl]
    exact ⟨rfl, (lookup_cases c k).1, accounts_lookup hacc k⟩
  | evict k =>
    rw [show c.step (.evict k) = c.evict k from rfl]
    have hcapacity : (c.evict k).capacity = c.capacity := by
      unfold evict
      split <;> rfl
    exact ⟨rfl, hcapacity, accounts_evict k hacc⟩

/-! ## Runs -/

/-- **Every run keeps the accounts**, and none of its calls raises. -/
theorem accounts_run : ∀ (ops : List Op) {c : MockLmcacheClient} {h : List Text} {inserted removed looked : Nat},
    1 ≤ c.capacity → Accounts c h inserted removed looked → (∀ k size, Op.store k size ∈ ops → 0 ≤ size) →
    (∀ p op q, ops = p ++ op :: q → ∃ c', (Runs.run step c p).apply op = .ok c') ∧
    (Runs.run step c ops).capacity = c.capacity ∧
    Accounts (Runs.run step c ops) (uses c h ops) (inserted + countOps inserts c ops) (removed + countOps removes c ops)
      (looked + countOps looksUp c ops)
  | [], c, h, inserted, removed, looked, _, hacc, _ => ⟨Runs.forall_split_nil, rfl, hacc⟩
  | op :: ops, c, h, inserted, removed, looked, hcap, hacc, hsizes => by
    obtain ⟨happly, hkeep, hstep⟩ := accounts_step hcap hacc op
      (fun k size hop => hsizes k size (by rw [hop]; exact List.mem_cons_self))
    obtain ⟨hrest, hkeep', hend⟩ := accounts_run ops (by rw [hkeep]; exact hcap) hstep
      (fun k size hm => hsizes k size (List.mem_cons_of_mem _ hm))
    refine ⟨Runs.forall_split_cons.2 ⟨⟨_, happly⟩, hrest⟩, hkeep'.trans hkeep, ?_⟩
    rw [Nat.add_assoc, Nat.add_assoc, Nat.add_assoc] at hend
    exact hend

theorem stats_of_accounts {c : MockLmcacheClient} {h : List Text} {inserted removed looked : Nat} (hcap : 0 ≤ c.capacity)
    (hacc : Accounts c h inserted removed looked) :
    ∃ s, c.stats = some s ∧ s.usedBytes = c.usedBytes ∧ s.capacityBytes = c.capacity * 4096 := by
  have hbytes : 0 ≤ c.usedBytes := by
    rw [hacc.bytes]
    exact List.sum_nonneg hacc.sizes
  have hrate : ∀ rate : ℚ, (rate = if 0 < c.hits + c.misses then (c.hits : ℚ) / ((c.hits + c.misses : Nat) : ℚ) else 0) →
      0 ≤ rate ∧ rate ≤ 1 := by
    rintro rate rfl
    split
    · refine ⟨div_nonneg (Nat.cast_nonneg _) (Nat.cast_nonneg _), div_le_one_of_le₀ ?_ (Nat.cast_nonneg _)⟩
      exact_mod_cast Nat.le_add_right _ _
    · exact ⟨le_refl _, zero_le_one⟩
  unfold stats KvStats.make?
  rw [dif_pos ⟨hrate _ rfl, Int.natCast_nonneg _, Int.natCast_nonneg _, by omega, hbytes, Int.natCast_nonneg _⟩]
  exact ⟨_, rfl, rfl, rfl⟩

/-- **The accounting is exact.**  After any calls of a fresh client of capacity at least one, with sizes that are not
negative and any draws, no call has raised and: the used bytes are those of the live entries; there are at most `capacity`
of them; they are the last of the distinct uses of hashes not evicted by a caller; the store's evictions are the inserted
entries less the live and the evicted ones; hits and misses are the lookups; and `stats` validates. -/
theorem run_accounts (capacity : Int) (hitProbability : ℚ) (random : Nat → ℚ) (ops : List Op) (hcap : 1 ≤ capacity)
    (hsizes : ∀ k size, Op.store k size ∈ ops → 0 ≤ size) :
    let start := fresh capacity hitProbability random
    let c := Runs.run step start ops
    (∀ p op q, ops = p ++ op :: q → ∃ c', (Runs.run step start p).apply op = .ok c') ∧
    c.usedBytes = c.entries.values.sum ∧ (c.entries.size : Int) ≤ capacity ∧
    c.entries.keys = Recency.recent c.entries.size (uses start [] ops) ∧
    (c.evictions : Int) = countOps inserts start ops - c.entries.size - countOps removes start ops ∧
    c.hits + c.misses = countOps looksUp start ops ∧ ∃ s, c.stats = some s := by
  intro start c
  have hroom : ((OrdDict.empty : OrdDict Text Int).size : Int) ≤ capacity := le_trans zero_le_one hcap
  have hstart : Accounts start [] 0 0 0 := ⟨rfl, fun _ hs => (by cases hs), hroom, List.suffix_rfl, rfl, rfl⟩
  obtain ⟨hok, hkeep, hacc⟩ := accounts_run ops hcap hstart hsizes
  have hevicted : c.evictions + c.entries.size + countOps removes start ops = countOps inserts start ops := by
    have h := hacc.evicted
    rwa [Nat.zero_add, Nat.zero_add] at h
  have hlooked : c.hits + c.misses = countOps looksUp start ops := by
    have h := hacc.looked
    rwa [Nat.zero_add] at h
  have hlast : c.entries.keys = Recency.recent c.entries.keys.length (uses start [] ops) :=
    Recency.eq_rtake_of_suffix hacc.recent
  obtain ⟨s, hs, -⟩ := stats_of_accounts (by rw [hkeep]; exact le_trans zero_le_one hcap) hacc
  refine ⟨hok, hacc.bytes, ?_, ?_, by omega, hlooked, s, hs⟩
  · rw [← show c.capacity = capacity from hkeep]
    exact hacc.room
  · rw [OrdDict.size_eq_length_keys]
    exact hlast

/-- Two slots, four stores of which one renews and one pushes out, two lookups, two evictions of which one finds nothing. -/
def tierOps : List Op :=
  [.store "a".toList 10, .store "b".toList 20, .lookup "a".toList, .store "a".toList 99, .store "c".toList 30,
    .lookup "b".toList, .evict "b".toList, .evict "a".toList]

theorem tierOps_accounts :
    let start := fresh 2 (1 / 2) (fun _ => 0)
    let c := Runs.run step start tierOps
    (∀ p op q, tierOps = p ++ op :: q → ∃ c', (Runs.run step start p).apply op = .ok c') ∧
    c.usedBytes = c.entries.values.sum ∧ (c.entries.size : Int) ≤ 2 ∧
    c.entries.keys = Recency.recent c.entries.size (uses start [] tierOps) ∧
    (c.evictions : Int) = countOps inserts start tierOps - c.entries.size - countOps removes start tierOps ∧
    c.hits + c.misses = countOps looksUp start tierOps ∧ ∃ s, c.stats = some s :=
  run_accounts 2 (1 / 2) (fun _ => 0) tierOps (by decide) (fun k size h => by
    simp only [tierOps, List.mem_cons, Op.store.injEq, List.not_mem_nil, or_false, reduceCtorEq, false_or] at h
    rcases h with ⟨-, rfl⟩ | ⟨-, rfl⟩ | ⟨-, rfl⟩ | ⟨-, rfl⟩ <;> decide)

example : (Runs.run step (fresh 2 (1 / 2) (fun _ => 0)) tierOps).evictions = 1 := by decide +kernel

end MockLmcacheClient
end GoodputLab
