import GoodputLab.LmcacheAccounts
/-!
# LmcacheCapacity — when the mock tier stays within its capacity (`kv/lmcache_client.py`)

The store keeps at most `capacity` entries, of any size, and `stats` reports a capacity of 4096 bytes an entry.  So a call
leaves the tier within its capacity just when what it keeps and what it adds fit (`within_iff`), and a run just when each of
its calls does (`run_within_iff`).  A tier of capacity at least one whose entries have the default size or less is always
within; a larger size, or a store on a tier without entries, is not (`tier_within`).
-/
namespace GoodputLab
namespace MockLmcacheClient

/-- The call does not raise, and `stats` reports after it between nothing and the capacity. -/
def Within (c : MockLmcacheClient) (op : Op) : Prop :=
  ∃ c' s, c.apply op = .ok c' ∧ c'.stats = some s ∧ 0 ≤ s.usedBytes ∧ s.usedBytes ≤ s.capacityBytes

/-- The entries a store of a new hash keeps: the oldest one goes when the tier is full. -/
def kept (c : MockLmcacheClient) : OrdDict Text Int :=
  if c.capacity ≤ c.entries.size then c.entries.popFirst else c.entries

/-- The tier has room for what the call adds. -/
def Fits (c : MockLmcacheClient) : Op → Prop
  | .store k size =>
    c.entries.contains k = true ∨ 1 ≤ c.capacity ∧ c.kept.values.sum + size ≤ c.capacity * 4096
  | _             => 0 ≤ c.capacity

/-- No call of the run raises, and after each of them `stats` reports within the capacity. -/
def StaysWithin (c : MockLmcacheClient) (ops : List Op) : Prop :=
  ∀ p op q, ops = p ++ op :: q → (Runs.run step c p).Within op

def FitsAlong (c : MockLmcacheClient) (ops : List Op) : Prop :=
  ∀ p op q, ops = p ++ op :: q → (Runs.run step c p).Fits op

/-! ## What a store keeps -/

/-- A tier with no more entries than its capacity drops one entry at most. -/
theorem makeRoom_kept {c : MockLmcacheClient} (hcap : 1 ≤ c.capacity) (hroom : (c.entries.size : Int) ≤ c.capacity) :
    ∃ c', makeRoom (c.entries.size + 1) c = .ok c' ∧ c'.entries = c.kept := by
  unfold makeRoom kept
  by_cases hfull : c.capacity ≤ c.entries.size
  · rw [if_pos hfull, if_pos hfull]
    cases hitems : c.entries.items with
    | nil =>
      have hsize : c.entries.size = 0 := by rw [OrdDict.size, hitems, List.length_nil]
      omega
    | cons x rest =>
      have hsize : c.entries.size = c.entries.popFirst.size + 1 := by
        rw [OrdDict.size, OrdDict.size, show c.entries.popFirst.items = c.entries.items.tail from rfl, hitems,
          List.tail_cons, List.length_cons]
      refine ⟨{ c with
        entries := c.entries.popFirst, usedBytes := c.usedBytes - x.2, evictions := c.evictions + 1 }, ?_, rfl⟩
      rw [hsize]
      exact if_neg (show ¬ c.capacity ≤ (c.entries.popFirst.size : Int) by omega)
  · rw [if_neg hfull, if_neg hfull]
    exact ⟨c, rfl, rfl⟩

section Step

variable {c : MockLmcacheClient} {h : List Text} {inserted removed looked : Nat}
  (hacc : Accounts c h inserted removed looked)

include hacc

/-- Used bytes are what a tier within its accounts reports. -/
theorem stats_within_iff (hcap : 0 ≤ c.capacity) :
    (∃ s, c.stats = some s ∧ 0 ≤ s.usedBytes ∧ s.usedBytes ≤ s.capacityBytes) ↔ c.usedBytes ≤ c.capacity * 4096 := by
  obtain ⟨s, hs, hused, hcapacity⟩ := stats_of_accounts hcap hacc
  constructor
  · rintro ⟨s', hs', -, hle⟩
    rw [hs] at hs'
    cases hs'
    rwa [← hused, ← hcapacity]
  · intro hle
    refine ⟨s, hs, ?_, by rwa [hused, hcapacity]⟩
    rw [hused, hacc.bytes]
    exact List.sum_nonneg hacc.sizes

theorem store_kept (hcap : 1 ≤ c.capacity) {k : Text} (hk : c.entries.contains k = false) (size : Int) :
    ∃ c', c.store k size = .ok c' ∧ c'.entries = c.kept.set k size ∧ c'.usedBytes = c.kept.values.sum + size := by
  obtain ⟨c', hok, hentries⟩ := makeRoom_kept hcap hacc.room
  obtain ⟨c'', hok', hmade⟩ := makeRoom_spec (c.entries.size + 1) c hcap (Nat.lt_succ_self _)
  rw [hok] at hok'
  cases hok'
  have hstore : c.store k size =
      .ok { c' with entries := c'.entries.set k size, usedBytes := c'.usedBytes + size } := by simp [store, hk, hok]
  refine ⟨_, hstore, by rw [hentries], ?_⟩
  have hbytes := hmade.bytes
  have hold := hacc.bytes
  rw [hentries] at hbytes
  show c'.usedBytes + size = _
  omega

omit hacc in
/-- A tier without entries has nothing to drop. -/
theorem store_raises (hcap : c.capacity ≤ 0) {k : Text} (hempty : c.entries.items = []) (size : Int) :
    ∃ e, c.store k size = .error e := by
  have hget : c.entries.contains k = false := by
    cases hk : c.entries.contains k with
    | false => rfl
    | true =>
      obtain ⟨v, hv⟩ := (OrdDict.contains_iff _ _).1 hk
      have hmem := (OrdDict.mem_keys _ _).2 ⟨v, hv⟩
      rw [OrdDict.keys, hempty] at hmem
      cases hmem
  have hsize : c.entries.size = 0 := by rw [OrdDict.size, hempty, List.length_nil]
  have hfull : c.capacity ≤ (c.entries.size : Int) := by omega
  refine ⟨"KeyError: 'dictionary is empty'", ?_⟩
  simp [store, hget, makeRoom, hfull, hempty]

theorem items_eq_nil_of_zero (hcap : c.capacity = 0) : c.entries.items = [] := by
  have hroom := hacc.room
  rw [hcap] at hroom
  apply List.length_eq_zero_iff.1
  show c.entries.size = 0
  omega

theorem capacity_pos (hcap : 0 ≤ c.capacity) {k : Text} (hk : c.entries.contains k = true) : 1 ≤ c.capacity := by
  by_contra hnot
  have hempty := items_eq_nil_of_zero hacc (by omega)
  obtain ⟨v, hv⟩ := (OrdDict.contains_iff _ _).1 hk
  have hmem := (OrdDict.mem_items _ _ _).2 hv
  rw [hempty] at hmem
  cases hmem

theorem evict_used_le (k : Text) :
    (c.evict k).capacity = c.capacity ∧ (c.evict k).usedBytes ≤ c.usedBytes := by
  unfold evict
  cases hv : c.entries.get? k with
  | none => exact ⟨rfl, le_refl _⟩
  | some size =>
    have hsize := hacc.sizes size ((OrdDict.mem_values _ _).2 ⟨k, hv⟩)
    exact ⟨rfl, sub_le_self _ hsize⟩

end Step

/-! ## One call -/

/-- A tier with its accounts, within its capacity. -/
structure Tidy (c : MockLmcacheClient) : Prop where
  capacity : 0 ≤ c.capacity
  accounts : ∃ h inserted removed looked, Accounts c h inserted removed looked
  used     : c.usedBytes ≤ c.capacity * 4096

/-- **What a call on a tidy tier does**: it raises for want of room, or returns with the accounts kept, and within the
capacity just when what it adds fits. -/
theorem apply_cases {c : MockLmcacheClient} (htidy : Tidy c) (op : Op) (hsize : ∀ k size, op = .store k size → 0 ≤ size) :
    (∃ e, c.apply op = .error e) ∧ ¬ c.Fits op ∨
      ∃ c', c.apply op = .ok c' ∧ c'.capacity = c.capacity ∧
        (∃ h inserted removed looked, Accounts c' h inserted removed looked) ∧
        (c'.usedBytes ≤ c.capacity * 4096 ↔ c.Fits op) := by
  obtain ⟨hcap, ⟨h, inserted, removed, looked, hacc⟩, hused⟩ := htidy
  cases op with
  | store k size =>
    cases hk : c.entries.contains k with
    | true =>
      obtain ⟨c', hstore, hcapacity, hend⟩ := accounts_store (capacity_pos hacc hcap hk) hacc k (hsize k size rfl)
      have hrenewed : c.store k size = .ok { c with entries := c.entries.moveToEnd k } := by simp [store, hk]
      rw [hrenewed] at hstore
      cases hstore
      exact Or.inr ⟨_, hrenewed, rfl, ⟨_, _, _, _, hend⟩, iff_of_true hused (Or.inl hk)⟩
    | false =>
      rcases hcap.eq_or_lt with hzero | hpos
      · left
        refine ⟨store_raises hzero.ge (items_eq_nil_of_zero hacc hzero.symm) size, ?_⟩
        rintro (hin | ⟨hone, -⟩)
        · rw [hk] at hin
          cases hin
        · omega
      · right
        obtain ⟨c', hstore, hcapacity, hend⟩ := accounts_store hpos hacc k (hsize k size rfl)
        obtain ⟨c'', hstore', -, hbytes⟩ := store_kept hacc hpos hk size
        rw [hstore] at hstore'
        cases hstore'
        refine ⟨c', hstore, hcapacity, ⟨_, _, _, _, hend⟩, ?_⟩
        rw [hbytes]
        constructor
        · intro hle
          exact Or.inr ⟨hpos, hle⟩
        · rintro (hin | ⟨-, hle⟩)
          · rw [hk] at hin
            cases hin
          · exact hle
  | lookup k =>
    obtain ⟨hcapacity, -, hbytes, -⟩ := lookup_cases c k
    exact Or.inr ⟨_, rfl, hcapacity, ⟨_, _, _, _, accounts_lookup hacc k⟩, iff_of_true (hbytes ▸ hused) hcap⟩
  | evict k =>
    obtain ⟨hcapacity, hbytes⟩ := evict_used_le hacc k
    exact Or.inr ⟨_, rfl, hcapacity, ⟨_, _, _, _, accounts_evict k hacc⟩, iff_of_true (hbytes.trans hused) hcap⟩

/-- **A call stays within the capacity just when what it adds fits.** -/
theorem within_iff {c : MockLmcacheClient} (htidy : Tidy c) (op : Op) (hsize : ∀ k size, op = .store k size → 0 ≤ size) :
    c.Within op ↔ c.Fits op := by
  rcases apply_cases htidy op hsize with ⟨⟨e, he⟩, hnot⟩ | ⟨c', hok, hcapacity, ⟨h, i, r, l, hacc⟩, hiff⟩
  · refine iff_of_false ?_ hnot
    rintro ⟨c', s, hok, -⟩
    rw [he] at hok
    cases hok
  · have hreports := stats_within_iff hacc (hcapacity ▸ htidy.capacity)
    rw [hcapacity] at hreports
    rw [← hiff, ← hreports]
    constructor
    · rintro ⟨c'', s, hok', hs⟩
      rw [hok] at hok'
      cases hok'
      exact ⟨s, hs⟩
    · rintro ⟨s, hs⟩
      exact ⟨c', s, hok, hs⟩

theorem tidy_step {c : MockLmcacheClient} (htidy : Tidy c) {op : Op} (hsize : ∀ k size, op = .store k size → 0 ≤ size)
    (hfits : c.Fits op) : Tidy (c.step op) := by
  rcases apply_cases htidy op hsize with ⟨-, hnot⟩ | ⟨c', hok, hcapacity, hacc, hiff⟩
  · exact absurd hfits hnot
  · have hstep : c.step op = c' := by simp [step, hok]
    rw [hstep]
    exact ⟨hcapacity ▸ htidy.capacity, hacc, hcapacity ▸ hiff.2 hfits⟩

/-! ## Runs -/

theorem tidy_run_iff : ∀ (ops : List Op) {c : MockLmcacheClient}, Tidy c → (∀ k size, Op.store k size ∈ ops → 0 ≤ size) →
    (StaysWithin c ops ↔ FitsAlong c ops)
  | [], _, _, _ => iff_of_true Runs.forall_split_nil Runs.forall_split_nil
  | op :: ops, c, htidy, hsizes => by
    have hfirst : ∀ k size, op = .store k size → 0 ≤ size :=
      fun k size hop => hsizes k size (by rw [hop]; exact List.mem_cons_self)
    rw [StaysWithin, FitsAlong, Runs.forall_split_cons (P := fun p o => (Runs.run step c p).Within o),
      Runs.forall_split_cons (P := fun p o => (Runs.run step c p).Fits o)]
    apply (and_congr_left' (within_iff htidy op hfirst)).trans
    apply and_congr_right
    intro hfits
    exact tidy_run_iff ops (tidy_step htidy hfirst hfits) (fun k size hm => hsizes k size (List.mem_cons_of_mem _ hm))

theorem fresh_accounts {capacity : Int} (hcap : 0 ≤ capacity) (hitProbability : ℚ) (random : Nat → ℚ) :
    Accounts (fresh capacity hitProbability random) [] 0 0 0 :=
  ⟨rfl, fun _ hs => (by cases hs), hcap, List.suffix_rfl, rfl, rfl⟩

theorem fresh_tidy {capacity : Int} (hcap : 0 ≤ capacity) (hitProbability : ℚ) (random : Nat → ℚ) :
    Tidy (fresh capacity hitProbability random) :=
  ⟨hcap, ⟨_, _, _, _, fresh_accounts hcap hitProbability random⟩, mul_nonneg hcap (by decide)⟩

theorem stats_negative {c : MockLmcacheClient} (hcap : c.capacity < 0) : c.stats = none := by
  unfold stats KvStats.make?
  apply dif_neg
  rintro ⟨-, -, -, hnonneg, -⟩
  omega

/-- **A run stays within the capacity just when each of its calls fits** where it is made: the tier has a capacity, what a
store keeps and what it adds have room in it, or the hash is there already. -/
theorem run_within_iff (capacity : Int) (hitProbability : ℚ) (random : Nat → ℚ) (ops : List Op)
    (hsizes : ∀ k size, Op.store k size ∈ ops → 0 ≤ size) :
    StaysWithin (fresh capacity hitProbability random) ops ↔ FitsAlong (fresh capacity hitProbability random) ops := by
  rcases lt_or_ge capacity 0 with hneg | hcap
  · cases ops with
    | nil => exact iff_of_true Runs.forall_split_nil Runs.forall_split_nil
    | cons op ops =>
      refine iff_of_false (fun h => ?_) (fun h => ?_)
      · obtain ⟨c', s, hok, hs, -⟩ := h [] op ops rfl
        have hkept : c'.capacity = capacity := by
          cases op with
          | store k size =>
            obtain ⟨e, he⟩ := store_raises (c := fresh capacity hitProbability random) (k := k) hneg.le rfl size
            rw [Runs.run_nil, apply, he] at hok
            cases hok
          | lookup k =>
            cases hok
            exact (lookup_cases _ k).1
          | evict k =>
            cases hok
            rfl
        rw [stats_negative (by omega)] at hs
        cases hs
      · have hfits := h [] op ops rfl
        cases op with
        | store k size =>
          rcases hfits with hin | ⟨hone, -⟩
          · cases hin
          · have : 1 ≤ capacity := hone
            omega
        | lookup k => exact absurd hfits (not_le.2 hneg)
        | evict k => exact absurd hfits (not_le.2 hneg)
  · exact tidy_run_iff ops (fresh_tidy hcap hitProbability random) hsizes

/-! ## The sizes that are always within -/

theorem values_kept (c : MockLmcacheClient) : c.kept.values ⊆ c.entries.values := by
  unfold kept
  split
  · exact List.map_subset Prod.snd (List.tail_subset _)
  · exact fun _ h => h

theorem size_kept {c : MockLmcacheClient} (hcap : 1 ≤ c.capacity) (hroom : (c.entries.size : Int) ≤ c.capacity) :
    (c.kept.size : Int) + 1 ≤ c.capacity := by
  unfold kept
  split
  · have hsize : c.entries.popFirst.size = c.entries.size - 1 := List.length_tail
    omega
  · omega

/-- Every entry has the default size or less. -/
def Small (c : MockLmcacheClient) : Prop := ∀ size ∈ c.entries.values, size ≤ 4096

theorem fits_of_small {c : MockLmcacheClient} {h : List Text} {inserted removed looked : Nat} (hcap : 1 ≤ c.capacity)
    (hacc : Accounts c h inserted removed looked) (hsmall : Small c) (op : Op)
    (hsize : ∀ k size, op = .store k size → size ≤ 4096) : c.Fits op := by
  cases op with
  | store k size =>
    have hsum : c.kept.values.sum ≤ c.kept.values.length • (4096 : Int) :=
      List.sum_le_card_nsmul _ _ (fun x hx => hsmall x (values_kept c hx))
    rw [show c.kept.values.length = c.kept.size from List.length_map _, nsmul_eq_mul] at hsum
    have hroom := size_kept hcap hacc.room
    have hnew := hsize k size rfl
    refine Or.inr ⟨hcap, ?_⟩
    linarith
  | lookup k => exact le_trans zero_le_one hcap
  | evict k => exact le_trans zero_le_one hcap

theorem small_of_get? {c c' : MockLmcacheClient} (hsmall : Small c)
    (h : ∀ k v, c'.entries.get? k = some v → v ≤ 4096 ∨ c.entries.get? k = some v) : Small c' := by
  intro v hv
  obtain ⟨k, hk⟩ := (OrdDict.mem_values _ _).1 hv
  rcases h k v hk with hle | hold
  · exact hle
  · exact hsmall v ((OrdDict.mem_values _ _).2 ⟨k, hold⟩)

theorem get?_kept {c : MockLmcacheClient} {k : Text} {v : Int} (h : c.kept.get? k = some v) :
    c.entries.get? k = some v := by
  unfold kept at h
  split at h
  · exact OrdDict.get?_popFirst _ _ _ h
  · exact h

theorem small_step {c : MockLmcacheClient} {h : List Text} {inserted removed looked : Nat} (hcap : 1 ≤ c.capacity)
    (hacc : Accounts c h inserted removed looked) (hsmall : Small c) (op : Op)
    (hsize : ∀ k size, op = .store k size → size ≤ 4096) : Small (c.step op) := by
  apply small_of_get? hsmall
  intro j v hv
  cases op with
  | store k size =>
    cases hk : c.entries.contains k with
    | true =>
      have hstep : c.step (.store k size) = { c with entries := c.entries.moveToEnd k } := by
        simp [step, apply, store, hk]
      rw [hstep, OrdDict.get?_moveToEnd] at hv
      exact Or.inr hv
    | false =>
      obtain ⟨c', hstore, hentries, -⟩ := store_kept hacc hcap hk size
      have hstep : c.step (.store k size) = c' := by simp [step, apply, hstore]
      rw [hstep, hentries, OrdDict.get?_set] at hv
      split at hv
      · cases hv
        exact Or.inl (hsize k _ rfl)
      · exact Or.inr (get?_kept hv)
  | lookup k =>
    have hentries := (lookup_cases c k).2.1
    rw [show c.step (.lookup k) = (c.lookup k).2 from rfl, hentries] at hv
    right
    split at hv
    · rwa [OrdDict.get?_moveToEnd] at hv
    · exact hv
  | evict k =>
    right
    rw [show c.step (.evict k) = c.evict k from rfl, evict] at hv
    split at hv
    · exact hv
    · rw [OrdDict.get?_erase] at hv
      split at hv
      · cases hv
      · exact hv

/-- **Entries of the default size or less always fit.** -/
theorem small_run_fits : ∀ (ops : List Op) {c : MockLmcacheClient}, 1 ≤ c.capacity → Tidy c → Small c →
    (∀ k size, Op.store k size ∈ ops → 0 ≤ size ∧ size ≤ 4096) → FitsAlong c ops
  | [], _, _, _, _, _ => Runs.forall_split_nil
  | op :: ops, c, hcap, htidy, hsmall, hsizes => by
    have hfirst : ∀ k size, op = .store k size → 0 ≤ size ∧ size ≤ 4096 :=
      fun k size hop => hsizes k size (by rw [hop]; exact List.mem_cons_self)
    obtain ⟨h, inserted, removed, looked, hacc⟩ := htidy.accounts
    have hfits := fits_of_small hcap hacc hsmall op (fun k size hop => (hfirst k size hop).2)
    have hnext := tidy_step htidy (fun k size hop => (hfirst k size hop).1) hfits
    have hkeep := (accounts_step hcap hacc op (fun k size hop => (hfirst k size hop).1)).2.1
    have hlater := small_step hcap hacc hsmall op (fun k size hop => (hfirst k size hop).2)
    exact Runs.forall_split_cons.2 ⟨hfits, small_run_fits ops (hkeep ▸ hcap) hnext hlater
      (fun k size hm => hsizes k size (List.mem_cons_of_mem _ hm))⟩

theorem fits_of_no_store : ∀ (ops : List Op) {c : MockLmcacheClient}, 0 ≤ c.capacity →
    (∀ k size, Op.store k size ∉ ops) → FitsAlong c ops
  | [], _, _, _ => Runs.forall_split_nil
  | op :: ops, c, hcap, hstores => by
    have hfirst : c.Fits op ∧ (c.step op).capacity = c.capacity := by
      cases op with
      | store k size => exact absurd List.mem_cons_self (hstores k size)
      | lookup k => exact ⟨hcap, (lookup_cases c k).1⟩
      | evict k =>
        refine ⟨hcap, ?_⟩
        rw [show c.step (.evict k) = c.evict k from rfl, evict]
        split <;> rfl
    exact Runs.forall_split_cons.2 ⟨hfirst.1, fits_of_no_store ops (hfirst.2 ▸ hcap)
      (fun k size hm => hstores k size (List.mem_cons_of_mem _ hm))⟩

/-! ## Filling the tier -/

/-- Stores of so many different hashes. -/
def fillOps (size : Int) (n : Nat) : List Op := (List.range n).map (fun i => .store (List.replicate i 'a') size)

theorem fillOps_succ (size : Int) (n : Nat) :
    fillOps size (n + 1) = fillOps size n ++ [.store (List.replicate n 'a') size] := by
  rw [fillOps, List.range_succ, List.map_append]
  rfl

theorem run_fillOps (capacity : Int) (hitProbability : ℚ) (random : Nat → ℚ) (size : Int) : ∀ n : Nat, n ≤ capacity →
    (Runs.run step (fresh capacity hitProbability random) (fillOps size n)).capacity = capacity ∧
    (Runs.run step (fresh capacity hitProbability random) (fillOps size n)).entries.items =
      (List.range n).map (fun i => (List.replicate i 'a', size))
  | 0, _ => ⟨rfl, rfl⟩
  | n + 1, hn => by
    obtain ⟨hcapacity, hitems⟩ := run_fillOps capacity hitProbability random size n (by push_cast at hn; omega)
    rw [fillOps_succ, Runs.run_append]
    generalize Runs.run step (fresh capacity hitProbability random) (fillOps size n) = c at hcapacity hitems ⊢
    have hkeys : List.replicate n 'a' ∉ c.entries.keys := by
      rw [OrdDict.keys, hitems, List.map_map]
      intro hmem
      obtain ⟨i, hi, heq⟩ := List.mem_map.1 hmem
      have hlen := congrArg List.length heq
      simp only [Function.comp_apply, List.length_replicate] at hlen
      exact absurd hlen (List.mem_range.1 hi).ne
    have hget := (OrdDict.get?_eq_none _ _).2 hkeys
    have hcontains : c.entries.contains (List.replicate n 'a') = false := by rw [OrdDict.contains, hget, Option.isSome_none]
    have hsize : c.entries.size = n := by rw [OrdDict.size, hitems, List.length_map, List.length_range]
    have hopen : ¬ c.capacity ≤ (c.entries.size : Int) := by
      rw [hcapacity, hsize]
      push_cast at hn
      omega
    have hstep : Runs.run step c [.store (List.replicate n 'a') size] =
        { c with entries := c.entries.set (List.replicate n 'a') size, usedBytes := c.usedBytes + size } := by
      simp [Runs.run, step, apply, store, hcontains, makeRoom, hopen]
    rw [hstep]
    refine ⟨hcapacity, ?_⟩
    simp only [OrdDict.items_set_of_notMem _ _ hget, hitems, List.range_succ, List.map_append, List.map_cons, List.map_nil]

/-- A tier that stays within its capacity has one, and has room for as many entries of a size as it may hold. -/
theorem small_of_staysWithin {capacity : Int} {hitProbability : ℚ} {random : Nat → ℚ} {size : Int} (hsize : 0 ≤ size)
    (h : ∀ n, StaysWithin (fresh capacity hitProbability random) (fillOps size n)) : 1 ≤ capacity ∧ size ≤ 4096 := by
  have hnonneg : ∀ n k s, Op.store k s ∈ fillOps size n → 0 ≤ s := by
    intro n k s hm
    obtain ⟨i, -, heq⟩ := List.mem_map.1 hm
    cases heq
    exact hsize
  have hfits : ∀ n, FitsAlong (fresh capacity hitProbability random) (fillOps size n) :=
    fun n => (run_within_iff capacity hitProbability random _ (hnonneg n)).1 (h n)
  have hpos : 1 ≤ capacity := by
    rcases hfits 1 [] _ [] rfl with hin | ⟨hone, -⟩
    · cases hin
    · exact hone
  obtain ⟨n, hn⟩ : ∃ n : Nat, capacity = n + 1 := ⟨(capacity - 1).toNat, by omega⟩
  obtain ⟨hcapacity, hitems⟩ := run_fillOps capacity hitProbability random size n (by omega)
  have hlast := hfits (n + 1) (fillOps size n) (.store (List.replicate n 'a') size) [] (fillOps_succ size n)
  generalize Runs.run step (fresh capacity hitProbability random) (fillOps size n) = c at hcapacity hitems hlast
  have hopen : ¬ c.capacity ≤ (c.entries.size : Int) := by
    rw [hcapacity, OrdDict.size, hitems, List.length_map, List.length_range]
    omega
  have hvalues : c.kept.values.sum = n * size := by
    rw [kept, if_neg hopen, OrdDict.values, hitems, List.map_map]
    simp [Function.comp_def]
  refine ⟨hpos, ?_⟩
  rcases hlast with hin | ⟨-, hroom⟩
  · obtain ⟨v, hv⟩ := (OrdDict.contains_iff _ _).1 hin
    have hmem := (OrdDict.mem_items _ _ _).2 hv
    rw [hitems] at hmem
    obtain ⟨i, hi, heq⟩ := List.mem_map.1 hmem
    have hlen := congrArg List.length (congrArg Prod.fst heq)
    simp only [List.length_replicate] at hlen
    exact absurd hlen (List.mem_range.1 hi).ne
  · rw [hvalues, hcapacity, hn] at hroom
    have hfull : ((n : Int) + 1) * size ≤ (n + 1) * 4096 := by linarith
    exact le_of_mul_le_mul_left hfull (by omega)

/-- **When the tier never exceeds its capacity.**  A run stays within it just when each of its calls fits; and every run with
sizes from a set does just when the tier may hold an entry and none of the sizes is above the default, or when it may hold
none and none is stored. -/
theorem tier_within (capacity : Int) (hitProbability : ℚ) (random : Nat → ℚ) :
    (∀ ops, (∀ k size, Op.store k size ∈ ops → 0 ≤ size) →
      (StaysWithin (fresh capacity hitProbability random) ops ↔ FitsAlong (fresh capacity hitProbability random) ops)) ∧
    ∀ sizes : Set Int, (∀ size ∈ sizes, 0 ≤ size) →
      ((∀ ops, (∀ k size, Op.store k size ∈ ops → size ∈ sizes) →
          StaysWithin (fresh capacity hitProbability random) ops) ↔
        1 ≤ capacity ∧ (∀ size ∈ sizes, size ≤ 4096) ∨ capacity = 0 ∧ sizes = ∅) := by
  refine ⟨run_within_iff capacity hitProbability random, fun sizes hsizes => ⟨fun h => ?_, ?_⟩⟩
  · have hfill : ∀ size ∈ sizes, 1 ≤ capacity ∧ size ≤ 4096 := by
      intro size hmem
      apply small_of_staysWithin (hsizes size hmem)
      intro n
      apply h
      intro k s hm
      obtain ⟨i, -, heq⟩ := List.mem_map.1 hm
      cases heq
      exact hmem
    have hcap : 0 ≤ capacity := by
      have hlook : StaysWithin (fresh capacity hitProbability random) [.lookup []] :=
        h _ (fun k size hm => by simp at hm)
      exact (run_within_iff capacity hitProbability random _ (fun k size hm => by simp at hm)).1 hlook [] _ [] rfl
    rcases hcap.eq_or_lt with hzero | hpos
    · right
      refine ⟨hzero.symm, Set.eq_empty_of_forall_notMem (fun size hmem => ?_)⟩
      have := (hfill size hmem).1
      omega
    · exact Or.inl ⟨hpos, fun size hmem => (hfill size hmem).2⟩
  · rintro (⟨hcap, hsmall⟩ | ⟨hcap, hnone⟩) ops hops
    · have htidy := fresh_tidy (le_trans zero_le_one hcap) hitProbability random
      have hin : ∀ k size, Op.store k size ∈ ops → 0 ≤ size ∧ size ≤ 4096 :=
        fun k size hm => ⟨hsizes size (hops k size hm), hsmall size (hops k size hm)⟩
      apply (run_within_iff capacity hitProbability random ops (fun k size hm => (hin k size hm).1)).2
      exact small_run_fits ops hcap htidy (fun size hs => (by cases hs)) hin
    · have hstores : ∀ k size, Op.store k size ∉ ops := by
        intro k size hm
        have hmem := hops k size hm
        rw [hnone] at hmem
        exact hmem
      apply (run_within_iff capacity hitProbability random ops (fun k size hm => absurd hm (hstores k size))).2
      exact fits_of_no_store ops hcap.ge hstores

theorem two_slots_within :
    (∀ ops, (∀ k size, Op.store k size ∈ ops → 0 ≤ size) →
      (StaysWithin (fresh 2 (9 / 10) (fun _ => 0)) ops ↔ FitsAlong (fresh 2 (9 / 10) (fun _ => 0)) ops)) ∧
    ∀ sizes : Set Int, (∀ size ∈ sizes, 0 ≤ size) →
      ((∀ ops, (∀ k size, Op.store k size ∈ ops → size ∈ sizes) → StaysWithin (fresh 2 (9 / 10) (fun _ => 0)) ops) ↔
        1 ≤ (2 : Int) ∧ (∀ size ∈ sizes, size ≤ 4096) ∨ (2 : Int) = 0 ∧ sizes = ∅) :=
  tier_within 2 (9 / 10) (fun _ => 0)

/-- **One entry larger than the default size is already too much**: a tier of one entry reports 5000 bytes used of 4096; and
a tier of no entries raises. -/
theorem large_entry_exceeds :
    ¬ StaysWithin (fresh 1 (9 / 10) (fun _ => 0)) [.store "a".toList 5000] ∧
      ((fresh 1 (9 / 10) (fun _ => 0)).step (.store "a".toList 5000)).stats.map
        (fun s => (s.usedBytes, s.capacityBytes)) = some (5000, 4096) ∧
      ¬ StaysWithin (fresh 0 (9 / 10) (fun _ => 0)) [.store "a".toList 4096] := by
  refine ⟨fun h => ?_, by decide +kernel, fun h => ?_⟩
  · obtain ⟨c', s, hok, hs, -, hle⟩ := h [] _ [] rfl
    cases hok
    cases hs
    exact absurd hle (by decide)
  · obtain ⟨c', s, hok, -⟩ := h [] _ [] rfl
    cases hok

end MockLmcacheClient
end GoodputLab
