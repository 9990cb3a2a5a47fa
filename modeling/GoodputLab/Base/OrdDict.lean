import Mathlib
/-!
# OrdDict — a dictionary that iterates in insertion order

One list of pairs with distinct keys.  A key assigned again keeps its place, a new key goes last, `moveToEnd` renews
a key and `popFirst` drops the oldest: the dictionary of a scripting language, and its use as a least-recently-used
list.  Every lookup after an update is a lookup before it (`get?_set`, `get?_erase`, `get?_moveToEnd`,
`get?_popFirst`), and `mem_items` ties the list to the lookups.
-/

structure OrdDict (κ ν : Type) where
  items : List (κ × ν)
  nodup : (items.map Prod.fst).Nodup
deriving DecidableEq

namespace OrdDict

variable {κ ν : Type} [DecidableEq κ]

def empty : OrdDict κ ν := ⟨[], List.nodup_nil⟩

def get? (d : OrdDict κ ν) (k : κ) : Option ν := d.items.lookup k

def contains (d : OrdDict κ ν) (k : κ) : Bool := (d.get? k).isSome

def keys (d : OrdDict κ ν) : List κ := d.items.map Prod.fst

def values (d : OrdDict κ ν) : List ν := d.items.map Prod.snd

def size (d : OrdDict κ ν) : Nat := d.items.length

/-- Assignment on the pairs: in place when the key is there, last when it is not. -/
def setItems (k : κ) (v : ν) : List (κ × ν) → List (κ × ν)
  | []      => [(k, v)]
  | p :: ps => if p.1 = k then (k, v) :: ps else p :: setItems k v ps

theorem mem_fst_setItems (k : κ) (v : ν) (j : κ) : ∀ ps : List (κ × ν),
    j ∈ (setItems k v ps).map Prod.fst ↔ j = k ∨ j ∈ ps.map Prod.fst
  | [] => by simp [setItems]
  | p :: ps => by
    have ih := mem_fst_setItems k v j ps
    unfold setItems
    split
    · rename_i h
      subst h
      simp
    · simp only [List.map_cons, List.mem_cons, ih]
      tauto

theorem nodup_setItems (k : κ) (v : ν) : ∀ ps : List (κ × ν), (ps.map Prod.fst).Nodup →
    ((setItems k v ps).map Prod.fst).Nodup
  | [], _ => by simp [setItems]
  | p :: ps, h => by
    rw [List.map_cons, List.nodup_cons] at h
    unfold setItems
    split
    · rename_i hk
      rw [List.map_cons, List.nodup_cons, ← hk]
      exact h
    · rename_i hk
      rw [List.map_cons, List.nodup_cons]
      refine ⟨fun hm => ?_, nodup_setItems k v ps h.2⟩
      rcases (mem_fst_setItems k v p.1 ps).1 hm with he | he
      · exact hk he
      · exact h.1 he

def set (d : OrdDict κ ν) (k : κ) (v : ν) : OrdDict κ ν := ⟨setItems k v d.items, nodup_setItems k v d.items d.nodup⟩

def erase (d : OrdDict κ ν) (k : κ) : OrdDict κ ν :=
  ⟨d.items.filter (fun p => p.1 ≠ k), d.nodup.sublist (List.filter_sublist.map _)⟩

/-- Apply `f` to the value of `k`, its place unchanged; nothing happens when `k` is not there. -/
def modify (d : OrdDict κ ν) (k : κ) (f : ν → ν) : OrdDict κ ν :=
  ⟨d.items.map (fun p => if p.1 = k then (p.1, f p.2) else p), by
    have : (d.items.map (fun p => if p.1 = k then (p.1, f p.2) else p)).map Prod.fst = d.items.map Prod.fst := by
      rw [List.map_map]
      exact List.map_congr_left (fun p _ => by by_cases h : p.1 = k <;> simp [h])
    rw [this]
    exact d.nodup⟩

omit [DecidableEq κ] in
def mapValues (d : OrdDict κ ν) (f : ν → ν) : OrdDict κ ν :=
  ⟨d.items.map (fun p => (p.1, f p.2)), by
    have : (d.items.map (fun p => (p.1, f p.2))).map Prod.fst = d.items.map Prod.fst := by
      rw [List.map_map]
      rfl
    rw [this]
    exact d.nodup⟩

omit [DecidableEq κ] in
/-- Pairs whose values `f` does not change. -/
theorem map_value_eq_self {l : List (κ × ν)} {f : ν → ν} (h : ∀ p ∈ l, f p.2 = p.2) :
    l.map (fun p => (p.1, f p.2)) = l := by
  conv_rhs => rw [← List.map_id l]
  exact List.map_congr_left (fun p hp => by rw [h p hp]; rfl)

def moveToEnd (d : OrdDict κ ν) (k : κ) : OrdDict κ ν :=
  match d.get? k with
  | none   => d
  | some v => (d.erase k).set k v

def popFirst (d : OrdDict κ ν) : OrdDict κ ν := ⟨d.items.tail, d.nodup.sublist (d.items.tail_sublist.map _)⟩

def ofList (l : List (κ × ν)) : OrdDict κ ν := l.foldl (fun d p => d.set p.1 p.2) empty

/-! ## Lookups -/

theorem lookup_cons (p : κ × ν) (ps : List (κ × ν)) (j : κ) :
    (p :: ps).lookup j = if j = p.1 then some p.2 else ps.lookup j := by
  rw [List.lookup_cons]
  by_cases h : j = p.1
  · subst h
    simp
  · rw [beq_false_of_ne h, if_neg h]

theorem lookup_map_value (f : ν → ν) (k : κ) : ∀ ps : List (κ × ν),
    (ps.map (fun p => (p.1, f p.2))).lookup k = (ps.lookup k).map f
  | [] => rfl
  | p :: ps => by
    rw [List.map_cons, lookup_cons, lookup_cons, lookup_map_value f k ps]
    split <;> rfl

theorem get?_mapValues (d : OrdDict κ ν) (f : ν → ν) (k : κ) : (d.mapValues f).get? k = (d.get? k).map f :=
  lookup_map_value f k d.items

theorem lookup_eq_some (k : κ) (v : ν) : ∀ ps : List (κ × ν), (ps.map Prod.fst).Nodup →
    (ps.lookup k = some v ↔ (k, v) ∈ ps)
  | [], _ => by simp
  | p :: ps, h => by
    rw [List.map_cons, List.nodup_cons] at h
    rw [lookup_cons, List.mem_cons]
    by_cases hk : k = p.1
    · subst hk
      have hnot : (p.1, v) ∉ ps := fun hm => h.1 (List.mem_map.2 ⟨(p.1, v), hm, rfl⟩)
      simp [hnot, Prod.ext_iff, eq_comm]
    · rw [if_neg hk, lookup_eq_some k v ps h.2]
      simp [Prod.ext_iff, hk]

/-- **The pairs are the lookups.** -/
theorem mem_items (d : OrdDict κ ν) (k : κ) (v : ν) : (k, v) ∈ d.items ↔ d.get? k = some v :=
  (lookup_eq_some k v d.items d.nodup).symm

/-- **The dictionary cut at a key.** -/
theorem exists_split {d : OrdDict κ ν} {k : κ} {v : ν} (h : d.get? k = some v) :
    ∃ before rest, d.items = before ++ (k, v) :: rest ∧ k ∉ before.map Prod.fst ∧ k ∉ rest.map Prod.fst := by
  obtain ⟨before, rest, hsplit⟩ := List.append_of_mem ((mem_items d k v).2 h)
  have hnodup := d.nodup
  rw [hsplit, List.map_append, List.map_cons, List.nodup_append, List.nodup_cons] at hnodup
  obtain ⟨-, ⟨hrest, -⟩, hdisj⟩ := hnodup
  exact ⟨before, rest, hsplit, fun hk => hdisj k hk k List.mem_cons_self rfl, hrest⟩

theorem mem_keys (d : OrdDict κ ν) (k : κ) : k ∈ d.keys ↔ ∃ v, d.get? k = some v := by
  simp only [keys, List.mem_map, Prod.exists, ← mem_items]
  constructor
  · rintro ⟨a, v, hm, rfl⟩
    exact ⟨v, hm⟩
  · rintro ⟨v, hm⟩
    exact ⟨k, v, hm, rfl⟩

theorem mem_values (d : OrdDict κ ν) (v : ν) : v ∈ d.values ↔ ∃ k, d.get? k = some v := by
  simp only [values, List.mem_map, Prod.exists, ← mem_items]
  constructor
  · rintro ⟨k, b, hm, rfl⟩
    exact ⟨k, hm⟩
  · rintro ⟨k, hm⟩
    exact ⟨k, v, hm, rfl⟩

theorem contains_iff (d : OrdDict κ ν) (k : κ) : d.contains k = true ↔ ∃ v, d.get? k = some v :=
  Option.isSome_iff_exists

theorem get?_eq_none (d : OrdDict κ ν) (k : κ) : d.get? k = none ↔ k ∉ d.keys := by
  rw [mem_keys, not_exists, Option.eq_none_iff_forall_ne_some]

@[simp] theorem get?_empty (k : κ) : (empty : OrdDict κ ν).get? k = none := rfl

theorem get?_congr {d e : OrdDict κ ν} {k : κ} (h : ∀ v, d.get? k = some v ↔ e.get? k = some v) :
    d.get? k = e.get? k :=
  Option.ext h

/-- Assignment commutes with a map over the values. -/
theorem map_setItems {μ : Type} (f : ν → μ) (k : κ) (v : ν) : ∀ ps : List (κ × ν),
    (setItems k v ps).map (fun p => (p.1, f p.2)) = setItems k (f v) (ps.map (fun p => (p.1, f p.2)))
  | []      => rfl
  | p :: ps => by
    rw [setItems, List.map_cons, setItems]
    by_cases hk : p.1 = k
    · rw [if_pos hk, if_pos hk, List.map_cons]
    · rw [if_neg hk, if_neg hk, List.map_cons, map_setItems f k v ps]

theorem lookup_setItems (k : κ) (v : ν) (j : κ) : ∀ ps : List (κ × ν),
    (setItems k v ps).lookup j = if j = k then some v else ps.lookup j
  | [] => lookup_cons (k, v) [] j
  | p :: ps => by
    have ih := lookup_setItems k v j ps
    unfold setItems
    split
    · rename_i hp
      subst hp
      by_cases h : j = p.1 <;> simp [lookup_cons, h]
    · rename_i hp
      rw [lookup_cons, lookup_cons, ih]
      by_cases h : j = p.1
      · subst h
        simp [hp]
      · simp [h]

/-- **A lookup after an assignment.** -/
theorem get?_set (d : OrdDict κ ν) (k : κ) (v : ν) (j : κ) :
    (d.set k v).get? j = if j = k then some v else d.get? j :=
  lookup_setItems k v j d.items

@[simp] theorem get?_set_self (d : OrdDict κ ν) (k : κ) (v : ν) : (d.set k v).get? k = some v := by
  simp [get?_set]

theorem get?_set_of_ne (d : OrdDict κ ν) (v : ν) {j k : κ} (h : j ≠ k) : (d.set k v).get? j = d.get? j := by
  simp [get?_set, h]

/-- **Older pairs with other keys are not in the way of a lookup.** -/
theorem get?_of_items_append {d e : OrdDict κ ν} {old : List (κ × ν)} (h : d.items = old ++ e.items) {k : κ}
    (hk : k ∉ old.map Prod.fst) : d.get? k = e.get? k := by
  refine get?_congr (fun v => ?_)
  rw [← mem_items, ← mem_items, h, List.mem_append]
  constructor
  · rintro (hold | hv)
    · exact absurd (List.mem_map.2 ⟨(k, v), hold, rfl⟩) hk
    · exact hv
  · exact Or.inr

theorem setItems_of_notMem (k : κ) (v : ν) : ∀ ps : List (κ × ν), k ∉ ps.map Prod.fst →
    setItems k v ps = ps ++ [(k, v)]
  | [], _ => rfl
  | p :: ps, h => by
    rw [List.map_cons, List.mem_cons, not_or] at h
    rw [setItems, if_neg (Ne.symm h.1), setItems_of_notMem k v ps h.2, List.cons_append]

/-- **A new key goes last.** -/
theorem items_set_of_notMem (d : OrdDict κ ν) {k : κ} (v : ν) (h : d.get? k = none) :
    (d.set k v).items = d.items ++ [(k, v)] :=
  setItems_of_notMem k v d.items ((get?_eq_none d k).1 h)

theorem values_set_of_notMem (d : OrdDict κ ν) {k : κ} (v : ν) (h : d.get? k = none) :
    (d.set k v).values = d.values ++ [v] := by
  rw [values, items_set_of_notMem d v h, List.map_append]
  rfl

theorem size_set_of_notMem (d : OrdDict κ ν) {k : κ} (v : ν) (h : d.get? k = none) :
    (d.set k v).size = d.size + 1 := by
  rw [size, items_set_of_notMem d v h, List.length_append]
  rfl

theorem sum_setItems (k : κ) (v : Nat) : ∀ ps : List (κ × Nat),
    ((setItems k v ps).map Prod.snd).sum + (ps.lookup k).getD 0 = (ps.map Prod.snd).sum + v
  | [] => by simp [setItems]
  | p :: ps => by
    rw [setItems, lookup_cons]
    split
    · rename_i hp
      rw [if_pos hp.symm, List.map_cons, List.sum_cons, List.map_cons, List.sum_cons, Option.getD_some]
      omega
    · rename_i hp
      have ih := sum_setItems k v ps
      rw [if_neg (Ne.symm hp), List.map_cons, List.sum_cons, List.map_cons, List.sum_cons]
      omega

/-- **An assignment exchanges one value in the sum of all.** -/
theorem sum_values_set (d : OrdDict κ Nat) (k : κ) (v : Nat) :
    (d.set k v).values.sum + (d.get? k).getD 0 = d.values.sum + v :=
  sum_setItems k v d.items

theorem get?_erase (d : OrdDict κ ν) (k j : κ) : (d.erase k).get? j = if j = k then none else d.get? j := by
  split
  · rename_i h
    subst h
    rw [get?_eq_none]
    simp [keys, erase]
  · rename_i h
    refine get?_congr (fun v => ?_)
    rw [← mem_items, ← mem_items]
    simp [erase, List.mem_filter, h]

/-- **Erasing a key takes its one pair out.** -/
theorem exists_split_erase {d : OrdDict κ ν} {k : κ} {v : ν} (h : d.get? k = some v) :
    ∃ before rest, d.items = before ++ (k, v) :: rest ∧ (d.erase k).items = before ++ rest := by
  obtain ⟨before, rest, hitems, hbefore, hrest⟩ := exists_split h
  have hkeep : ∀ l : List (κ × ν), k ∉ l.map Prod.fst → l.filter (fun p => p.1 ≠ k) = l := by
    intro l hl
    refine List.filter_eq_self.2 (fun p hp => decide_eq_true (fun he => hl ?_))
    exact List.mem_map.2 ⟨p, hp, he⟩
  refine ⟨before, rest, hitems, ?_⟩
  rw [show (d.erase k).items = d.items.filter (fun p => p.1 ≠ k) from rfl, hitems, List.filter_append,
    List.filter_cons_of_neg (by simp), hkeep before hbefore, hkeep rest hrest]

theorem get?_modify (d : OrdDict κ ν) (k : κ) (f : ν → ν) (j : κ) :
    (d.modify k f).get? j = if j = k then (d.get? j).map f else d.get? j := by
  have hmem : ∀ v, (j, v) ∈ (d.modify k f).items ↔ ∃ w, (j, w) ∈ d.items ∧ v = if j = k then f w else w := by
    intro v
    simp only [modify, List.mem_map, Prod.exists]
    constructor
    · rintro ⟨a, w, hm, he⟩
      by_cases ha : a = k
      · simp only [ha, if_true, Prod.ext_iff] at he
        obtain ⟨rfl, rfl⟩ := he
        exact ⟨w, ha ▸ hm, by simp⟩
      · simp only [ha, if_false, Prod.ext_iff] at he
        obtain ⟨rfl, rfl⟩ := he
        exact ⟨w, hm, by simp [ha]⟩
    · rintro ⟨w, hm, rfl⟩
      refine ⟨j, w, hm, ?_⟩
      by_cases hj : j = k <;> simp [hj]
  apply Option.ext
  intro v
  rw [← mem_items, hmem v]
  simp only [mem_items]
  by_cases hj : j = k <;> simp [hj, eq_comm]

/-- **Renewing a key changes no lookup.** -/
theorem get?_moveToEnd (d : OrdDict κ ν) (k j : κ) : (d.moveToEnd k).get? j = d.get? j := by
  unfold moveToEnd
  split
  · rfl
  · rename_i v hv
    rw [get?_set, get?_erase]
    by_cases h : j = k
    · subst h
      simp [hv]
    · simp [h]

theorem get?_popFirst (d : OrdDict κ ν) (k : κ) (v : ν) (h : (d.popFirst).get? k = some v) : d.get? k = some v := by
  rw [← mem_items] at h ⊢
  exact List.mem_of_mem_tail h

/-! ## The order of the keys -/

theorem keys_setItems (k : κ) (v : ν) : ∀ ps : List (κ × ν),
    (setItems k v ps).map Prod.fst = if k ∈ ps.map Prod.fst then ps.map Prod.fst else ps.map Prod.fst ++ [k]
  | [] => rfl
  | p :: ps => by
    rw [setItems, List.map_cons]
    by_cases hp : p.1 = k
    · rw [if_pos hp, if_pos (hp ▸ List.mem_cons_self), List.map_cons, hp]
    · rw [if_neg hp, List.map_cons, keys_setItems k v ps]
      by_cases hk : k ∈ ps.map Prod.fst
      · rw [if_pos hk, if_pos (List.mem_cons_of_mem _ hk)]
      · have hnot : k ∉ p.1 :: ps.map Prod.fst := fun h => (List.mem_cons.1 h).elim (fun he => hp he.symm) hk
        rw [if_neg hk, if_neg hnot, List.cons_append]

theorem keys_set (d : OrdDict κ ν) (k : κ) (v : ν) :
    (d.set k v).keys = if k ∈ d.keys then d.keys else d.keys ++ [k] :=
  keys_setItems k v d.items

theorem keys_erase (d : OrdDict κ ν) (k : κ) : (d.erase k).keys = d.keys.filter (fun j => j ≠ k) := by
  rw [keys, keys, List.filter_map]
  rfl

/-- **A renewed key goes last.** -/
theorem keys_moveToEnd {d : OrdDict κ ν} {k : κ} (h : k ∈ d.keys) :
    (d.moveToEnd k).keys = d.keys.filter (fun j => j ≠ k) ++ [k] := by
  obtain ⟨v, hv⟩ := (mem_keys d k).1 h
  have hgone : k ∉ (d.erase k).keys := by
    rw [keys_erase]
    simp
  unfold moveToEnd
  rw [hv]
  show ((d.erase k).set k v).keys = _
  rw [keys_set, if_neg hgone, keys_erase]

/-- **Renewing a key moves its pair to the end.** -/
theorem exists_split_moveToEnd {d : OrdDict κ ν} {k : κ} {v : ν} (h : d.get? k = some v) :
    ∃ before rest, d.items = before ++ (k, v) :: rest ∧ (d.moveToEnd k).items = before ++ rest ++ [(k, v)] := by
  obtain ⟨before, rest, hitems, herase⟩ := exists_split_erase h
  have hgone : (d.erase k).get? k = none := by rw [get?_erase, if_pos rfl]
  refine ⟨before, rest, hitems, ?_⟩
  unfold moveToEnd
  rw [h]
  show ((d.erase k).set k v).items = _
  rw [items_set_of_notMem _ v hgone, herase]

theorem values_moveToEnd {d : OrdDict κ ν} {k : κ} {v : ν} (h : d.get? k = some v) :
    (d.moveToEnd k).values.Perm d.values := by
  obtain ⟨before, rest, hitems, hmoved⟩ := exists_split_moveToEnd h
  rw [values, values, hmoved, hitems]
  refine List.Perm.map _ ?_
  rw [List.append_assoc]
  exact List.Perm.append_left before (List.perm_append_singleton _ _)

theorem size_moveToEnd {d : OrdDict κ ν} {k : κ} {v : ν} (h : d.get? k = some v) : (d.moveToEnd k).size = d.size := by
  have hlen := (values_moveToEnd h).length_eq
  rwa [values, values, List.length_map, List.length_map] at hlen

omit [DecidableEq κ] in
theorem keys_popFirst (d : OrdDict κ ν) : (d.popFirst).keys = d.keys.tail := by
  rw [keys, popFirst, keys, List.map_tail]

omit [DecidableEq κ] in
theorem size_eq_length_keys (d : OrdDict κ ν) : d.size = d.keys.length := by
  rw [size, keys, List.length_map]

/-- **A lookup after a list of assignments**: the list's own pair, or else the old one. -/
theorem get?_foldl_set_eq : ∀ (l : List (κ × ν)) (d : OrdDict κ ν) (k : κ),
    (l.foldl (fun d p => d.set p.1 p.2) d).get? k = ((ofList l).get? k).or (d.get? k)
  | [], d, k => rfl
  | p :: l, d, k => by
    rw [ofList, List.foldl_cons, List.foldl_cons, get?_foldl_set_eq l, get?_foldl_set_eq l (empty.set p.1 p.2),
      get?_set, get?_set]
    cases (ofList l).get? k with
    | some v => rfl
    | none => by_cases h : k = p.1 <;> simp [h]

omit [DecidableEq κ] in
theorem items_nodup (d : OrdDict κ ν) : d.items.Nodup := List.Nodup.of_map _ d.nodup

/-- **Dictionaries with the same lookups** have the same pairs, in some order. -/
theorem items_perm_of_get? {d e : OrdDict κ ν} (h : ∀ k, d.get? k = e.get? k) : d.items.Perm e.items :=
  (List.perm_ext_iff_of_nodup d.items_nodup e.items_nodup).2 (fun p => by rw [mem_items, mem_items, h])

/-- Assigning every pair of `e` over `d` keeps the pairs of `d` whose keys `e` does not have. -/
theorem items_perm_override {c d e : OrdDict κ ν} (h : ∀ k, c.get? k = (e.get? k).or (d.get? k)) :
    c.items.Perm (d.items.filter (fun p => !e.contains p.1) ++ e.items) := by
  have hdisj : (d.items.filter (fun p => !e.contains p.1)).Disjoint e.items := by
    intro p hp he
    have hnot := (List.mem_filter.1 hp).2
    rw [(contains_iff e p.1).2 ⟨p.2, (mem_items e p.1 p.2).1 he⟩] at hnot
    cases hnot
  refine (List.perm_ext_iff_of_nodup c.items_nodup
    ((d.items_nodup.filter _).append e.items_nodup hdisj)).2 (fun ⟨k, v⟩ => ?_)
  rw [List.mem_append, List.mem_filter, mem_items, mem_items, mem_items, h k, contains]
  cases e.get? k with
  | none => simp
  | some w => simp

/-! ## Assignments that are overwritten -/

variable {α : Type}

/-- The entries with no later entry of their key. -/
def lastBy (key : α → κ) : List α → List α
  | []     => []
  | a :: l => if key a ∈ l.map key then lastBy key l else a :: lastBy key l

/-- The entries with a later entry of their key. -/
def earlierBy (key : α → κ) : List α → List α
  | []     => []
  | a :: l => if key a ∈ l.map key then a :: earlierBy key l else earlierBy key l

theorem lastBy_perm (key : α → κ) : ∀ l : List α, l.Perm (lastBy key l ++ earlierBy key l)
  | [] => List.Perm.nil
  | a :: l => by
    have ih := lastBy_perm key l
    unfold lastBy earlierBy
    split
    · exact (ih.cons a).trans List.perm_middle.symm
    · exact ih.cons a

theorem earlierBy_eq_nil {key : α → κ} : ∀ {l : List α}, (l.map key).Nodup → earlierBy key l = []
  | [], _ => rfl
  | a :: l, h => by
    rw [List.map_cons, List.nodup_cons] at h
    rw [earlierBy, if_neg h.1, earlierBy_eq_nil h.2]

theorem mem_lastBy_key (key : α → κ) (k : κ) : ∀ l : List α, k ∈ (lastBy key l).map key ↔ k ∈ l.map key
  | [] => Iff.rfl
  | a :: l => by
    have ih := mem_lastBy_key key k l
    rw [List.map_cons, List.mem_cons, lastBy]
    split
    · rename_i ha
      rw [ih]
      exact ⟨Or.inr, fun h => h.elim (fun he => he ▸ ha) id⟩
    · rw [List.map_cons, List.mem_cons, ih]

theorem nodup_lastBy (key : α → κ) : ∀ l : List α, ((lastBy key l).map key).Nodup
  | [] => List.nodup_nil
  | a :: l => by
    have ih := nodup_lastBy key l
    unfold lastBy
    split
    · exact ih
    · rename_i ha
      exact List.nodup_cons.2 ⟨fun h => ha ((mem_lastBy_key key (key a) l).1 h), ih⟩

/-- The last entry under a key is that of the tail, if the tail has one. -/
theorem exists_lastBy_cons (key : α → κ) (holds : α → Prop) (k : κ) (a : α) (l : List α) :
    (∃ b ∈ lastBy key (a :: l), key b = k ∧ holds b) ↔
      if k ∈ l.map key then ∃ b ∈ lastBy key l, key b = k ∧ holds b else key a = k ∧ holds a := by
  rw [lastBy]
  by_cases hk : k ∈ l.map key
  · rw [if_pos hk]
    split
    · rfl
    · rename_i ha
      have hne : key a ≠ k := fun he => ha (he ▸ hk)
      simp [hne]
  · have hno : ∀ b ∈ lastBy key l, key b ≠ k := fun b hb he =>
      hk ((mem_lastBy_key key k l).1 (List.mem_map.2 ⟨b, hb, he⟩))
    rw [if_neg hk]
    split
    · rename_i ha
      exact iff_of_false (fun ⟨b, hb, he, _⟩ => hno b hb he) (fun h => hk (h.1 ▸ ha))
    · constructor
      · rintro ⟨b, hb, he, hb'⟩
        rcases List.mem_cons.1 hb with rfl | hb
        · exact ⟨he, hb'⟩
        · exact absurd he (hno b hb)
      · exact fun h => ⟨a, List.mem_cons_self, h⟩

theorem get?_ofList_map (key : α → κ) (val : α → ν) (k : κ) (v : ν) : ∀ l : List α,
    (ofList (l.map (fun a => (key a, val a)))).get? k = some v ↔ ∃ a ∈ lastBy key l, key a = k ∧ val a = v
  | [] => by simp [ofList, lastBy]
  | a :: l => by
    have ih := fun v => get?_ofList_map key val k v l
    rw [exists_lastBy_cons key (fun b => val b = v), List.map_cons, ofList, List.foldl_cons, get?_foldl_set_eq, get?_set,
      get?_empty]
    by_cases hk : k ∈ l.map key
    · -- a later entry of the key stands
      obtain ⟨b, hb, hbk⟩ := List.mem_map.1 ((mem_lastBy_key key k l).2 hk)
      have hget := (ih (val b)).2 ⟨b, hb, hbk, rfl⟩
      rw [if_pos hk, ← ih v, hget, Option.some_or]
    · have hnone : (ofList (l.map (fun a => (key a, val a)))).get? k = none := by
        refine Option.eq_none_iff_forall_ne_some.2 (fun w hw => ?_)
        obtain ⟨b, hb, hbk, -⟩ := (ih w).1 hw
        exact hk ((mem_lastBy_key key k l).1 (List.mem_map.2 ⟨b, hb, hbk⟩))
      rw [if_neg hk, hnone, Option.none_or]
      by_cases hka : k = key a
      · simp [hka]
      · simp [hka, Ne.symm hka]

/-- **The dictionary of a list of assignments** holds those that no later one overwrites. -/
theorem items_ofList_perm (key : α → κ) (val : α → ν) (l : List α) :
    (ofList (l.map (fun a => (key a, val a)))).items.Perm ((lastBy key l).map (fun a => (key a, val a))) := by
  have hnodup : ((lastBy key l).map (fun a => (key a, val a))).Nodup := by
    refine List.Nodup.of_map Prod.fst ?_
    rw [List.map_map]
    exact nodup_lastBy key l
  refine (List.perm_ext_iff_of_nodup (items_nodup _) hnodup).2 (fun p => ?_)
  rw [mem_items, get?_ofList_map, List.mem_map]
  constructor
  · rintro ⟨a, ha, hk, hv⟩
    exact ⟨a, ha, Prod.ext hk hv⟩
  · rintro ⟨a, ha, rfl⟩
    exact ⟨a, ha, rfl, rfl⟩

/-- Assignments to distinct keys all stand. -/
theorem values_ofList_perm {key : α → κ} (val : α → ν) {l : List α} (h : (l.map key).Nodup) :
    (ofList (l.map (fun a => (key a, val a)))).values.Perm (l.map val) := by
  have hall : l.Perm (lastBy key l) := by
    have hperm := lastBy_perm key l
    rwa [earlierBy_eq_nil h, List.append_nil] at hperm
  refine ((items_ofList_perm key val l).map Prod.snd).trans ?_
  rw [List.map_map]
  exact hall.symm.map val

theorem items_foldl_set : ∀ (l : List (κ × ν)) (d : OrdDict κ ν), (l.map Prod.fst).Nodup →
    (∀ p ∈ l, d.get? p.1 = none) → (l.foldl (fun d p => d.set p.1 p.2) d).items = d.items ++ l
  | [], d, _, _ => (List.append_nil _).symm
  | p :: l, d, hnd, hnew => by
    rw [List.map_cons, List.nodup_cons] at hnd
    have hrest : ∀ q ∈ l, (d.set p.1 p.2).get? q.1 = none := by
      intro q hq
      have hne : q.1 ≠ p.1 := fun h => hnd.1 (h ▸ List.mem_map_of_mem hq)
      rw [get?_set_of_ne d p.2 hne]
      exact hnew q (List.mem_cons_of_mem _ hq)
    rw [List.foldl_cons, items_foldl_set l _ hnd.2 hrest, items_set_of_notMem d p.2 (hnew p List.mem_cons_self),
      List.append_assoc]
    rfl

/-- **Assignments to distinct keys are kept in their order.** -/
theorem items_ofList {l : List (κ × ν)} (h : (l.map Prod.fst).Nodup) : (ofList l).items = l :=
  items_foldl_set l empty h (fun _ _ => get?_empty _)

end OrdDict
