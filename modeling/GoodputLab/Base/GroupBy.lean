import GoodputLab.Base.OrdDict
/-!
# GroupBy — a list split by a key

The groups stand in the order in which their keys first come, each with its elements in the order of the list.  Together
they are the list (`flatten_groupBy_perm`), so what is added up group by group is added up over the list
(`sum_groupBy`, `length_groupBy`, `countP_groupBy`).
-/
namespace OrdDict

variable {κ α : Type} [DecidableEq κ]

/-- Put `x` at the end of the list of `k`, which is empty when there is none. -/
def append (d : OrdDict κ (List α)) (k : κ) (x : α) : OrdDict κ (List α) := d.set k ((d.get? k).getD [] ++ [x])

def groupBy (key : α → κ) (l : List α) : OrdDict κ (List α) := l.foldl (fun d x => d.append (key x) x) empty

theorem flatten_setItems_perm (k : κ) (x : α) : ∀ ps : List (κ × List α),
    ((setItems k ((ps.lookup k).getD [] ++ [x]) ps).map Prod.snd).flatten.Perm ((ps.map Prod.snd).flatten ++ [x])
  | [] => by simp [setItems]
  | p :: ps => by
    have ih := flatten_setItems_perm k x ps
    rw [setItems, lookup_cons]
    by_cases hk : p.1 = k
    · rw [if_pos hk, if_pos hk.symm, Option.getD_some, List.map_cons, List.map_cons, List.flatten_cons, List.flatten_cons,
        List.append_assoc, List.append_assoc]
      exact List.Perm.append_left _ List.perm_append_comm
    · rw [if_neg hk, if_neg (Ne.symm hk), List.map_cons, List.map_cons, List.flatten_cons, List.flatten_cons,
        List.append_assoc]
      exact List.Perm.append_left _ ih

theorem flatten_append_perm (d : OrdDict κ (List α)) (k : κ) (x : α) :
    (d.append k x).values.flatten.Perm (d.values.flatten ++ [x]) := flatten_setItems_perm k x d.items

theorem flatten_foldl_perm (key : α → κ) : ∀ (l : List α) (d : OrdDict κ (List α)),
    (l.foldl (fun d x => d.append (key x) x) d).values.flatten.Perm (d.values.flatten ++ l)
  | [], d => by rw [List.append_nil]; exact List.Perm.refl _
  | x :: l, d => by
    have ih := flatten_foldl_perm key l (d.append (key x) x)
    refine ih.trans ?_
    rw [← List.singleton_append, ← List.append_assoc]
    exact (flatten_append_perm d (key x) x).append_right l

/-- **The groups are a partition of the list.** -/
theorem flatten_groupBy_perm (key : α → κ) (l : List α) : (groupBy key l).values.flatten.Perm l :=
  flatten_foldl_perm key l empty

theorem sum_groupBy {M : Type} [AddCommMonoid M] (key : α → κ) (weight : α → M) (l : List α) :
    ((groupBy key l).values.map (fun g => (g.map weight).sum)).sum = (l.map weight).sum := by
  have hflat := ((flatten_groupBy_perm key l).map weight).sum_eq
  rw [List.map_flatten, List.sum_flatten, List.map_map] at hflat
  exact hflat

/-- The elements that pass a test, added up group by group. -/
theorem sum_filter_groupBy {M : Type} [AddCommMonoid M] (key : α → κ) (p : α → Bool) (weight : α → M) (l : List α) :
    ((groupBy key l).values.map (fun g => ((g.filter p).map weight).sum)).sum = ((l.filter p).map weight).sum := by
  have hflat := (((flatten_groupBy_perm key l).filter p).map weight).sum_eq
  rw [List.filter_flatten, List.map_flatten, List.sum_flatten, List.map_map, List.map_map] at hflat
  exact hflat

theorem length_groupBy (key : α → κ) (l : List α) : ((groupBy key l).values.map List.length).sum = l.length := by
  rw [← List.length_flatten]
  exact (flatten_groupBy_perm key l).length_eq

theorem countP_groupBy (key : α → κ) (p : α → Bool) (l : List α) :
    ((groupBy key l).values.map (List.countP p)).sum = l.countP p := by
  rw [← List.countP_flatten]
  exact (flatten_groupBy_perm key l).countP_eq p

/-! ## Elements that are replaced -/

theorem setItems_map_value {ν : Type} (f : ν → ν) (k : κ) (v : ν) : ∀ ps : List (κ × ν),
    setItems k (f v) (ps.map (fun p => (p.1, f p.2))) = (setItems k v ps).map (fun p => (p.1, f p.2))
  | [] => rfl
  | p :: ps => by
    rw [List.map_cons, setItems, setItems, setItems_map_value f k v ps]
    split <;> rfl

omit [DecidableEq κ] in
theorem ext_items {ν : Type} {d e : OrdDict κ ν} (h : d.items = e.items) : d = e := by
  cases d
  cases e
  cases h
  rfl

theorem append_mapValues {f : α → α} (d : OrdDict κ (List α)) (k : κ) (x : α) :
    (d.mapValues (List.map f)).append k (f x) = (d.append k x).mapValues (List.map f) := by
  have hvalue : ((d.get? k).map (List.map f)).getD [] ++ [f x] = ((d.get? k).getD [] ++ [x]).map f := by
    cases d.get? k <;> simp
  refine ext_items ?_
  unfold append
  rw [get?_mapValues, hvalue]
  exact setItems_map_value (List.map f) k _ d.items

theorem foldl_append_map {key : α → κ} {f : α → α} (hkey : ∀ x, key (f x) = key x) :
    ∀ (l : List α) (d : OrdDict κ (List α)),
      (l.map f).foldl (fun d x => d.append (key x) x) (d.mapValues (List.map f)) =
        (l.foldl (fun d x => d.append (key x) x) d).mapValues (List.map f)
  | [], _ => rfl
  | x :: l, d => by
    rw [List.map_cons, List.foldl_cons, List.foldl_cons, hkey, append_mapValues, foldl_append_map hkey l]

/-- **Replacing elements by others of their key replaces them in their groups.** -/
theorem groupBy_map {key : α → κ} {f : α → α} (hkey : ∀ x, key (f x) = key x) (l : List α) :
    groupBy key (l.map f) = (groupBy key l).mapValues (List.map f) :=
  foldl_append_map hkey l empty

end OrdDict
