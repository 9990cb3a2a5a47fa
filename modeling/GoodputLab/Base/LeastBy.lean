import Mathlib
/-!
# LeastBy — sort by a key, take the first that passes

A stable sort by `key` followed by a walk to the first element that passes `p`.  What it returns passes and is least
among those that pass (`leastBy_mem`, `leastBy_passes`, `leastBy_le`), and it returns nothing only when nothing passes
(`leastBy_eq_none`).  Where the keys are distinct, the order of the list does not matter (`leastBy_perm`).
-/

variable {α ι : Type} [LinearOrder ι]

def sortBy (key : α → ι) (l : List α) : List α := l.insertionSort (fun a b => key a ≤ key b)

def leastBy (key : α → ι) (p : α → Bool) (l : List α) : Option α := (sortBy key l).find? p

theorem mem_sortBy (key : α → ι) (l : List α) (a : α) : a ∈ sortBy key l ↔ a ∈ l :=
  List.mem_insertionSort _

theorem sortBy_sorted (key : α → ι) (l : List α) : (sortBy key l).Pairwise (fun a b => key a ≤ key b) := by
  have : Std.Total (fun a b : α => key a ≤ key b) := ⟨fun a b => le_total (key a) (key b)⟩
  have : IsTrans α (fun a b : α => key a ≤ key b) := ⟨fun _ _ _ h h' => le_trans h h'⟩
  exact List.pairwise_insertionSort _ l

theorem leastBy_mem {key : α → ι} {p : α → Bool} {l : List α} {a : α} (h : leastBy key p l = some a) : a ∈ l :=
  (mem_sortBy key l a).1 (List.mem_of_find?_eq_some h)

theorem leastBy_passes {key : α → ι} {p : α → Bool} {l : List α} {a : α} (h : leastBy key p l = some a) :
    p a = true :=
  List.find?_some h

theorem find?_le_of_sorted {key : α → ι} {p : α → Bool} {a : α} : ∀ {s : List α},
    s.Pairwise (fun a b => key a ≤ key b) → s.find? p = some a → ∀ b ∈ s, p b = true → key a ≤ key b
  | [], _, h, _, _, _ => by cases h
  | x :: s, hs, h, b, hb, hp => by
    rw [List.pairwise_cons] at hs
    rw [List.find?_cons] at h
    cases hx : p x with
    | true =>
      rw [hx] at h
      obtain rfl : x = a := by simpa using h
      rcases List.mem_cons.1 hb with rfl | hb
      · exact le_refl _
      · exact hs.1 b hb
    | false =>
      rw [hx] at h
      rcases List.mem_cons.1 hb with rfl | hb
      · rw [hx] at hp
        cases hp
      · exact find?_le_of_sorted hs.2 h b hb hp

theorem leastBy_le {key : α → ι} {p : α → Bool} {l : List α} {a : α} (h : leastBy key p l = some a) :
    ∀ b ∈ l, p b = true → key a ≤ key b :=
  fun b hb => find?_le_of_sorted (sortBy_sorted key l) h b ((mem_sortBy key l b).2 hb)

theorem leastBy_eq_none {key : α → ι} {p : α → Bool} {l : List α} :
    leastBy key p l = none ↔ ∀ a ∈ l, p a = false := by
  unfold leastBy
  rw [List.find?_eq_none]
  constructor
  · intro h a ha
    simpa using h a ((mem_sortBy key l a).2 ha)
  · intro h a ha
    simp [h a ((mem_sortBy key l a).1 ha)]

/-- **The order of the list does not matter** when no two of its elements have the same key. -/
theorem leastBy_perm (key : α → ι) (p : α → Bool) {l m : List α} (hperm : l.Perm m)
    (hinj : ∀ a ∈ l, ∀ b ∈ l, key a = key b → a = b) : leastBy key p l = leastBy key p m := by
  cases hl : leastBy key p l with
  | none =>
    exact (leastBy_eq_none.2 (fun a ha => leastBy_eq_none.1 hl a (hperm.mem_iff.2 ha))).symm
  | some a =>
    have ha := leastBy_mem hl
    cases hm : leastBy key p m with
    | none =>
      have hno := leastBy_eq_none.1 hm a (hperm.mem_iff.1 ha)
      rw [leastBy_passes hl] at hno
      cases hno
    | some b =>
      have hb := hperm.mem_iff.2 (leastBy_mem hm)
      have hab := leastBy_le hl b hb (leastBy_passes hm)
      have hba := leastBy_le hm a (hperm.mem_iff.1 ha) (leastBy_passes hl)
      rw [hinj a ha b hb (le_antisymm hab hba)]
