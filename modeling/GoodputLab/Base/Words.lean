import GoodputLab.Base.Text
/-!
# Words — `split` of texts put together

Whitespace between two texts separates their words (`split_append`); what `split` does to separators, joins and words
follows from that one equation (`split_append_spaces`, `split_join`, `split_join_words`).  More parts make a longer join
(`join_prefix_join`), and padded numerals are distinct (`zfill_injective`).
-/

namespace Text

/-- A text that `split` leaves whole. -/
structure IsWord (w : Text) : Prop where
  ne_nil : w ≠ []
  solid  : ∀ c ∈ w, isSpace c = false

theorem isWord_of_all {w : Text} (hne : w ≠ []) (h : w.all (fun c => isSpace c == false) = true) : IsWord w :=
  ⟨hne, fun c hc => eq_of_beq (List.all_eq_true.1 h c hc)⟩

theorem IsWord.append {w v : Text} (hw : IsWord w) (hv : ∀ c ∈ v, isSpace c = false) : IsWord (w ++ v) := by
  refine ⟨List.append_ne_nil_of_left_ne_nil hw.ne_nil v, fun c hc => ?_⟩
  rcases List.mem_append.1 hc with hc | hc
  · exact hw.solid c hc
  · exact hv c hc

theorem mem_singleton_isSpace {c : Char} {b : Bool} (h : isSpace c = b) : ∀ d ∈ [c], isSpace d = b := by
  intro d hd
  rw [List.mem_singleton.1 hd, h]

theorem splitAux_append {c : Char} (hc : isSpace c = true) (t : Text) :
    ∀ s w : Text, splitAux w (s ++ c :: t) = splitAux w s ++ split t
  | [], w => by
    rw [List.nil_append, splitAux, splitAux, if_pos hc]
    split <;> rfl
  | d :: s, w => by
    rw [List.cons_append, splitAux, splitAux]
    split
    · split
      · exact splitAux_append hc t s []
      · rw [splitAux_append hc t s []]
        rfl
    · exact splitAux_append hc t s (d :: w)

/-- **Whitespace separates words.** -/
theorem split_append {c : Char} (hc : isSpace c = true) (s t : Text) : split (s ++ c :: t) = split s ++ split t :=
  splitAux_append hc t s []

theorem split_cons {c : Char} (hc : isSpace c = true) (t : Text) : split (c :: t) = split t :=
  split_append hc [] t

/-- A separator of whitespace is no more than one of its characters. -/
theorem split_append_spaces {sep : Text} (hne : sep ≠ []) (hsep : ∀ c ∈ sep, isSpace c = true) (s t : Text) :
    split (s ++ (sep ++ t)) = split s ++ split t := by
  obtain ⟨c, cs, rfl⟩ := List.exists_cons_of_ne_nil hne
  rw [List.cons_append, split_append (hsep c List.mem_cons_self)]
  have hrest : ∀ ds : Text, (∀ d ∈ ds, isSpace d = true) → split (ds ++ t) = split t := by
    intro ds hds
    induction ds with
    | nil => rfl
    | cons d ds ih =>
      rw [List.cons_append, split_cons (hds d List.mem_cons_self)]
      exact ih (fun e he => hds e (List.mem_cons_of_mem _ he))
  rw [hrest cs (fun d hd => hsep d (List.mem_cons_of_mem _ hd))]

theorem splitAux_word : ∀ {w : Text}, (∀ c ∈ w, isSpace c = false) → ∀ v : Text, v ++ w ≠ [] →
    splitAux v w = [v.reverse ++ w]
  | [], _, v, hne => by
    rw [List.append_nil] at hne
    rw [splitAux, if_neg hne, List.append_nil]
  | c :: w, h, v, _ => by
    have hc : ¬ isSpace c = true := by
      rw [h c List.mem_cons_self]
      exact Bool.false_ne_true
    rw [splitAux, if_neg hc, splitAux_word (fun d hd => h d (List.mem_cons_of_mem _ hd)) (c :: v) (List.cons_ne_nil _ _),
      List.reverse_cons, List.append_assoc]
    rfl

@[simp] theorem IsWord.split {w : Text} (h : IsWord w) : Text.split w = [w] :=
  splitAux_word h.solid [] h.ne_nil

/-- **The words of a join**: those of its parts, with the separator's own words between. -/
theorem split_join {sep : Text} {mid : List Text} (hsep : ∀ s t, split (s ++ (sep ++ t)) = split s ++ (mid ++ split t)) :
    ∀ parts : List Text, split (join sep parts) = List.intercalate mid (parts.map split)
  | [] => rfl
  | [s] => by simp [List.intercalate]
  | s :: t :: parts => by
    rw [join_cons_cons, hsep, split_join hsep (t :: parts), ← List.append_assoc]
    exact List.intercalate_cons_cons.symm

theorem intercalate_nil {α : Type} : ∀ ls : List (List α), List.intercalate [] ls = ls.flatten
  | [] => rfl
  | [l] => by simp [List.intercalate]
  | l :: m :: ls => by
    rw [List.intercalate_cons_cons, intercalate_nil (m :: ls)]
    simp

theorem split_join_spaces {sep : Text} (hne : sep ≠ []) (hsep : ∀ c ∈ sep, isSpace c = true) (parts : List Text) :
    split (join sep parts) = parts.flatMap split := by
  have hbare : ∀ s t, split (s ++ (sep ++ t)) = split s ++ ([] ++ split t) := split_append_spaces hne hsep
  rw [split_join hbare, intercalate_nil, List.flatMap_def]

theorem length_intercalate_singleton {α : Type} (a : α) : ∀ {ls : List (List α)}, ls ≠ [] →
    (List.intercalate [a] ls).length + 1 = (ls.map (fun l => l.length + 1)).sum
  | [], h => absurd rfl h
  | [l], _ => by simp [List.intercalate]
  | l :: m :: ls, _ => by
    have hrest := length_intercalate_singleton a (List.cons_ne_nil m ls)
    rw [List.intercalate_cons_cons, List.map_cons, List.sum_cons, ← hrest, List.length_append, List.length_append,
      List.length_singleton]
    omega

/-- **Words joined by blanks are read back.** -/
theorem split_join_words {ws : List Text} (h : ∀ w ∈ ws, IsWord w) : split (join [' '] ws) = ws := by
  rw [split_join_spaces (List.cons_ne_nil _ _) (mem_singleton_isSpace rfl)]
  induction ws with
  | nil => rfl
  | cons w ws ih =>
    rw [List.flatMap_cons, (h w List.mem_cons_self).split, ih (fun v hv => h v (List.mem_cons_of_mem _ hv))]
    rfl

/-- **Joining more parts extends the text.** -/
theorem join_prefix_join (sep : Text) : ∀ {ps qs : List Text}, ps <+: qs → join sep ps <+: join sep qs
  | [], _, _ => List.nil_prefix
  | [p], _, ⟨rest, rfl⟩ => by
    rw [join_singleton]
    exact prefix_join sep p rest
  | p :: r :: ps, _, ⟨rest, rfl⟩ => by
    rw [List.cons_append, List.cons_append, join_cons_cons, join_cons_cons]
    have hrest := join_prefix_join sep (List.prefix_append (r :: ps) rest)
    rw [List.cons_append] at hrest
    exact (List.prefix_append_right_inj p).2 ((List.prefix_append_right_inj sep).2 hrest)

/-! ## Letters and digits -/

theorem isSpace_printable {c : Char} (h : 33 ≤ c.toNat ∧ c.toNat ≤ 126) : isSpace c = false := by
  obtain ⟨hlo, hhi⟩ := h
  unfold isSpace
  simp only [Bool.or_eq_false_iff, Bool.and_eq_false_iff, decide_eq_false_iff_not]
  omega

@[simp] theorem isSpace_toUpper (c : Char) : isSpace c.toUpper = isSpace c := by
  unfold Char.toUpper
  split
  · rename_i h
    have hlo : 97 ≤ c.toNat := h.1
    have hhi : c.toNat ≤ 122 := h.2
    rw [isSpace_printable (c := c) ⟨by omega, by omega⟩]
    apply isSpace_printable
    show 33 ≤ (c.val + ('A'.val - 'a'.val)).toNat ∧ (c.val + ('A'.val - 'a'.val)).toNat ≤ 126
    rw [UInt32.toNat_add, show ('A'.val - 'a'.val).toNat = 4294967264 from rfl, show c.val.toNat = c.toNat from rfl]
    omega
  · rfl

@[simp] theorem isSpace_toLower (c : Char) : isSpace c.toLower = isSpace c := by
  unfold Char.toLower
  split
  · rename_i h
    have hlo : 65 ≤ c.toNat := h.1
    have hhi : c.toNat ≤ 90 := h.2
    rw [isSpace_printable (c := c) ⟨by omega, by omega⟩]
    apply isSpace_printable
    show 33 ≤ (c.val + ('a'.val - 'A'.val)).toNat ∧ (c.val + ('a'.val - 'A'.val)).toNat ≤ 126
    rw [UInt32.toNat_add, show ('a'.val - 'A'.val).toNat = 32 from rfl, show c.val.toNat = c.toNat from rfl]
    omega
  · rfl

theorem solid_ofNat (n : Nat) : ∀ c ∈ ofNat n, isSpace c = false := by
  intro c hc
  have hdigit := Nat.isDigit_of_mem_toDigits (by decide) (by decide) hc
  simp only [Char.isDigit, Bool.and_eq_true, decide_eq_true_eq] at hdigit
  have hlo : 48 ≤ c.toNat := hdigit.1
  have hhi : c.toNat ≤ 57 := hdigit.2
  exact isSpace_printable ⟨by omega, by omega⟩

theorem isWord_ofNat (n : Nat) : IsWord (ofNat n) := ⟨Nat.toDigits_ne_nil, solid_ofNat n⟩

theorem zfill_injective (width : Nat) : Function.Injective (zfill width) := by
  intro m n h
  have hread : ∀ k, Nat.ofDigitChars 10 (zfill width k) 0 = k := by
    intro k
    rw [zfill, Nat.ofDigitChars_append, Nat.ofDigitChars_replicate_zero, Nat.mul_zero]
    exact Nat.ofDigitChars_ten_toDigits
  rw [← hread m, h, hread n]

end Text
