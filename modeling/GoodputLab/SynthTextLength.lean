import GoodputLab.SynthText
/-!
# SynthTextLength — how long synthetic text is

Building text never raises, whatever is drawn.  A paragraph has the words it was asked for, each of two characters or
more (`always_paragraphWords`), so with the blanks between them it is nearly three times as long
(`always_synthParagraph`), and a document is no shorter than its first paragraph (`always_synthDocument`).
-/
namespace GoodputLab

open Gen (Always always_pure always_bind always_choice)

/-- As many words as asked for, of two characters or more. -/
structure LongWords (n : Nat) (ws : List Text) : Prop where
  length : ws.length = n
  long   : ∀ w ∈ ws, 2 ≤ w.length

theorem words_long : ∀ w ∈ words, 2 ≤ w.length := by decide +kernel

theorem LongWords.append {m n : Nat} {us ws : List Text} (hu : LongWords m us) (hw : LongWords n ws) :
    LongWords (m + n) (us ++ ws) := by
  refine ⟨by rw [List.length_append, hu.length, hw.length], fun w h => ?_⟩
  rcases List.mem_append.1 h with h | h
  · exact hu.long w h
  · exact hw.long w h

@[simp] theorem length_upperFirst (t : Text) : (upperFirst t).length = t.length := by
  cases t <;> rfl

@[simp] theorem length_capitalize (t : Text) : (capitalize t).length = t.length := by
  cases t with
  | nil => rfl
  | cons c cs => simp [capitalize]

theorem LongWords.closeSentence {n : Nat} {ws : List Text} (h : LongWords n ws) : LongWords n (closeSentence ws) := by
  unfold GoodputLab.closeSentence
  cases hlast : ws.getLast? with
  | none =>
    rw [List.getLast?_eq_none_iff.1 hlast] at h
    exact h
  | some last =>
    obtain ⟨front, rfl⟩ := List.getLast?_eq_some_iff.1 hlast
    rw [List.dropLast_concat]
    refine ⟨?_, fun w hw => ?_⟩
    · rw [List.length_append, List.length_singleton, ← h.length, List.length_append, List.length_singleton]
    · rcases List.mem_append.1 hw with hw | hw
      · exact h.long w (List.mem_append_left _ hw)
      · have hl := h.long last (List.mem_append_right _ List.mem_cons_self)
        rw [List.mem_singleton.1 hw, List.length_append, length_capitalize]
        omega

theorem always_chooseWords : ∀ n, Always (chooseWords n) (LongWords n)
  | 0 => always_pure ⟨rfl, fun w hw => by cases hw⟩
  | n + 1 => by
    unfold chooseWords
    refine always_bind (always_choice words words_ne_nil) (fun w hw => ?_)
    refine always_bind (always_chooseWords n) (fun ws hws => ?_)
    refine always_pure ⟨by rw [List.length_cons, hws.length], fun v hv => ?_⟩
    rcases List.mem_cons.1 hv with rfl | hv
    · exact words_long v hw
    · exact hws.long v hv

theorem always_paragraphWords (remaining : Nat) : Always (paragraphWords remaining) (LongWords remaining) := by
  induction remaining using Nat.strong_induction_on with
  | _ remaining ih =>
    rw [paragraphWords]
    split
    · rename_i hzero
      exact always_pure ⟨by rw [hzero]; rfl, fun w hw => by cases hw⟩
    · refine always_bind (always_chooseWords _) (fun run hrun => ?_)
      refine always_bind (ih _ (by omega)) (fun rest hrest => ?_)
      have hclosed : LongWords (min 20 remaining) (if min 20 remaining < remaining then closeSentence run else run) := by
        split
        · exact hrun.closeSentence
        · exact hrun
      have hall := hclosed.append hrest
      rw [Nat.add_sub_cancel' (min_le_right _ _)] at hall
      exact always_pure hall

/-- Words with blanks between them. -/
theorem length_joined : ∀ (n : Nat) (ws : List Text), LongWords (n + 1) ws → 3 * n + 2 ≤ (Text.join [' '] ws).length
  | _, [], h => by cases h.length
  | n, [w], h => by
    have hn : n = 0 := (Nat.succ.inj h.length).symm
    have hw := h.long w List.mem_cons_self
    rw [Text.join_singleton, hn]
    exact hw
  | 0, _ :: _ :: _, h => by cases h.length
  | n + 1, w :: v :: ws, h => by
    have hw := h.long w List.mem_cons_self
    have hrest := length_joined n (v :: ws) ⟨Nat.succ.inj h.length, fun u hu => h.long u (List.mem_cons_of_mem _ hu)⟩
    rw [Text.join_cons_cons, List.length_append, List.length_append, List.length_singleton]
    omega

/-- **A paragraph** of `n` tokens has at least `3 n - 1` characters. -/
theorem always_synthParagraph (targetTokens : Int) :
    Always (synthParagraph targetTokens) (fun t => 3 * targetTokens ≤ t.length + 1) := by
  unfold synthParagraph
  split
  · rename_i hneg
    exact always_pure (by simp only [List.length_nil]; omega)
  · rename_i hpos
    refine always_bind (always_paragraphWords _) (fun ws hws => always_pure ?_)
    obtain ⟨n, hn⟩ : ∃ n, targetTokens.toNat = n + 1 := ⟨targetTokens.toNat - 1, by omega⟩
    rw [hn] at hws
    have hlen := length_joined n ws hws
    rw [length_upperFirst]
    omega

/-- The first paragraph of a document, which is long when the document is. -/
theorem always_documentParagraphs : ∀ (n : Nat) (remaining : Int), Always (documentParagraphs n remaining)
    (fun paras => 0 < n → 100 ≤ remaining → ∃ para rest, paras = para :: rest ∧ 299 ≤ para.length)
  | 0, _ => always_pure (fun h => absurd h (Nat.lt_irrefl 0))
  | n + 1, remaining => by
    unfold documentParagraphs
    refine always_bind (always_synthParagraph _) (fun para hpara => ?_)
    have hlong : 100 ≤ remaining → 299 ≤ para.length := by
      intro h
      split at hpara <;> omega
    by_cases hlast : remaining - (if n = 0 then remaining else 200) ≤ 0
    · rw [if_pos hlast]
      exact always_pure (fun _ h => ⟨para, [], rfl, hlong h⟩)
    · rw [if_neg hlast]
      exact always_bind (always_documentParagraphs n _) (fun rest _ => always_pure (fun _ h => ⟨para, rest, rfl, hlong h⟩))

/-- **A document** of 100 tokens or more has at least 299 characters. -/
theorem always_synthDocument (targetTokens : Int) :
    Always (synthDocument targetTokens) (fun t => 100 ≤ targetTokens → 299 ≤ t.length) := by
  unfold synthDocument
  split
  · exact always_pure (fun h => by omega)
  · refine always_bind (always_documentParagraphs _ _) (fun paras hparas => always_pure (fun h => ?_))
    obtain ⟨para, rest, rfl, hlong⟩ := hparas (by omega) h
    exact hlong.trans (Text.prefix_join _ para rest).length_le

end GoodputLab
