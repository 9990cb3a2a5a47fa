import GoodputLab.Base.Words
import GoodputLab.SynthTextLength
/-!
# SynthTextCount — synthetic text hits its token budget

Closing a sentence and raising the first letter leave words words, so a paragraph is read back by `split` as the words
drawn for it (`returnsOn_synthParagraph`); a document cuts its budget into paragraphs and loses nothing
(`returnsOn_documentParagraphs`), and a query adds the four words of its frame (`returnsOn_synthQuery`).
`synth_text_counts` puts the three together.
-/
namespace GoodputLab

open Gen (Always ReturnsOn always_pure always_bind returnsOn_pure returnsOn_bind)
open Text (IsWord)

variable {source : Nat → Nat → Nat}

/-! ## Tokens of texts put together -/

theorem synthTokenCount_append {c : Char} (hc : Text.isSpace c = true) (s t : Text) :
    synthTokenCount (s ++ c :: t) = synthTokenCount s + synthTokenCount t := by
  rw [synthTokenCount, Text.split_append hc, List.length_append]
  rfl

theorem synthTokenCount_sep {sep : Text} (hne : sep ≠ []) (hsep : ∀ c ∈ sep, Text.isSpace c = true) (s t : Text) :
    synthTokenCount (s ++ (sep ++ t)) = synthTokenCount s + synthTokenCount t := by
  rw [synthTokenCount, Text.split_append_spaces hne hsep, List.length_append]
  rfl

theorem blankLine_spaces : ∀ c ∈ ['\n', '\n'], Text.isSpace c = true := by
  intro c hc
  rcases List.mem_cons.1 hc with rfl | hc
  · rfl
  · exact Text.mem_singleton_isSpace rfl c hc

/-- A blank line separates tokens. -/
theorem synthTokenCount_blankLine (s t : Text) :
    synthTokenCount (s ++ ("\n\n".toList ++ t)) = synthTokenCount s + synthTokenCount t :=
  synthTokenCount_sep (List.cons_ne_nil _ _) blankLine_spaces s t

theorem synthTokenCount_join {sep : Text} (hne : sep ≠ []) (hsep : ∀ c ∈ sep, Text.isSpace c = true)
    (parts : List Text) : synthTokenCount (Text.join sep parts) = (parts.map synthTokenCount).sum := by
  rw [synthTokenCount, Text.split_join_spaces hne hsep, List.length_flatMap]
  rfl

theorem synthTokenCount_word {w : Text} (h : IsWord w) : synthTokenCount w = 1 := by
  rw [synthTokenCount, h.split]
  rfl

/-! The labels that the prompts share are a token each. -/

theorem systemLabel_count : synthTokenCount "System:".toList = 1 := by decide +kernel

theorem userLabel_count : synthTokenCount "User:".toList = 1 := by decide +kernel

theorem assistantLabel_count : synthTokenCount "Assistant:".toList = 1 := by decide +kernel

/-! ## Words stay words -/

theorem words_isWord : ∀ w ∈ words, IsWord w := by
  have hall : words.all (fun w => !w.isEmpty && w.all (fun c => Text.isSpace c == false)) = true := by decide +kernel
  intro w hw
  have hword := List.all_eq_true.1 hall w hw
  rw [Bool.and_eq_true, Bool.not_eq_true', List.isEmpty_eq_false_iff] at hword
  exact Text.isWord_of_all hword.1 hword.2

theorem upperFirst_isWord {w : Text} (h : IsWord w) : IsWord (upperFirst w) := by
  obtain ⟨c, cs, rfl⟩ := List.exists_cons_of_ne_nil h.ne_nil
  refine ⟨List.cons_ne_nil _ _, fun d hd => ?_⟩
  rcases List.mem_cons.1 hd with rfl | hd
  · rw [Text.isSpace_toUpper]
    exact h.solid c List.mem_cons_self
  · exact h.solid d (List.mem_cons_of_mem _ hd)

theorem capitalize_isWord {w : Text} (h : IsWord w) : IsWord (capitalize w) := by
  obtain ⟨c, cs, rfl⟩ := List.exists_cons_of_ne_nil h.ne_nil
  refine ⟨List.cons_ne_nil _ _, fun d hd => ?_⟩
  rcases List.mem_cons.1 hd with rfl | hd
  · rw [Text.isSpace_toUpper]
    exact h.solid c List.mem_cons_self
  · obtain ⟨e, he, rfl⟩ := List.mem_map.1 hd
    rw [Text.isSpace_toLower]
    exact h.solid e (List.mem_cons_of_mem _ he)

theorem closeSentence_isWord {ws : List Text} (h : ∀ w ∈ ws, IsWord w) : ∀ w ∈ closeSentence ws, IsWord w := by
  intro w hw
  unfold closeSentence at hw
  cases hlast : ws.getLast? with
  | none =>
    rw [hlast] at hw
    cases hw
  | some last =>
    rw [hlast] at hw
    rcases List.mem_append.1 hw with hw | hw
    · exact h w (List.mem_of_mem_dropLast hw)
    · rw [List.mem_singleton.1 hw]
      have hword := capitalize_isWord (h last (List.mem_of_getLast? hlast))
      exact hword.append (Text.mem_singleton_isSpace rfl)

/-! ## A paragraph -/

theorem returnsOn_chooseWords : ∀ n, ReturnsOn source (chooseWords n) (fun ws => ∀ w ∈ ws, IsWord w)
  | 0 => returnsOn_pure (fun w hw => by cases hw)
  | n + 1 => by
    unfold chooseWords
    refine returnsOn_bind (Gen.returnsOn_choice words words_ne_nil) (fun w hw => ?_)
    refine returnsOn_bind (returnsOn_chooseWords n) (fun ws hws => returnsOn_pure (fun v hv => ?_))
    rcases List.mem_cons.1 hv with rfl | hv
    · exact words_isWord v hw
    · exact hws v hv

theorem returnsOn_paragraphWords (remaining : Nat) :
    ReturnsOn source (paragraphWords remaining) (fun ws => ∀ w ∈ ws, IsWord w) := by
  induction remaining using Nat.strong_induction_on with
  | _ remaining ih =>
    rw [paragraphWords]
    split
    · exact returnsOn_pure (fun w hw => by cases hw)
    · refine returnsOn_bind (returnsOn_chooseWords _) (fun run hrun => ?_)
      refine returnsOn_bind (ih _ (by omega)) (fun rest hrest => returnsOn_pure (fun w hw => ?_))
      rcases List.mem_append.1 hw with hw | hw
      · split at hw
        · exact closeSentence_isWord hrun w hw
        · exact hrun w hw
      · exact hrest w hw

/-- Raising the first letter of a join of words raises that of the first word. -/
theorem split_upperFirst {ws : List Text} (h : ∀ w ∈ ws, IsWord w) :
    (Text.split (upperFirst (Text.join [' '] ws))).length = ws.length := by
  cases ws with
  | nil => rfl
  | cons w ws =>
    have hraise : upperFirst (Text.join [' '] (w :: ws)) = Text.join [' '] (upperFirst w :: ws) := by
      obtain ⟨c, cs, rfl⟩ := List.exists_cons_of_ne_nil (h w List.mem_cons_self).ne_nil
      cases ws with
      | nil => simp [upperFirst]
      | cons v ws =>
        rw [Text.join_cons_cons, Text.join_cons_cons]
        rfl
    rw [hraise, Text.split_join_words]
    · rfl
    · intro v hv
      rcases List.mem_cons.1 hv with rfl | hv
      · exact upperFirst_isWord (h w List.mem_cons_self)
      · exact h v (List.mem_cons_of_mem _ hv)

theorem always_synthParagraph_any (targetTokens : Int) : Always (synthParagraph targetTokens) (fun _ => True) :=
  (always_synthParagraph targetTokens).weaken (fun _ _ => trivial)

/-- **A paragraph has as many tokens as asked for.** -/
theorem returnsOn_synthParagraph (targetTokens : Int) :
    ReturnsOn source (synthParagraph targetTokens) (fun t => synthTokenCount t = targetTokens.toNat) := by
  unfold synthParagraph
  split
  · rename_i hneg
    exact returnsOn_pure (by rw [Int.toNat_of_nonpos hneg]; rfl)
  · have hlen := (always_paragraphWords targetTokens.toNat).returns
    intro d t d' hd ht
    obtain ⟨ws, d₁, hws, hrest⟩ := Gen.bind_inv ht
    obtain ⟨hsource, hwords⟩ := returnsOn_paragraphWords targetTokens.toNat d ws d₁ hd hws
    cases hrest
    exact ⟨hsource, (split_upperFirst hwords).trans (hlen d ws _ hws).length⟩

/-! ## A document and a query -/

/-- The paragraphs of a document share out its tokens: the last takes what is left. -/
theorem returnsOn_documentParagraphs : ∀ (n : Nat) (remaining : Int), 0 < remaining →
    (n = 0 ∨ 200 * (n + 1 : Int) ≤ remaining) → ReturnsOn source (documentParagraphs (n + 1) remaining)
      (fun paras => (paras.map synthTokenCount).sum = remaining.toNat)
  | 0, remaining, _, _ => by
    unfold documentParagraphs
    refine returnsOn_bind (returnsOn_synthParagraph _) (fun para hpara => ?_)
    rw [if_pos rfl] at hpara
    rw [if_pos rfl, if_pos (by omega)]
    exact returnsOn_pure (by simp [hpara])
  | n + 1, remaining, hpos, h => by
    unfold documentParagraphs
    refine returnsOn_bind (returnsOn_synthParagraph _) (fun para hpara => ?_)
    rw [if_neg (Nat.succ_ne_zero n)] at hpara
    rw [if_neg (Nat.succ_ne_zero n), if_neg (by omega)]
    have hrest := returnsOn_documentParagraphs n (remaining - 200) (by omega) (by omega)
    refine returnsOn_bind hrest (fun paras hparas => returnsOn_pure ?_)
    rw [List.map_cons, List.sum_cons, hpara, hparas]
    omega

/-- **A document has as many tokens as asked for.** -/
theorem returnsOn_synthDocument (targetTokens : Int) :
    ReturnsOn source (synthDocument targetTokens) (fun t => synthTokenCount t = targetTokens.toNat) := by
  unfold synthDocument
  split
  · rename_i hneg
    exact returnsOn_pure (by rw [Int.toNat_of_nonpos hneg]; rfl)
  · obtain ⟨n, hn⟩ : ∃ n, (max 1 (targetTokens / 200)).toNat = n + 1 :=
      ⟨(max 1 (targetTokens / 200)).toNat - 1, by omega⟩
    rw [hn]
    refine returnsOn_bind (returnsOn_documentParagraphs n targetTokens (by omega) (by omega)) (fun paras hparas => ?_)
    apply returnsOn_pure
    rw [← hparas, synthTokenCount_join (List.cons_ne_nil _ _) blankLine_spaces]

/-- The tokens of a query: the words of its body and the four around them. -/
def queryTokens (targetTokens : Int) : Nat := if targetTokens ≤ 0 then 0 else (max 1 (targetTokens - 6) + 4).toNat

theorem queryTokens_mono {m n : Int} (h : m ≤ n) : queryTokens m ≤ queryTokens n := by
  unfold queryTokens
  split_ifs <;> omega

/-- **A query has four tokens more than its body.** -/
theorem returnsOn_synthQuery (targetTokens : Int) :
    ReturnsOn source (synthQuery targetTokens) (fun t => synthTokenCount t = queryTokens targetTokens) := by
  unfold synthQuery
  by_cases hneg : targetTokens ≤ 0
  · rw [if_pos hneg]
    exact returnsOn_pure (by rw [queryTokens, if_pos hneg]; rfl)
  · rw [if_neg hneg]
    refine returnsOn_bind (returnsOn_synthParagraph _) (fun body hbody => returnsOn_pure ?_)
    have hframe : "Question: ".toList ++ body ++ " Please answer concisely.".toList =
        "Question:".toList ++ ' ' :: (body ++ ' ' :: "Please answer concisely.".toList) := by
      simp
    rw [hframe, synthTokenCount_append rfl, synthTokenCount_append rfl, hbody,
      show synthTokenCount "Question:".toList = 1 from by decide +kernel,
      show synthTokenCount "Please answer concisely.".toList = 3 from by decide +kernel, queryTokens, if_neg hneg]
    omega

theorem always_synthQuery (targetTokens : Int) : Always (synthQuery targetTokens) (fun _ => True) := by
  unfold synthQuery
  split
  · exact always_pure trivial
  · exact always_bind (always_synthParagraph_any _) (fun body _ => always_pure trivial)

/-- **Synthetic text hits its token budget exactly**, whatever is drawn. -/
theorem synth_text_counts (n : Int) :
    Always (synthParagraph n) (fun t => (synthTokenCount t : Int) = max n 0) ∧
    Always (synthDocument n) (fun t => (synthTokenCount t : Int) = max n 0) ∧
    (0 < n → Always (synthQuery n) (fun t => (synthTokenCount t : Int) = max 1 (n - 6) + 4)) := by
  refine ⟨?_, ?_, fun hpos => ?_⟩
  · have hcount := (always_synthParagraph n).and_returnsOn (fun _ => returnsOn_synthParagraph n)
    refine hcount.weaken (fun t ht => ?_)
    rw [ht.2, Int.ofNat_toNat]
  · have hcount := (always_synthDocument n).and_returnsOn (fun _ => returnsOn_synthDocument n)
    refine hcount.weaken (fun t ht => ?_)
    rw [ht.2, Int.ofNat_toNat]
  · have hcount := (always_synthQuery n).and_returnsOn (fun _ => returnsOn_synthQuery n)
    refine hcount.weaken (fun t ht => ?_)
    rw [ht.2, queryTokens, if_neg (not_le.2 hpos)]
    omega

theorem query_of_twenty :
    ∃ t d', synthQuery 20 ⟨Gen.lowest, 0⟩ = some (t, d') ∧ (synthTokenCount t : Int) = max 1 (20 - 6) + 4 :=
  (synth_text_counts 20).2.2 (by decide) ⟨Gen.lowest, 0⟩

end GoodputLab
