import GoodputLab.MetricsConcat
/-!
# MetricsKeys — what is lost when samples are kept under flattened keys

A sample is kept under its name and its labels written as `k=v` and joined with commas, and nothing in a label value is
escaped: two label sets that read the same share a key, and the later sample overwrites the earlier one.  The sum read for
a name is that of its samples exactly when the overwritten ones sum to what strays in from other names
(`sum_matching_iff`), of which there is nothing while no label value holds a comma (`sum_matching_of_plain`).
-/
namespace GoodputLab

open OrdDict (lastBy earlierBy lastBy_perm items_ofList_perm)

/-! ## What a sum reads -/

/-- The sum of the values of all samples of the name. -/
def seriesTotal (parser : SampleParser) (text name : Text) : ℚ :=
  (((parser.samples text).filter (fun s => s.name = name)).map Sample.value).sum

/-- The sum of the values of the name's samples that no later sample with the same key overwrites. -/
def kept (parser : SampleParser) (text name : Text) : ℚ :=
  (((lastBy Sample.key (parser.samples text)).filter (fun s => s.name = name)).map Sample.value).sum

/-- The sum of the values of the name's samples that a later sample with the same key overwrites. -/
def overwritten (parser : SampleParser) (text name : Text) : ℚ :=
  (((earlierBy Sample.key (parser.samples text)).filter (fun s => s.name = name)).map Sample.value).sum

/-- The sum of the values kept of other names' samples whose key reads as one of the name's. -/
def strayed (parser : SampleParser) (text name : Text) : ℚ :=
  (((lastBy Sample.key (parser.samples text)).filter (fun s => isSeriesOf name s.key && !decide (s.name = name))).map
    Sample.value).sum

theorem startsWith_append (s t : Text) : Text.startsWith (s ++ t) s = true := by
  rw [Text.startsWith, List.isPrefixOf_iff_prefix]
  exact List.prefix_append s t

theorem isSeriesOf_own (s : Sample) : isSeriesOf s.name s.key = true := by
  rw [isSeriesOf, Sample.key]
  split
  · simp
  · rw [List.append_assoc (s.name ++ ['{']), startsWith_append, Bool.or_true]

theorem sumWhere_parse (parser : SampleParser) (text : Text) (passes : Text → Bool) :
    sumWhere passes (parsePrometheus parser text) =
      (((lastBy Sample.key (parser.samples text)).filter (fun s => passes s.key)).map Sample.value).sum := by
  have hperm := items_ofList_perm Sample.key Sample.value (parser.samples text)
  rw [parse_eq, sumWhere, assignments, ((hperm.filter _).map _).sum_eq, List.filter_map, List.map_map]
  rfl

theorem sumMatching_eq (parser : SampleParser) (text name : Text) :
    sumMatching (parsePrometheus parser text) name = kept parser text name + strayed parser text name := by
  rw [sumMatching, sumWhere_parse, sum_filter_split Sample.value _ (fun s => decide (s.name = name)), kept]
  congr 3
  refine List.filter_congr (fun s _ => ?_)
  by_cases hs : s.name = name
  · rw [← hs, isSeriesOf_own, Bool.true_and]
  · simp [hs]

theorem seriesTotal_eq (parser : SampleParser) (text name : Text) :
    seriesTotal parser text name = kept parser text name + overwritten parser text name := by
  rw [seriesTotal, (((lastBy_perm Sample.key (parser.samples text)).filter _).map _).sum_eq, List.filter_append,
    List.map_append, List.sum_append]
  rfl

/-- **A sum reads all samples of its name exactly when what is overwritten strays in again.** -/
theorem sum_matching_iff (parser : SampleParser) (text name : Text) :
    sumMatching (parsePrometheus parser text) name = seriesTotal parser text name ↔
      overwritten parser text name = strayed parser text name := by
  rw [sumMatching_eq, seriesTotal_eq, add_left_cancel_iff, eq_comm]

/-! ## Labels that read back -/

def labelText (p : Text × Text) : Text := p.1 ++ ['='] ++ p.2

/-- No brace in the name, no comma in a label, and no equals sign in a label's name. -/
structure PlainSample (s : Sample) : Prop where
  name   : '{' ∉ s.name
  names  : ∀ p ∈ s.labels.items, ',' ∉ p.1 ∧ '=' ∉ p.1
  values : ∀ p ∈ s.labels.items, ',' ∉ p.2

/-- No two samples share both name and label set. -/
def SeriesDistinct (parser : SampleParser) (text : Text) : Prop :=
  (parser.samples text).Pairwise (fun s t => ¬ (s.name = t.name ∧ s.labels.items.Perm t.labels.items))

def sortedLabels (s : Sample) : List (Text × Text) := s.labels.items.insertionSort (fun a b => a.1 ≤ b.1)

theorem labelKey_eq (s : Sample) : s.labelKey = Text.join [','] ((sortedLabels s).map labelText) := rfl

theorem mem_sortedLabels (s : Sample) (p : Text × Text) : p ∈ sortedLabels s ↔ p ∈ s.labels.items :=
  List.mem_insertionSort _

theorem PlainSample.comma_notMem {s : Sample} (h : PlainSample s) : ∀ t ∈ (sortedLabels s).map labelText, ',' ∉ t := by
  intro t ht
  obtain ⟨p, hp, rfl⟩ := List.mem_map.1 ht
  rw [mem_sortedLabels] at hp
  have hname := (h.names p hp).1
  have hvalue := h.values p hp
  simp [labelText, hname, hvalue]

theorem labelText_inj {p q : Text × Text} (hp : '=' ∉ p.1) (hq : '=' ∉ q.1) (h : labelText p = labelText q) : p = q := by
  simp only [labelText, List.append_assoc, List.singleton_append] at h
  obtain ⟨hname, hvalue⟩ := Text.sep_inj hp hq h
  exact Prod.ext hname hvalue

theorem labelTexts_inj : ∀ {l m : List (Text × Text)}, (∀ p ∈ l, '=' ∉ p.1) → (∀ q ∈ m, '=' ∉ q.1) →
    l.map labelText = m.map labelText → l = m
  | [], [], _, _, _ => rfl
  | [], q :: m, _, _, h => by cases h
  | p :: l, [], _, _, h => by cases h
  | p :: l, q :: m, hl, hm, h => by
    obtain ⟨hhead, htail⟩ := List.cons.inj h
    rw [labelText_inj (hl p List.mem_cons_self) (hm q List.mem_cons_self) hhead,
      labelTexts_inj (fun x hx => hl x (List.mem_cons_of_mem _ hx)) (fun x hx => hm x (List.mem_cons_of_mem _ hx)) htail]

theorem labelKey_nil_iff {s : Sample} : s.labelKey = [] ↔ sortedLabels s = [] := by
  rw [labelKey_eq]
  cases sortedLabels s with
  | nil => exact iff_of_true rfl rfl
  | cons p l =>
    refine iff_of_false (fun h => ?_) (List.cons_ne_nil _ _)
    have hprefix := Text.prefix_join [','] (labelText p) (l.map labelText)
    rw [List.map_cons] at h
    rw [h, List.prefix_nil] at hprefix
    simp [labelText] at hprefix

/-- **Labels without commas are read back from the key.** -/
theorem labelKey_inj {s t : Sample} (hs : PlainSample s) (ht : PlainSample t) (h : s.labelKey = t.labelKey) :
    s.labels.items.Perm t.labels.items := by
  have hsorted : sortedLabels s = sortedLabels t := by
    by_cases hnil : sortedLabels s = []
    · rw [hnil, labelKey_nil_iff.1 (h ▸ labelKey_nil_iff.2 hnil)]
    · have hnil' : sortedLabels t ≠ [] := fun hn => hnil (labelKey_nil_iff.1 (h.trans (labelKey_nil_iff.2 hn)))
      rw [labelKey_eq, labelKey_eq] at h
      have hterm := congrArg (· ++ [',']) h
      simp only [Text.join_terminated ',' (List.map_eq_nil_iff.not.2 hnil),
        Text.join_terminated ',' (List.map_eq_nil_iff.not.2 hnil')] at hterm
      exact labelTexts_inj (fun p hp => (hs.names p ((mem_sortedLabels s p).1 hp)).2)
        (fun p hp => (ht.names p ((mem_sortedLabels t p).1 hp)).2)
        (Text.terminated_inj hs.comma_notMem ht.comma_notMem hterm)
  have hperm : (sortedLabels s).Perm s.labels.items := List.perm_insertionSort _ _
  have hperm' : (sortedLabels t).Perm t.labels.items := List.perm_insertionSort _ _
  exact hperm.symm.trans (hsorted ▸ hperm')

theorem key_of_ne_nil {s : Sample} (h : s.labelKey ≠ []) : s.key = s.name ++ '{' :: (s.labelKey ++ ['}']) := by
  rw [Sample.key, if_neg h, List.append_assoc, List.append_assoc]
  rfl

theorem key_of_nil {s : Sample} (h : s.labelKey = []) : s.key = s.name := if_pos h

/-- **Plain samples with one key** share name and label set. -/
theorem key_inj {s t : Sample} (hs : PlainSample s) (ht : PlainSample t) (h : s.key = t.key) :
    s.name = t.name ∧ s.labels.items.Perm t.labels.items := by
  by_cases hks : s.labelKey = []
  · by_cases hkt : t.labelKey = []
    · rw [key_of_nil hks, key_of_nil hkt] at h
      exact ⟨h, labelKey_inj hs ht (hks.trans hkt.symm)⟩
    · rw [key_of_nil hks, key_of_ne_nil hkt] at h
      exact absurd (h ▸ List.mem_append_right _ List.mem_cons_self) hs.name
  · by_cases hkt : t.labelKey = []
    · rw [key_of_ne_nil hks, key_of_nil hkt] at h
      exact absurd (h ▸ List.mem_append_right _ List.mem_cons_self) ht.name
    · rw [key_of_ne_nil hks, key_of_ne_nil hkt] at h
      obtain ⟨hname, hrest⟩ := Text.sep_inj hs.name ht.name h
      exact ⟨hname, labelKey_inj hs ht (List.append_cancel_right hrest)⟩

/-- A key of a plain sample reads as one of its own name's only. -/
theorem isSeriesOf_iff {s : Sample} (hs : PlainSample s) {name : Text} (hname : '{' ∉ name) :
    isSeriesOf name s.key = true ↔ s.name = name := by
  constructor
  · intro h
    rw [isSeriesOf, Bool.or_eq_true, decide_eq_true_eq] at h
    by_cases hk : s.labelKey = []
    · rw [key_of_nil hk] at h
      rcases h with h | h
      · exact h
      · have hmem := (List.isPrefixOf_iff_prefix.1 h).subset (List.mem_append_right _ List.mem_cons_self)
        exact absurd hmem hs.name
    · rw [key_of_ne_nil hk] at h
      rcases h with h | h
      · exact absurd (h ▸ List.mem_append_right _ List.mem_cons_self) hname
      · obtain ⟨rest, hrest⟩ := List.isPrefixOf_iff_prefix.1 h
        rw [List.append_assoc] at hrest
        exact (Text.sep_inj hname hs.name hrest).1.symm
  · rintro rfl
    exact isSeriesOf_own s

/-- **Every sample is read** while the samples are plain and no two share name and label set. -/
theorem sum_matching_of_plain (parser : SampleParser) (text : Text) (hplain : ∀ s ∈ parser.samples text, PlainSample s)
    (hdistinct : SeriesDistinct parser text) {name : Text} (hname : '{' ∉ name) :
    sumMatching (parsePrometheus parser text) name = seriesTotal parser text name := by
  have hkeys : ((parser.samples text).map Sample.key).Nodup :=
    List.pairwise_map.2 (hdistinct.imp_of_mem (fun hs ht hne he => hne (key_inj (hplain _ hs) (hplain _ ht) he)))
  have hmem : ∀ s ∈ lastBy Sample.key (parser.samples text), s ∈ parser.samples text := fun s hs =>
    (lastBy_perm Sample.key _).mem_iff.2 (List.mem_append_left _ hs)
  have hstrayed : (lastBy Sample.key (parser.samples text)).filter
      (fun s => isSeriesOf name s.key && !decide (s.name = name)) = [] := by
    refine List.filter_eq_nil_iff.2 (fun s hs h => ?_)
    rw [Bool.and_eq_true, isSeriesOf_iff (hplain s (hmem s hs)) hname] at h
    simp [h.1] at h
  rw [sumMatching_eq, seriesTotal_eq, overwritten, strayed, OrdDict.earlierBy_eq_nil hkeys, hstrayed]
  rfl

/-! ## Two label sets, one key -/

def commaLine : Text := "vllm:prompt_tokens_total\x7bmodel_name=\"a,x=b\"\x7d 1".toList

def twoLabelLine : Text := "vllm:prompt_tokens_total\x7bmodel_name=\"a\",x=\"b\"\x7d 2".toList

def commaSample : Sample :=
  { name := vllmPromptTokensTotal
    labels := OrdDict.ofList [("model_name".toList, "a,x=b".toList)]
    value := 1 }

def twoLabelSample : Sample :=
  { name := vllmPromptTokensTotal
    labels := OrdDict.ofList [("model_name".toList, "a".toList), ("x".toList, "b".toList)]
    value := 2 }

def sampleOnTwoLines (line : Text) : Option Sample :=
  if line = commaLine then some commaSample else if line = twoLabelLine then some twoLabelSample else none

theorem sampleOnTwoLines_eq_none {line : Text} (hcomma : line ≠ commaLine) (htwo : line ≠ twoLabelLine) :
    sampleOnTwoLines line = none := by
  rw [sampleOnTwoLines, if_neg hcomma, if_neg htwo]

theorem sampleOnTwoLines_of_comment (line : Text) (h : Text.startsWith line ['#'] = true) :
    sampleOnTwoLines line = none :=
  sampleOnTwoLines_eq_none (fun he => absurd (he ▸ h) (by decide +kernel)) (fun he => absurd (he ▸ h) (by decide +kernel))

theorem sampleOnTwoLines_of_blank (line : Text) (h : Text.strip line = []) : sampleOnTwoLines line = none :=
  sampleOnTwoLines_eq_none (fun he => absurd (he ▸ h) (by decide +kernel)) (fun he => absurd (he ▸ h) (by decide +kernel))

/-- A parser of the two lines. -/
def twoLineParser : SampleParser :=
  { sample := sampleOnTwoLines
    onComment := sampleOnTwoLines_of_comment
    onBlank := sampleOnTwoLines_of_blank }

/-- A comma in a label value makes two label sets read alike, and the first sample is lost. -/
theorem comma_in_label_loses_a_sample :
    SeriesDistinct twoLineParser (commaLine ++ '\n' :: twoLabelLine) ∧
      sumMatching (parsePrometheus twoLineParser (commaLine ++ '\n' :: twoLabelLine)) vllmPromptTokensTotal = 2 ∧
      seriesTotal twoLineParser (commaLine ++ '\n' :: twoLabelLine) vllmPromptTokensTotal = 3 := by
  have hsamples : twoLineParser.samples (commaLine ++ '\n' :: twoLabelLine) = [commaSample, twoLabelSample] := by
    rfl
  have hlost : ¬ (commaSample.labels.items.Perm twoLabelSample.labels.items) := fun h =>
    absurd h.length_eq (by decide +kernel)
  refine ⟨?_, by decide +kernel, by decide +kernel⟩
  rw [SeriesDistinct, hsamples, List.pairwise_pair]
  exact fun h => hlost h.2

end GoodputLab
