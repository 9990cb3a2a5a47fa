import GoodputLab.Base.JsonText
/-!
# JsonPrefix — a torn text is not read

What the reader reads of a text it reads of every longer one, once a bracket, a quote or the text behind the value has
ended it (`value_append`).  A written object ends with its brace, so a text cut off before it is refused: the beginning of
a written object, with blanks behind it, is read as the whole or not at all (`loads_torn`).
-/
namespace Json

/-! ## Characters and strings -/

theorem hexCode_append {s rest : Text} {n : Nat} (h : hexCode s = some (n, rest)) (t : Text) :
    hexCode (s ++ t) = some (n, rest ++ t) := by
  match s, h with
  | a :: b :: c :: d :: r, h =>
    simp only [hexCode, Option.bind_eq_bind, Option.bind_eq_some_iff] at h
    obtain ⟨va, ha, vb, hb, vc, hc, vd, hd, heq⟩ := h
    cases heq
    simp [hexCode, ha, hb, hc, hd]

theorem lowSurrogate_append {s rest : Text} {n : Nat} (h : lowSurrogate s = some (n, rest)) (t : Text) :
    lowSurrogate (s ++ t) = some (n, rest ++ t) := by
  match s, h with
  | c :: u :: r, h =>
    rw [List.cons_append, List.cons_append]
    unfold lowSurrogate at h ⊢
    simp only at h ⊢
    by_cases hu : c = backslash ∧ u = 'u'
    · rw [if_pos hu] at h ⊢
      cases hcode : hexCode r with
      | none => rw [hcode] at h; cases h
      | some p =>
        obtain ⟨m, r'⟩ := p
        rw [hcode] at h
        rw [hexCode_append hcode t]
        simp only at h ⊢
        by_cases hm : 0xdc00 ≤ m ∧ m ≤ 0xdfff
        · rw [if_pos hm] at h ⊢
          cases h
          rfl
        · rw [if_neg hm] at h
          cases h
    · rw [if_neg hu] at h
      cases h

theorem scanUnicode_append {s rest : Text} {c : Char} (h : scanUnicode s = some (c, rest)) (t : Text) :
    scanUnicode (s ++ t) = some (c, rest ++ t) := by
  unfold scanUnicode at h ⊢
  cases hcode : hexCode s with
  | none => rw [hcode] at h; cases h
  | some p =>
    obtain ⟨n, r⟩ := p
    rw [hcode] at h
    rw [hexCode_append hcode t]
    simp only at h ⊢
    by_cases hhigh : 0xd800 ≤ n ∧ n ≤ 0xdbff
    · rw [if_pos hhigh] at h ⊢
      obtain ⟨q, hq, heq⟩ := Option.map_eq_some_iff.1 h
      obtain ⟨rfl, rfl⟩ := Prod.mk.inj heq
      rw [lowSurrogate_append hq t, Option.map_some]
    · rw [if_neg hhigh] at h ⊢
      by_cases hlow : 0xdc00 ≤ n ∧ n ≤ 0xdfff
      · rw [if_pos hlow] at h
        cases h
      · rw [if_neg hlow] at h ⊢
        obtain ⟨rfl, rfl⟩ := Prod.mk.inj (Option.some.inj h)
        rfl

theorem scanChar_append {s rest : Text} {c : Option Char} (h : scanChar s = some (c, rest)) (t : Text) :
    scanChar (s ++ t) = some (c, rest ++ t) := by
  cases s with
  | nil => cases h
  | cons d s =>
    rw [List.cons_append]
    unfold scanChar at h ⊢
    simp only at h ⊢
    by_cases hquote : d = quote
    · rw [if_pos hquote] at h ⊢
      cases h
      rfl
    rw [if_neg hquote] at h ⊢
    by_cases hslash : d = backslash
    · rw [if_pos hslash] at h ⊢
      cases s with
      | nil => cases h
      | cons e s =>
        rw [List.cons_append]
        simp only at h ⊢
        by_cases hu : e = 'u'
        · rw [if_pos hu] at h ⊢
          obtain ⟨p, hp, heq⟩ := Option.map_eq_some_iff.1 h
          cases heq
          rw [scanUnicode_append hp t, Option.map_some]
        · rw [if_neg hu] at h ⊢
          obtain ⟨d', hd', heq⟩ := Option.map_eq_some_iff.1 h
          cases heq
          rw [hd', Option.map_some]
    · rw [if_neg hslash] at h ⊢
      by_cases hcontrol : d.toNat < 32
      · rw [if_pos hcontrol] at h
        cases h
      · rw [if_neg hcontrol] at h ⊢
        cases h
        rfl

theorem scanString_append : ∀ {n m : Nat} {s k rest : Text}, scanString n s = some (k, rest) → n ≤ m → ∀ t : Text,
    scanString m (s ++ t) = some (k, rest ++ t)
  | 0, _, _, _, _, h, _, _ => by cases h
  | n + 1, 0, _, _, _, _, hm, _ => by omega
  | n + 1, m + 1, s, k, rest, h, hm, t => by
    rw [scanString] at h ⊢
    cases hchar : scanChar s with
    | none => rw [hchar] at h; cases h
    | some p =>
      obtain ⟨c, r⟩ := p
      rw [hchar] at h
      rw [scanChar_append hchar t]
      cases c with
      | none =>
        cases h
        rfl
      | some c =>
        obtain ⟨q, hq, heq⟩ := Option.map_eq_some_iff.1 h
        cases heq
        simp only [scanString_append hq (Nat.le_of_succ_le_succ hm) t]
        rfl

/-! ## Numbers -/

theorem digits_stable : ∀ {s : Text}, afterDigits s ≠ [] → ∀ t : Text,
    digitsOf (s ++ t) = digitsOf s ∧ afterDigits (s ++ t) = afterDigits s ++ t
  | [], h, _ => absurd rfl h
  | c :: s, h, t => by
    unfold digitsOf afterDigits at *
    by_cases hc : c.isDigit = true
    · rw [List.dropWhile_cons_of_pos hc] at h
      obtain ⟨htake, hdrop⟩ := digits_stable h t
      unfold digitsOf at htake
      unfold afterDigits at hdrop
      rw [List.cons_append, List.takeWhile_cons_of_pos hc, List.takeWhile_cons_of_pos hc, List.dropWhile_cons_of_pos hc,
        List.dropWhile_cons_of_pos hc, htake, hdrop]
      exact ⟨rfl, rfl⟩
    · rw [List.cons_append, List.takeWhile_cons_of_neg hc, List.takeWhile_cons_of_neg hc, List.dropWhile_cons_of_neg hc,
        List.dropWhile_cons_of_neg hc]
      exact ⟨rfl, rfl⟩

theorem integerPart_append {s ip rest : Text} (h : integerPart s = some (ip, rest)) (hrest : rest ≠ []) (t : Text) :
    integerPart (s ++ t) = some (ip, rest ++ t) := by
  cases s with
  | nil => cases h
  | cons c s =>
    rw [List.cons_append]
    unfold integerPart at h ⊢
    simp only at h ⊢
    by_cases hzero : c = '0'
    · rw [if_pos hzero] at h ⊢
      cases h
      rfl
    rw [if_neg hzero] at h ⊢
    by_cases hc : c.isDigit = true
    · rw [if_pos hc] at h ⊢
      cases h
      obtain ⟨htake, hdrop⟩ := digits_stable hrest t
      rw [← List.cons_append, htake, hdrop]
    · rw [if_neg hc] at h
      cases h

theorem fractionPart_append {s : Text} (hrest : (fractionPart s).2 ≠ []) (hdot : ∀ c ∈ (fractionPart s).2.head?, c ≠ '.')
    (t : Text) : fractionPart (s ++ t) = ((fractionPart s).1, (fractionPart s).2 ++ t) := by
  cases s with
  | nil => exact absurd rfl hrest
  | cons c s =>
    rw [List.cons_append]
    unfold fractionPart at hrest hdot ⊢
    simp only at hrest hdot ⊢
    by_cases hc : c = '.' ∧ digitsOf s ≠ []
    · rw [if_pos hc] at hrest hdot ⊢
      obtain ⟨htake, hdrop⟩ := digits_stable hrest t
      rw [htake, hdrop, if_pos hc]
    · rw [if_neg hc] at hrest hdot ⊢
      have hno : ¬ (c = '.' ∧ digitsOf (s ++ t) ≠ []) := fun h => hdot c rfl h.1
      rw [if_neg hno]
      rfl

theorem signPart_append {s : Text} (hs : s ≠ []) (t : Text) : signPart (s ++ t) = ((signPart s).1, (signPart s).2 ++ t) := by
  cases s with
  | nil => exact absurd rfl hs
  | cons c s =>
    rw [List.cons_append]
    unfold signPart
    simp only
    split
    · rfl
    · split <;> rfl

theorem exponentPart_append {s : Text} (hrest : (exponentPart s).2 ≠ [])
    (hends : ∀ c ∈ (exponentPart s).2.head?, c ≠ 'e' ∧ c ≠ 'E') (t : Text) :
    exponentPart (s ++ t) = ((exponentPart s).1, (exponentPart s).2 ++ t) := by
  cases s with
  | nil => exact absurd rfl hrest
  | cons c s =>
    rw [List.cons_append]
    unfold exponentPart at hrest hends ⊢
    simp only at hrest hends ⊢
    by_cases hc : (c = 'e' ∨ c = 'E') ∧ digitsOf (signPart s).2 ≠ []
    · have hs : s ≠ [] := by
        rintro rfl
        exact hc.2 rfl
      rw [if_pos hc] at hrest hends ⊢
      obtain ⟨htake, hdrop⟩ := digits_stable hrest t
      rw [signPart_append hs t]
      simp only [htake, hdrop]
      rw [if_pos hc]
    · rw [if_neg hc] at hrest hends ⊢
      have hno : ¬ ((c = 'e' ∨ c = 'E') ∧ digitsOf (signPart (s ++ t)).2 ≠ []) := by
        rintro ⟨he | he, -⟩
        · exact (hends c rfl).1 he
        · exact (hends c rfl).2 he
      rw [if_neg hno]
      rfl

/-- A number is read alike in a longer text when something that ends it stands behind it. -/
theorem magnitude_append {s rest : Text} {q : ℚ} (h : magnitude s = some (q, rest)) (hrest : rest ≠ []) (hends : Ends rest)
    (t : Text) : magnitude (s ++ t) = some (q, rest ++ t) := by
  unfold magnitude at h ⊢
  cases hint : integerPart s with
  | none => rw [hint] at h; cases h
  | some p =>
    obtain ⟨ip, r⟩ := p
    rw [hint] at h
    simp only [Option.some.injEq, Prod.mk.injEq] at h
    obtain ⟨hq, hr⟩ := h
    have hexp : (exponentPart (fractionPart r).2).2 ≠ [] := by rwa [hr]
    have hfrac : (fractionPart r).2 ≠ [] := by
      intro hnil
      rw [hnil] at hexp
      exact hexp rfl
    have hint' : r ≠ [] := by
      rintro rfl
      exact hfrac rfl
    have hdot : ∀ c ∈ (fractionPart r).2.head?, c ≠ '.' := by
      rintro c hc rfl
      obtain ⟨cs, hcs⟩ := List.head?_eq_some_iff.1 (Option.mem_def.1 hc)
      rw [hcs] at hr
      have hstays : rest = '.' :: cs := by
        rw [← hr, exponentPart]
        rfl
      rw [hstays] at hends
      exact (hends '.' rfl).2.1 rfl
    have hletter : ∀ c ∈ (exponentPart (fractionPart r).2).2.head?, c ≠ 'e' ∧ c ≠ 'E' := by
      rw [hr]
      exact fun c hc => (hends c hc).2.2
    rw [integerPart_append hint hint' t]
    simp only [fractionPart_append hfrac hdot t, exponentPart_append hexp hletter t, hq, hr]

theorem number_append {s rest : Text} {q : ℚ} (h : number s = some (q, rest)) (hrest : rest ≠ []) (hends : Ends rest)
    (t : Text) : number (s ++ t) = some (q, rest ++ t) := by
  cases s with
  | nil => cases h
  | cons c s =>
    rw [List.cons_append]
    unfold number at h ⊢
    simp only at h ⊢
    by_cases hminus : c = '-'
    · rw [if_pos hminus] at h ⊢
      obtain ⟨p, hp, heq⟩ := Option.map_eq_some_iff.1 h
      cases heq
      rw [magnitude_append hp hrest hends t, Option.map_some]
    · rw [if_neg hminus] at h ⊢
      exact magnitude_append h hrest hends t

theorem magnitude_begins {s rest : Text} {q : ℚ} (h : magnitude s = some (q, rest)) :
    ∃ c cs, s = c :: cs ∧ c.isDigit = true := by
  cases s with
  | nil => cases h
  | cons c cs =>
    refine ⟨c, cs, rfl, ?_⟩
    by_contra hc
    have hzero : c ≠ '0' := by
      rintro rfl
      exact hc rfl
    rw [magnitude, integerPart, if_neg hzero, if_neg hc] at h
    cases h

theorem atom_append {s rest : Text} {v : Json} (h : atom s = some (v, rest)) (hrest : rest ≠ []) (hends : Ends rest)
    (t : Text) : atom (s ++ t) = some (v, rest ++ t) := by
  have hatom := h
  unfold atom at h
  cases hfind : literals.find? (fun p => s.startsWith p.1) with
  | some p =>
    rw [hfind] at h
    obtain ⟨rfl, rfl⟩ := Prod.mk.inj (Option.some.inj h)
    have hstart : s.startsWith p.1 = true := List.find?_some (p := fun p : Text × Json => s.startsWith p.1) hfind
    obtain ⟨r, rfl⟩ := List.isPrefixOf_iff_prefix.1 hstart
    rw [List.append_assoc, atom_literal p (List.mem_of_find?_eq_some hfind), List.drop_left]
  | none =>
    rw [hfind] at h
    obtain ⟨⟨q, r⟩, hnumber, heq⟩ := Option.map_eq_some_iff.1 h
    obtain ⟨rfl, rfl⟩ := Prod.mk.inj heq
    have hlonger := number_append hnumber hrest hends t
    have hnone : literals.find? (fun p => (s ++ t).startsWith p.1) = none := by
      cases s with
      | nil => cases hnumber
      | cons c s =>
        rw [number] at hnumber
        by_cases hminus : c = '-'
        · rw [if_pos hminus] at hnumber
          obtain ⟨p, hp, -⟩ := Option.map_eq_some_iff.1 hnumber
          obtain ⟨d, ds, rfl, hd⟩ := magnitude_begins hp
          rw [hminus]
          exact (find_literals_digit hd (ds ++ t)).2
        · rw [if_neg hminus] at hnumber
          obtain ⟨d, ds, hds, hd⟩ := magnitude_begins hnumber
          rw [hds]
          exact (find_literals_digit hd (ds ++ t)).1
    rw [atom, hnone, hlonger]
    rfl

/-! ## Values -/

theorem skipBlanks_append_of_ne {s : Text} (h : skipBlanks s ≠ []) (t : Text) : skipBlanks (s ++ t) = skipBlanks s ++ t := by
  unfold skipBlanks at h ⊢
  induction s with
  | nil => exact absurd rfl h
  | cons c s ih =>
    by_cases hc : isBlank c = true
    · rw [List.dropWhile_cons_of_pos hc] at h
      rw [List.cons_append, List.dropWhile_cons_of_pos hc, List.dropWhile_cons_of_pos hc, ih h]
    · rw [List.cons_append, List.dropWhile_cons_of_neg hc, List.dropWhile_cons_of_neg hc]
      rfl

/-- What ends a value in a text: its own bracket or quote, or something behind it that ends a number too. -/
def Ended (s rest : Text) : Prop :=
  (∃ c ∈ s.head?, c = quote ∨ c = '[' ∨ c = '{') ∨ rest ≠ [] ∧ Ends rest

/-- A comma or a closing bracket, behind blanks, ends a number. -/
theorem ended_of_skipBlanks {s : Text} {c : Char} {cs : Text} (h : skipBlanks s = c :: cs)
    (hc : c.isDigit = false ∧ c ≠ '.' ∧ c ≠ 'e' ∧ c ≠ 'E') : s ≠ [] ∧ Ends s := by
  cases s with
  | nil => cases h
  | cons d s =>
    refine ⟨List.cons_ne_nil d s, ?_⟩
    by_cases hd : isBlank d = true
    · exact ends_cons (by
        simp only [isBlank, Bool.or_eq_true, decide_eq_true_eq] at hd
        rcases hd with ((rfl | rfl) | rfl) | rfl <;> decide) s
    · rw [skipBlanks, List.dropWhile_cons_of_neg hd] at h
      rw [(List.cons.inj h).1]
      exact ends_cons hc s

/-- The three readers with this much fuel read no differently in a longer text. -/
structure Stable (n : Nat) : Prop where
  value  : ∀ {s rest : Text} {v : Json}, value n s = some (v, rest) → Ended s rest → ∀ m, n ≤ m → ∀ t : Text,
    Json.value m (s ++ t) = some (v, rest ++ t)
  items  : ∀ {s rest : Text} {l : List Json}, items n s = some (l, rest) → ∀ m, n ≤ m → ∀ t : Text,
    Json.items m (s ++ t) = some (l, rest ++ t)
  fields : ∀ {s rest : Text} {fs : List (Text × Json)}, fields n s = some (fs, rest) → ∀ m, n ≤ m → ∀ t : Text,
    Json.fields m (s ++ t) = some (fs, rest ++ t)

theorem items_nil : ∀ n : Nat, items n [] = none
  | 0     => rfl
  | 1     => rfl
  | _ + 2 => rfl

theorem fields_nil : ∀ n : Nat, fields n [] = none
  | 0     => rfl
  | _ + 1 => rfl

section Step
variable {n : Nat} (ih : Stable n)

include ih

theorem value_step {s rest : Text} {v : Json} (h : value (n + 1) s = some (v, rest)) (hended : Ended s rest) {m : Nat}
    (hm : n ≤ m) (t : Text) : value (m + 1) (s ++ t) = some (v, rest ++ t) := by
  cases s with
  | nil => cases h
  | cons c cs =>
    rw [List.cons_append]
    by_cases hquote : c = quote
    · rw [value, if_pos hquote] at h ⊢
      obtain ⟨p, hp, heq⟩ := Option.map_eq_some_iff.1 h
      obtain ⟨rfl, rfl⟩ := Prod.mk.inj heq
      rw [scanString_append hp hm t, Option.map_some]
    by_cases hitems : c = '['
    · rw [value, if_neg hquote, if_pos hitems] at h ⊢
      cases hskip : skipBlanks cs with
      | nil =>
        rw [hskip, if_neg (by decide), items_nil] at h
        cases h
      | cons d ds =>
        rw [skipBlanks_append_of_ne (by rw [hskip]; exact List.cons_ne_nil d ds), hskip, List.cons_append]
        rw [hskip] at h
        simp only [List.head?_cons, Option.some.injEq, List.tail_cons] at h ⊢
        by_cases hclose : d = ']'
        · rw [if_pos hclose] at h ⊢
          cases h
          rfl
        · rw [if_neg hclose] at h ⊢
          obtain ⟨p, hp, heq⟩ := Option.map_eq_some_iff.1 h
          obtain ⟨rfl, rfl⟩ := Prod.mk.inj heq
          rw [← List.cons_append, ih.items hp m hm t, Option.map_some]
    by_cases hfields : c = '{'
    · rw [value, if_neg hquote, if_neg hitems, if_pos hfields] at h ⊢
      cases hskip : skipBlanks cs with
      | nil =>
        rw [hskip, if_neg (by decide), fields_nil] at h
        cases h
      | cons d ds =>
        rw [skipBlanks_append_of_ne (by rw [hskip]; exact List.cons_ne_nil d ds), hskip, List.cons_append]
        rw [hskip] at h
        simp only [List.head?_cons, Option.some.injEq, List.tail_cons] at h ⊢
        by_cases hclose : d = '}'
        · rw [if_pos hclose] at h ⊢
          cases h
          rfl
        · rw [if_neg hclose] at h ⊢
          obtain ⟨p, hp, heq⟩ := Option.map_eq_some_iff.1 h
          obtain ⟨rfl, rfl⟩ := Prod.mk.inj heq
          rw [← List.cons_append, ih.fields hp m hm t, Option.map_some]
    · rw [value_atom hquote hitems hfields] at h ⊢
      rcases hended with ⟨d, hd, hopens⟩ | ⟨hrest, hends⟩
      · obtain rfl := Option.some.inj (Option.mem_def.1 hd)
        rcases hopens with rfl | rfl | rfl
        · exact absurd rfl hquote
        · exact absurd rfl hitems
        · exact absurd rfl hfields
      · exact atom_append h hrest hends t

/-- An item before a comma or a closing bracket is read alike in a longer text, and so is what stands between them. -/
theorem inner_step {s r : Text} {v : Json} {c : Char} {cs : Text} (h : value n s = some (v, r))
    (hskip : skipBlanks r = c :: cs) (hc : c.isDigit = false ∧ c ≠ '.' ∧ c ≠ 'e' ∧ c ≠ 'E') {m : Nat} (hm : n ≤ m)
    (t : Text) : value m (s ++ t) = some (v, r ++ t) ∧ skipBlanks (r ++ t) = c :: (cs ++ t) := by
  refine ⟨ih.value h (Or.inr (ended_of_skipBlanks hskip hc)) m hm t, ?_⟩
  rw [skipBlanks_append_of_ne (by rw [hskip]; exact List.cons_ne_nil c cs), hskip, List.cons_append]

theorem items_step {s rest : Text} {l : List Json} (h : items (n + 1) s = some (l, rest)) {m : Nat} (hm : n ≤ m)
    (t : Text) : items (m + 1) (s ++ t) = some (l, rest ++ t) := by
  rw [items] at h ⊢
  cases hvalue : value n s with
  | none => rw [hvalue] at h; cases h
  | some p =>
    obtain ⟨v, r⟩ := p
    simp only [hvalue] at h
    cases hskip : skipBlanks r with
    | nil => rw [hskip] at h; cases h
    | cons c cs =>
      simp only [hskip] at h
      by_cases hclose : c = ']'
      · rw [if_pos hclose] at h
        cases h
        obtain ⟨hlonger, hbehind⟩ := inner_step ih hvalue hskip (by rw [hclose]; decide) hm t
        simp only [hlonger, hbehind]
        rw [if_pos hclose]
      rw [if_neg hclose] at h
      by_cases hcomma : c = ','
      · rw [if_pos hcomma] at h
        obtain ⟨p, hp, heq⟩ := Option.map_eq_some_iff.1 h
        cases heq
        obtain ⟨hlonger, hbehind⟩ := inner_step ih hvalue hskip (by rw [hcomma]; decide) hm t
        have hne : skipBlanks cs ≠ [] := by
          intro hnil
          rw [hnil, items_nil] at hp
          cases hp
        simp only [hlonger, hbehind]
        rw [if_neg hclose, if_pos hcomma, skipBlanks_append_of_ne hne, ih.items hp m hm t, Option.map_some]
      · rw [if_neg hcomma] at h
        cases h

theorem fields_step {s rest : Text} {fs : List (Text × Json)} (h : fields (n + 1) s = some (fs, rest)) {m : Nat}
    (hm : n ≤ m) (t : Text) : fields (m + 1) (s ++ t) = some (fs, rest ++ t) := by
  cases s with
  | nil => cases h
  | cons c cs =>
    rw [List.cons_append]
    rw [fields] at h ⊢
    by_cases hquote : c = quote
    · rw [if_neg (not_not.2 hquote)] at h ⊢
      cases hkey : scanString n cs with
      | none => rw [hkey] at h; cases h
      | some p =>
        obtain ⟨k, r⟩ := p
        simp only [hkey, scanString_append hkey hm t] at h ⊢
        cases hcolon : skipBlanks r with
        | nil => rw [hcolon] at h; cases h
        | cons d ds =>
          simp only [hcolon, skipBlanks_append_of_ne (show skipBlanks r ≠ [] by rw [hcolon]; exact List.cons_ne_nil d ds),
            List.cons_append] at h ⊢
          by_cases hd : d = ':'
          · rw [if_neg (not_not.2 hd)] at h ⊢
            cases hvalue : value n (skipBlanks ds) with
            | none => rw [hvalue] at h; cases h
            | some q =>
              obtain ⟨v, r'⟩ := q
              have hbegins : skipBlanks ds ≠ [] := by
                intro hnil
                rw [hnil] at hvalue
                cases n <;> cases hvalue
              rw [skipBlanks_append_of_ne hbegins]
              simp only [hvalue] at h
              cases hskip : skipBlanks r' with
              | nil => rw [hskip] at h; cases h
              | cons e es =>
                simp only [hskip] at h
                by_cases hclose : e = '}'
                · rw [if_pos hclose] at h
                  cases h
                  obtain ⟨hlonger, hbehind⟩ := inner_step ih hvalue hskip (by rw [hclose]; decide) hm t
                  simp only [hlonger, hbehind]
                  rw [if_pos hclose]
                rw [if_neg hclose] at h
                by_cases hcomma : e = ','
                · rw [if_pos hcomma] at h
                  obtain ⟨p, hp, heq⟩ := Option.map_eq_some_iff.1 h
                  cases heq
                  obtain ⟨hlonger, hbehind⟩ := inner_step ih hvalue hskip (by rw [hcomma]; decide) hm t
                  have hne : skipBlanks es ≠ [] := by
                    intro hnil
                    rw [hnil, fields_nil] at hp
                    cases hp
                  simp only [hlonger, hbehind]
                  rw [if_neg hclose, if_pos hcomma, skipBlanks_append_of_ne hne, ih.fields hp m hm t, Option.map_some]
                · rw [if_neg hcomma] at h
                  cases h
          · rw [if_pos hd] at h
            cases h
    · rw [if_pos hquote] at h
      cases h

end Step

/-- **What is read of a text is read of every longer one**, by induction on the fuel. -/
theorem stable : ∀ n : Nat, Stable n
  | 0     => ⟨fun h _ _ _ _ => (by cases h), fun h _ _ _ => (by cases h), fun h _ _ _ => (by cases h)⟩
  | n + 1 => by
    have ih := stable n
    refine ⟨?_, ?_, ?_⟩
    · intro s rest v h hended m hm t
      obtain ⟨m, rfl⟩ : ∃ k, m = k + 1 := ⟨m - 1, by omega⟩
      exact value_step ih h hended (by omega) t
    · intro s rest l h m hm t
      obtain ⟨m, rfl⟩ : ∃ k, m = k + 1 := ⟨m - 1, by omega⟩
      exact items_step ih h (by omega) t
    · intro s rest fs h m hm t
      obtain ⟨m, rfl⟩ : ∃ k, m = k + 1 := ⟨m - 1, by omega⟩
      exact fields_step ih h (by omega) t

theorem value_append {n m : Nat} {s rest : Text} {v : Json} (h : value n s = some (v, rest)) (hended : Ended s rest)
    (hm : n ≤ m) (t : Text) : value m (s ++ t) = some (v, rest ++ t) :=
  (stable n).value h hended m hm t

/-! ## Torn texts -/

/-- A text that stops before the end of an object is not read. -/
theorem loads_cut {style : Style} {fs : List (Text × Json)} (h : Writable style (.obj fs)) {p t : Text} (ht : t ≠ [])
    (hp : p ++ t = dumps style (.obj fs)) : loads p = .error .jsonDecodeError := by
  unfold loads
  cases p with
  | nil => rfl
  | cons c cs =>
    obtain ⟨mid, hmid⟩ := dumps_obj_ends style fs
    have hc : c = '{' := by
      rw [hmid, List.cons_append] at hp
      exact (List.cons.inj hp).1
    have hskip : skipBlanks (c :: cs) = c :: cs := by
      rw [hc]
      rfl
    rw [hskip]
    cases hread : value ((c :: cs).length + 1) (c :: cs) with
    | none => rfl
    | some r =>
      obtain ⟨v, rest⟩ := r
      -- the same is read of the whole object, which leaves nothing behind it
      have hlonger := value_append hread (Or.inl ⟨c, rfl, Or.inr (Or.inr hc)⟩)
        (show (c :: cs).length + 1 ≤ (c :: cs ++ t).length + 1 by rw [List.length_append]; omega) t
      have hwhole := value_dumps h 0 ((c :: cs ++ t).length + 1) [] ends_nil (by rw [hp]; exact Nat.le_succ _)
      rw [List.append_nil, show dumpsAt style 0 (.obj fs) = c :: cs ++ t from hp.symm, hlonger] at hwhole
      obtain ⟨-, hrest⟩ := Prod.mk.inj (Option.some.inj hwhole)
      exact absurd (List.append_eq_nil_iff.1 hrest).2 ht

/-- **A torn text is not read**: the beginning of a written object, with blanks behind it, gives the whole object or is
refused. -/
theorem loads_torn {style : Style} {fs : List (Text × Json)} (h : Writable style (.obj fs)) {b p : Text}
    (hblanks : ∀ c ∈ b, isBlank c = true) (hp : p <+: dumps style (.obj fs) ++ b) :
    loads p = .ok (.obj fs) ∨ loads p = .error .jsonDecodeError := by
  have hwhole : dumps style (.obj fs) <+: dumps style (.obj fs) ++ b := List.prefix_append _ _
  rcases List.prefix_or_prefix_of_prefix hp hwhole with ⟨t, ht⟩ | ⟨b', rfl⟩
  · by_cases hcut : t = []
    · rw [hcut, List.append_nil] at ht
      rw [ht]
      exact Or.inl (loads_dumps h)
    · exact Or.inr (loads_cut h hcut ht)
  · obtain ⟨t, ht⟩ := hp
    rw [List.append_assoc] at ht
    have hb : b' ++ t = b := List.append_cancel_left ht
    exact Or.inl (loads_dumps_append h (fun c hc => hblanks c (hb ▸ List.mem_append_left t hc)))

end Json
