import Mathlib
/-!
# Text — strings as lists of characters

The string operations a scripting language gives its programs, on `List Char`: the whitespace they strip and split on,
lines, prefixes, decimal numerals and the UTF-8 bytes.
-/

abbrev Text := List Char

namespace Text

/-- The characters `str.isspace` accepts, which `strip` and `split` with no argument work on. -/
def isSpace (c : Char) : Bool :=
  let n := c.toNat
  (9 ≤ n && n ≤ 13) || (28 ≤ n && n ≤ 32) || n = 0x85 || n = 0xa0 || n = 0x1680 || (0x2000 ≤ n && n ≤ 0x200a)
    || n = 0x2028 || n = 0x2029 || n = 0x202f || n = 0x205f || n = 0x3000

def strip (s : Text) : Text := (s.dropWhile isSpace).rdropWhile isSpace

def rstrip (cs : Text) (s : Text) : Text := s.rdropWhile (fun c => cs.contains c)

def startsWith (s p : Text) : Bool := p.isPrefixOf s

def endsWith (s p : Text) : Bool := p.isSuffixOf s

/-- The words of `s` after the word `w` (reversed) read so far. -/
def splitAux : Text → Text → List Text
  | w, []      => if w = [] then [] else [w.reverse]
  | w, c :: cs =>
    if isSpace c then (if w = [] then splitAux [] cs else w.reverse :: splitAux [] cs) else splitAux (c :: w) cs

def split (s : Text) : List Text := splitAux [] s

def lines : Text → List Text
  | []      => [[]]
  | c :: cs =>
    if c = '\n' then [] :: lines cs
    else match lines cs with
      | []      => [[c]]
      | l :: ls => (c :: l) :: ls

/-- The characters `str.splitlines` ends a line at. -/
def isLineEnd (c : Char) : Bool :=
  let n := c.toNat
  (10 ≤ n && n ≤ 13) || (28 ≤ n && n ≤ 30) || n = 0x85 || n = 0x2028 || n = 0x2029

/-- The lines of `s` after what is read of the first one (reversed); a carriage return and a newline are one end. -/
def splitlinesAux : Text → Text → List Text
  | w, []                  => if w = [] then [] else [w.reverse]
  | w, '\r' :: '\n' :: cs => w.reverse :: splitlinesAux [] cs
  | w, c :: cs             => if isLineEnd c then w.reverse :: splitlinesAux [] cs else splitlinesAux (c :: w) cs

def splitlines (s : Text) : List Text := splitlinesAux [] s

def join (sep : Text) (parts : List Text) : Text := List.intercalate sep parts

def ofNat (n : Nat) : Text := Nat.toDigits 10 n

/-- `str(n)` of an integer. -/
def ofInt (n : Int) : Text := (Int.repr n).toList

def zfill (width n : Nat) : Text := List.replicate (width - (ofNat n).length) '0' ++ ofNat n

/-- `repr(s)` of a text of printable characters and line ends. -/
def repr (s : Text) : Text :=
  let quote := if s.contains (Char.ofNat 39) && !s.contains (Char.ofNat 34) then Char.ofNat 34 else Char.ofNat 39
  let escape := fun c : Char =>
    if c = quote || c = Char.ofNat 92 then [Char.ofNat 92, c]
    else if c = '\n' then [Char.ofNat 92, 'n']
    else if c = '\r' then [Char.ofNat 92, 'r']
    else if c = '\t' then [Char.ofNat 92, 't']
    else [c]
  quote :: s.flatMap escape ++ [quote]

def utf8 (s : Text) : List UInt8 := s.flatMap String.utf8EncodeChar

theorem lines_ne_nil : ∀ s : Text, lines s ≠ []
  | [] => List.cons_ne_nil _ _
  | c :: cs => by
    unfold lines
    split
    · exact List.cons_ne_nil _ _
    · split <;> exact List.cons_ne_nil _ _

/-- **A newline between two texts separates their lines.** -/
theorem lines_append (t : Text) : ∀ s : Text, lines (s ++ '\n' :: t) = lines s ++ lines t
  | [] => by
    simp [lines]
  | c :: cs => by
    have hcons : ∀ u, lines (c :: u) = if c = '\n' then [] :: lines u else match lines u with
      | []      => [[c]]
      | l :: ls => (c :: l) :: ls := fun u => rfl
    rw [List.cons_append, hcons, hcons, lines_append t cs]
    split
    · rfl
    · cases h : lines cs with
      | nil => exact absurd h (lines_ne_nil cs)
      | cons l ls => rfl

theorem mem_of_mem_lines {c : Char} {line : Text} : ∀ {s : Text}, line ∈ lines s → c ∈ line → c ∈ s
  | [], hl, hc => by
    rw [List.mem_singleton.1 hl] at hc
    cases hc
  | d :: s, hl, hc => by
    unfold lines at hl
    split at hl
    · rcases List.mem_cons.1 hl with rfl | hl
      · cases hc
      · exact List.mem_cons_of_mem _ (mem_of_mem_lines hl hc)
    · cases h : lines s with
      | nil => exact absurd h (lines_ne_nil s)
      | cons l ls =>
        rw [h] at hl
        rcases List.mem_cons.1 hl with rfl | hl
        · rcases List.mem_cons.1 hc with rfl | hc
          · exact List.mem_cons_self
          · exact List.mem_cons_of_mem _ (mem_of_mem_lines (h ▸ List.mem_cons_self) hc)
        · exact List.mem_cons_of_mem _ (mem_of_mem_lines (h ▸ List.mem_cons_of_mem l hl) hc)

theorem join_cons_cons (sep s t : Text) (parts : List Text) :
    join sep (s :: t :: parts) = s ++ (sep ++ join sep (t :: parts)) := by
  rw [join, List.intercalate_cons_cons, List.append_assoc]
  rfl

@[simp] theorem join_singleton (sep s : Text) : join sep [s] = s := by
  simp [join, List.intercalate]

theorem prefix_join (sep s : Text) : ∀ parts : List Text, s <+: join sep (s :: parts)
  | []         => by rw [join_singleton]
  | t :: parts => by
    rw [join_cons_cons]
    exact List.prefix_append _ _

theorem splitlinesAux_append (rest : Text) : ∀ {s : Text}, (∀ c ∈ s, isLineEnd c = false) → ∀ w : Text,
    splitlinesAux w (s ++ '\n' :: rest) = (w.reverse ++ s) :: splitlinesAux [] rest
  | [], _, w => by
    have hend : isLineEnd '\n' = true := rfl
    rw [List.nil_append, List.append_nil, splitlinesAux, if_pos hend]
    rintro _ h
    cases h
  | c :: cs, h, w => by
    have hc := h c List.mem_cons_self
    rw [List.cons_append, splitlinesAux, if_neg (by rw [hc]; exact Bool.false_ne_true),
      splitlinesAux_append rest (fun d hd => h d (List.mem_cons_of_mem c hd)) (c :: w), List.reverse_cons,
      List.append_assoc, List.singleton_append]
    rintro _ rfl
    cases hc

/-- **Lines without an end inside them are split back.** -/
theorem splitlines_terminated : ∀ {parts : List Text}, (∀ p ∈ parts, ∀ c ∈ p, isLineEnd c = false) →
    splitlines (parts.flatMap (fun p => p ++ ['\n'])) = parts
  | [], _ => rfl
  | p :: parts, h => by
    rw [splitlines, List.flatMap_cons, List.append_assoc, List.singleton_append,
      splitlinesAux_append _ (h p List.mem_cons_self) [], List.reverse_nil, List.nil_append]
    exact congrArg (p :: ·) (splitlines_terminated (fun q hq => h q (List.mem_cons_of_mem p hq)))

theorem strip_eq_nil {s : Text} : strip s = [] ↔ ∀ c ∈ s, isSpace c = true := by
  rw [strip, List.rdropWhile_eq_nil_iff]
  constructor
  · intro h
    refine List.dropWhile_eq_nil_iff.1 ?_
    by_contra hne
    have hhead := h _ (List.head_mem hne)
    rw [List.head_dropWhile_not isSpace hne] at hhead
    cases hhead
  · intro h c hc
    exact h c ((List.dropWhile_suffix isSpace).mem hc)

theorem rstrip_of_end {cs : Text} {d : Char} (s : Text) (hd : cs.contains d = false) : rstrip cs (s ++ [d]) = s ++ [d] := by
  rw [rstrip, List.rdropWhile_concat_neg]
  rw [hd]
  exact Bool.false_ne_true

theorem strip_of_ends {c d : Char} (mid : Text) (hc : isSpace c = false) (hd : isSpace d = false) :
    strip (c :: (mid ++ [d])) = c :: (mid ++ [d]) := by
  have hc' : ¬ isSpace c = true := by simp [hc]
  have hd' : ¬ isSpace d = true := by simp [hd]
  rw [strip, List.dropWhile_cons_of_neg hc', ← List.cons_append, List.rdropWhile_concat_neg _ _ _ hd']

/-- **The first separator ends a text without one.** -/
theorem sep_inj {c : Char} : ∀ {a b s t : Text}, c ∉ a → c ∉ b → a ++ c :: s = b ++ c :: t → a = b ∧ s = t
  | [], [], _, _, _, _, h => ⟨rfl, (List.cons.inj h).2⟩
  | [], d :: b, _, _, _, hb, h => absurd ((List.cons.inj h).1 ▸ List.mem_cons_self) hb
  | d :: a, [], _, _, ha, _, h => absurd ((List.cons.inj h).1 ▸ List.mem_cons_self) ha
  | d :: a, e :: b, _, _, ha, hb, h => by
    obtain ⟨rfl, hrest⟩ := List.cons.inj h
    obtain ⟨rfl, ht⟩ := sep_inj (fun hm => ha (List.mem_cons_of_mem _ hm)) (fun hm => hb (List.mem_cons_of_mem _ hm)) hrest
    exact ⟨rfl, ht⟩

/-- Parts with a separator after each of them. -/
theorem join_terminated (c : Char) : ∀ {parts : List Text}, parts ≠ [] →
    join [c] parts ++ [c] = parts.flatMap (fun p => p ++ [c])
  | [], h => absurd rfl h
  | [p], _ => by simp
  | p :: q :: parts, _ => by
    rw [join_cons_cons, List.flatMap_cons, ← join_terminated c (List.cons_ne_nil q parts)]
    simp

/-- **Parts without the separator are read back from their join.** -/
theorem terminated_inj {c : Char} : ∀ {ps qs : List Text}, (∀ p ∈ ps, c ∉ p) → (∀ q ∈ qs, c ∉ q) →
    ps.flatMap (fun p => p ++ [c]) = qs.flatMap (fun q => q ++ [c]) → ps = qs
  | [], [], _, _, _ => rfl
  | [], q :: qs, _, _, h => by simp at h
  | p :: ps, [], _, _, h => by simp at h
  | p :: ps, q :: qs, hp, hq, h => by
    rw [List.flatMap_cons, List.flatMap_cons, List.append_assoc, List.append_assoc] at h
    obtain ⟨rfl, hrest⟩ := sep_inj (hp p List.mem_cons_self) (hq q List.mem_cons_self) h
    rw [terminated_inj (fun x hx => hp x (List.mem_cons_of_mem _ hx)) (fun x hx => hq x (List.mem_cons_of_mem _ hx)) hrest]

/-! ## Numerals -/

theorem ofNat_injective : Function.Injective ofNat := by
  intro m n h
  unfold ofNat at h
  rw [← Nat.ofDigitChars_ten_toDigits (n := m), h, Nat.ofDigitChars_ten_toDigits]

theorem notMem_ofNat {c : Char} (hc : c.isDigit = false) (n : Nat) : c ∉ ofNat n := by
  intro h
  rw [Nat.isDigit_of_mem_toDigits (by decide) (by decide) h] at hc
  cases hc

@[simp] theorem ofInt_natCast (n : Nat) : ofInt n = ofNat n := by
  show (Nat.repr n).toList = _
  rw [Nat.toList_repr]
  rfl

/-- Digits with single underscores between them, after the number read so far; `afterDigit` when its last character was a
digit. -/
def digitsValue : Bool → Nat → Text → Option Nat
  | afterDigit, n, []      => if afterDigit then some n else none
  | afterDigit, n, c :: cs =>
    if c.isDigit then digitsValue true (10 * n + (c.toNat - 48)) cs
    else if afterDigit && c = '_' then digitsValue false n cs
    else none

/-- `int(s)` of a text, over the ASCII digits. -/
def parseInt (s : Text) : Option Int :=
  match strip s with
  | '-' :: cs => (digitsValue false 0 cs).map (fun n => -(n : Int))
  | '+' :: cs => (digitsValue false 0 cs).map (fun n => (n : Int))
  | cs        => (digitsValue false 0 cs).map (fun n => (n : Int))

/-- **A character that is no digit ends a numeral.** -/
theorem ofNat_sep_inj {c : Char} (hc : c.isDigit = false) {m n : Nat} {s t : Text}
    (h : ofNat m ++ c :: s = ofNat n ++ c :: t) : m = n ∧ s = t := by
  obtain ⟨hnum, hrest⟩ := sep_inj (notMem_ofNat hc m) (notMem_ofNat hc n) h
  exact ⟨ofNat_injective hnum, hrest⟩

/-- **Texts none of which is the beginning of another end themselves.** -/
theorem append_inj_of_prefixFree {ι : Type} {f : ι → Text} (hfree : ∀ i j, f i <+: f j → i = j) {i j : ι} {s t : Text}
    (h : f i ++ s = f j ++ t) : i = j ∧ s = t := by
  have hij : i = j := by
    rcases List.prefix_or_prefix_of_prefix (List.prefix_append (f i) s) (h ▸ List.prefix_append (f j) t) with hp | hp
    · exact hfree i j hp
    · exact (hfree j i hp).symm
  subst hij
  exact ⟨rfl, List.append_cancel_left h⟩

/-! ## Bytes -/

theorem utf8_injective : Function.Injective utf8 := by
  intro a b h
  have hbytes : (String.ofList a).toByteArray = (String.ofList b).toByteArray := by
    rw [String.toByteArray_ofList, String.toByteArray_ofList]
    exact congrArg List.toByteArray h
  have htoList := congrArg String.toList (String.toByteArray_inj.1 hbytes)
  rwa [String.toList_ofList, String.toList_ofList] at htoList

end Text
