import GoodputLab.Base.Json
import GoodputLab.Base.OrdDict
/-!
# JsonText — JSON as text: a writer and a reader that are inverse

`dumps` writes a value in one of the styles of a common encoder, on one line or indented, and `loads` reads a text as its
decoder does: the grammar
of JSON with the three literals for non-finite numbers, whitespace anywhere between tokens, the escapes with surrogate
pairs, and in an object the last of several values under one key.  What was written is read back, whatever stands behind
it (`value_dumps`), so `loads` inverts `dumps` (`loads_dumps`).

Of numbers only the integers are written as their decimals; `Style.float` is what a style makes of the others.  The reader
takes a number for the rational it denotes.  A lone surrogate has no character and is not read.
-/
namespace Json

def quote : Char := Char.ofNat 34

def backslash : Char := Char.ofNat 92

/-- `indent` gives every item a line of its own, indented by that many blanks for each level; `spaced` puts a blank behind
every colon, and behind every comma within a line; `ascii` escapes every other character. -/
structure Style where
  indent : Option Nat
  spaced : Bool
  ascii  : Bool
  float  : ℚ → Text

/-! ## Writing -/

def hex4 (n : Nat) : Text :=
  [Nat.digitChar (n / 4096 % 16), Nat.digitChar (n / 256 % 16), Nat.digitChar (n / 16 % 16), Nat.digitChar (n % 16)]

def unicodeEscape (n : Nat) : Text := backslash :: 'u' :: hex4 n

/-- The pair of surrogates that stands for a number past the first plane. -/
def surrogates (n : Nat) : Nat × Nat := (0xd800 + (n - 0x10000) / 1024, 0xdc00 + (n - 0x10000) % 1024)

/-- The letter that stands for a character behind a backslash. -/
def shortEscape (c : Char) : Option Char :=
  if c = quote then some quote
  else if c = backslash then some backslash
  else if c = '\n' then some 'n'
  else if c = '\r' then some 'r'
  else if c = '\t' then some 't'
  else if c = Char.ofNat 12 then some 'f'
  else if c = Char.ofNat 8 then some 'b'
  else none

def escapeChar (ascii : Bool) (c : Char) : Text :=
  match shortEscape c with
  | some e => [backslash, e]
  | none   =>
    if c.toNat < 32 then unicodeEscape c.toNat
    else if ascii = true ∧ 126 < c.toNat then
      if c.toNat < 0x10000 then unicodeEscape c.toNat
      else unicodeEscape (surrogates c.toNat).1 ++ unicodeEscape (surrogates c.toNat).2
    else [c]

def dumpChars (style : Style) (s : Text) : Text := s.flatMap (escapeChar style.ascii)

def dumpStr (style : Style) (s : Text) : Text := quote :: (dumpChars style s ++ [quote])

def dumpNum (style : Style) (q : ℚ) : Text := if q.den = 1 then Text.ofInt q.num else style.float q

def Style.blank (style : Style) : Text := if style.spaced then [' '] else []

/-- The line an item begins, at its depth. -/
def Style.line (style : Style) (depth : Nat) : Text :=
  match style.indent with
  | none   => []
  | some k => '\n' :: List.replicate (k * depth) ' '

/-- What stands between a comma and the next item. -/
def Style.gap (style : Style) (depth : Nat) : Text := if style.indent.isSome then style.line depth else style.blank

def NonFinite.literal : NonFinite → Text
  | .nan         => "NaN".toList
  | .infinity    => "Infinity".toList
  | .negInfinity => "-Infinity".toList

mutual
/-- A value that stands `depth` levels deep. -/
def dumpsAt (style : Style) (depth : Nat) : Json → Text
  | .null        => "null".toList
  | .bool true   => "true".toList
  | .bool false  => "false".toList
  | .num q       => dumpNum style q
  | .nonFinite x => NonFinite.literal x
  | .str s       => dumpStr style s
  | .arr l       => '[' :: dumpItems style depth l
  | .obj fs      => '{' :: dumpFields style depth fs
/-- The items of an array and its closing bracket. -/
def dumpItems (style : Style) (depth : Nat) : List Json → Text
  | []      => [']']
  | x :: xs => style.line (depth + 1) ++ (dumpsAt style (depth + 1) x ++ dumpMoreItems style depth xs)
def dumpMoreItems (style : Style) (depth : Nat) : List Json → Text
  | []      => style.line depth ++ [']']
  | x :: xs => ',' :: (style.gap (depth + 1) ++ (dumpsAt style (depth + 1) x ++ dumpMoreItems style depth xs))
/-- The fields of an object and its closing brace. -/
def dumpFields (style : Style) (depth : Nat) : List (Text × Json) → Text
  | []           => ['}']
  | (k, x) :: fs =>
    style.line (depth + 1) ++
      (dumpStr style k ++ ':' :: (style.blank ++ (dumpsAt style (depth + 1) x ++ dumpMoreFields style depth fs)))
def dumpMoreFields (style : Style) (depth : Nat) : List (Text × Json) → Text
  | []           => style.line depth ++ ['}']
  | (k, x) :: fs =>
    ',' :: (style.gap (depth + 1) ++
      (dumpStr style k ++ ':' :: (style.blank ++ (dumpsAt style (depth + 1) x ++ dumpMoreFields style depth fs))))
end

def dumps (style : Style) (v : Json) : Text := dumpsAt style 0 v

/-! ## Reading -/

def isBlank (c : Char) : Bool := c = ' ' || c = '\t' || c = '\n' || c = '\r'

def skipBlanks (s : Text) : Text := s.dropWhile isBlank

def hexValue (c : Char) : Option Nat :=
  if c.isDigit then some (c.toNat - 48)
  else if 'a' ≤ c ∧ c ≤ 'f' then some (c.toNat - 87)
  else if 'A' ≤ c ∧ c ≤ 'F' then some (c.toNat - 55)
  else none

/-- The four hexadecimal digits of an escape. -/
def hexCode : Text → Option (Nat × Text)
  | a :: b :: c :: d :: rest => do
    let a ← hexValue a
    let b ← hexValue b
    let c ← hexValue c
    let d ← hexValue d
    some (a * 4096 + b * 256 + c * 16 + d, rest)
  | _ => none

/-- The low half of a surrogate pair. -/
def lowSurrogate (s : Text) : Option (Nat × Text) :=
  match s with
  | c :: u :: rest =>
    if c = backslash ∧ u = 'u' then
      match hexCode rest with
      | some (n, rest) => if 0xdc00 ≤ n ∧ n ≤ 0xdfff then some (n, rest) else none
      | none           => none
    else none
  | _ => none

def unescape (c : Char) : Option Char :=
  if c = quote then some quote
  else if c = backslash then some backslash
  else if c = '/' then some '/'
  else if c = 'n' then some '\n'
  else if c = 'r' then some '\r'
  else if c = 't' then some '\t'
  else if c = 'f' then some (Char.ofNat 12)
  else if c = 'b' then some (Char.ofNat 8)
  else none

/-- The character an escape stands for, behind its `u`. -/
def scanUnicode (s : Text) : Option (Char × Text) :=
  match hexCode s with
  | none           => none
  | some (n, rest) =>
    if 0xd800 ≤ n ∧ n ≤ 0xdbff then
      (lowSurrogate rest).map (fun r => (Char.ofNat (0x10000 + (n - 0xd800) * 1024 + (r.1 - 0xdc00)), r.2))
    else if 0xdc00 ≤ n ∧ n ≤ 0xdfff then none
    else some (Char.ofNat n, rest)

/-- One character of a string; `none` within is its closing quote. -/
def scanChar : Text → Option (Option Char × Text)
  | []      => none
  | c :: cs =>
    if c = quote then some (none, cs)
    else if c = backslash then
      match cs with
      | []      => none
      | e :: cs =>
        if e = 'u' then (scanUnicode cs).map (fun r => (some r.1, r.2))
        else (unescape e).map (fun d => (some d, cs))
    else if c.toNat < 32 then none
    else some (some c, cs)

/-- The rest of a string behind its opening quote. -/
def scanString : Nat → Text → Option (Text × Text)
  | 0, _     => none
  | n + 1, s =>
    match scanChar s with
    | none                => none
    | some (none, rest)   => some ([], rest)
    | some (some c, rest) => (scanString n rest).map (fun r => (c :: r.1, r.2))

def digitsOf (s : Text) : Text := s.takeWhile Char.isDigit

def afterDigits (s : Text) : Text := s.dropWhile Char.isDigit

def natOf (ds : Text) : Nat := Nat.ofDigitChars 10 ds 0

/-- A zero, or digits that do not begin with one. -/
def integerPart : Text → Option (Text × Text)
  | []      => none
  | c :: cs =>
    if c = '0' then some (['0'], cs)
    else if c.isDigit then some (digitsOf (c :: cs), afterDigits (c :: cs))
    else none

def fractionPart (s : Text) : Text × Text :=
  match s with
  | []      => ([], s)
  | c :: cs => if c = '.' ∧ digitsOf cs ≠ [] then (digitsOf cs, afterDigits cs) else ([], s)

/-- A sign and what stands behind it. -/
def signPart (s : Text) : Bool × Text :=
  match s with
  | []      => (false, s)
  | c :: cs => if c = '-' then (true, cs) else if c = '+' then (false, cs) else (false, s)

def exponentPart (s : Text) : Int × Text :=
  match s with
  | []      => (0, s)
  | c :: cs =>
    let r := signPart cs
    if (c = 'e' ∨ c = 'E') ∧ digitsOf r.2 ≠ [] then
      (if r.1 then -(natOf (digitsOf r.2) : Int) else natOf (digitsOf r.2), afterDigits r.2)
    else (0, s)

def magnitude (s : Text) : Option (ℚ × Text) :=
  match integerPart s with
  | none       => none
  | some (ip, s) =>
    let f := fractionPart s
    let e := exponentPart f.2
    some ((natOf (ip ++ f.1) : ℚ) / 10 ^ f.1.length * (10 : ℚ) ^ e.1, e.2)

def number : Text → Option (ℚ × Text)
  | []      => none
  | c :: cs => if c = '-' then (magnitude cs).map (fun r => (-r.1, r.2)) else magnitude (c :: cs)

def literals : List (Text × Json) :=
  [("null".toList, .null), ("true".toList, .bool true), ("false".toList, .bool false),
    ("NaN".toList, .nonFinite .nan), ("Infinity".toList, .nonFinite .infinity),
    ("-Infinity".toList, .nonFinite .negInfinity)]

/-- A literal, or else a number. -/
def atom (s : Text) : Option (Json × Text) :=
  match literals.find? (fun p => s.startsWith p.1) with
  | some p => some (p.2, s.drop p.1.length)
  | none   => (number s).map (fun r => (.num r.1, r.2))

/-- `dict(pairs)`: a key keeps its first place and its last value. -/
def dictOf (pairs : List (Text × Json)) : List (Text × Json) := (OrdDict.ofList pairs).items

mutual
/-- One value, at most as deep as the fuel, and the text behind it. -/
def value : Nat → Text → Option (Json × Text)
  | 0, _     => none
  | n + 1, s =>
    match s with
    | []      => none
    | c :: cs =>
      if c = quote then (scanString n cs).map (fun r => (.str r.1, r.2))
      else if c = '[' then
        if (skipBlanks cs).head? = some ']' then some (.arr [], (skipBlanks cs).tail)
        else (items n (skipBlanks cs)).map (fun r => (.arr r.1, r.2))
      else if c = '{' then
        if (skipBlanks cs).head? = some '}' then some (.obj [], (skipBlanks cs).tail)
        else (fields n (skipBlanks cs)).map (fun r => (.obj (dictOf r.1), r.2))
      else atom s
def items : Nat → Text → Option (List Json × Text)
  | 0, _     => none
  | n + 1, s =>
    match value n s with
    | none          => none
    | some (v, s) =>
      match skipBlanks s with
      | []      => none
      | c :: cs =>
        if c = ']' then some ([v], cs)
        else if c = ',' then (items n (skipBlanks cs)).map (fun r => (v :: r.1, r.2))
        else none
def fields : Nat → Text → Option (List (Text × Json) × Text)
  | 0, _     => none
  | n + 1, s =>
    match s with
    | []      => none
    | c :: cs =>
      if c ≠ quote then none
      else match scanString n cs with
        | none        => none
        | some (k, s) =>
          match skipBlanks s with
          | []      => none
          | c :: cs =>
            if c ≠ ':' then none
            else match value n (skipBlanks cs) with
              | none        => none
              | some (v, s) =>
                match skipBlanks s with
                | []      => none
                | c :: cs =>
                  if c = '}' then some ([(k, v)], cs)
                  else if c = ',' then (fields n (skipBlanks cs)).map (fun r => ((k, v) :: r.1, r.2))
                  else none
end

/-- The whole text as one value; its length is fuel enough, as every value takes a character. -/
def loads (s : Text) : Except PyError Json :=
  match value (s.length + 1) (skipBlanks s) with
  | none           => .error .jsonDecodeError
  | some (v, rest) => if skipBlanks rest = [] then .ok v else .error .jsonDecodeError

/-! ## Strings are read back -/

theorem hexValue_digitChar : ∀ d < 16, hexValue (Nat.digitChar d) = some d := by decide

theorem hexCode_hex4 {n : Nat} (h : n < 0x10000) (rest : Text) : hexCode (hex4 n ++ rest) = some (n, rest) := by
  have hdigit : ∀ m, hexValue (Nat.digitChar (m % 16)) = some (m % 16) :=
    fun m => hexValue_digitChar _ (Nat.mod_lt _ (by decide))
  have hsum : n / 4096 % 16 * 4096 + n / 256 % 16 * 256 + n / 16 % 16 * 16 + n % 16 = n := by omega
  simp [hex4, hexCode, hdigit, hsum]

/-- A character's number is no half of a surrogate pair. -/
theorem toNat_valid (c : Char) : c.toNat < 0xd800 ∨ 0xdfff < c.toNat ∧ c.toNat < 0x110000 := c.valid

theorem scanUnicode_code {c : Char} (h : c.toNat < 0x10000) (rest : Text) :
    scanUnicode (hex4 c.toNat ++ rest) = some (c, rest) := by
  have hvalid := toNat_valid c
  unfold scanUnicode
  rw [hexCode_hex4 h]
  simp only
  rw [if_neg (by omega), if_neg (by omega), Char.ofNat_toNat]

theorem lowSurrogate_escape {n : Nat} (hlo : 0xdc00 ≤ n) (hhi : n ≤ 0xdfff) (rest : Text) :
    lowSurrogate (unicodeEscape n ++ rest) = some (n, rest) := by
  unfold unicodeEscape lowSurrogate
  simp only [List.cons_append, and_self, if_true]
  rw [hexCode_hex4 (by omega)]
  simp only
  rw [if_pos ⟨hlo, hhi⟩]

theorem scanUnicode_surrogates {high low : Nat} (h₁ : 0xd800 ≤ high) (h₂ : high ≤ 0xdbff) (h₃ : 0xdc00 ≤ low)
    (h₄ : low ≤ 0xdfff) (rest : Text) :
    scanUnicode (hex4 high ++ (unicodeEscape low ++ rest)) =
      some (Char.ofNat (0x10000 + (high - 0xd800) * 1024 + (low - 0xdc00)), rest) := by
  unfold scanUnicode
  rw [hexCode_hex4 (by omega)]
  simp only
  rw [if_pos ⟨h₁, h₂⟩, lowSurrogate_escape h₃ h₄, Option.map_some]

theorem surrogates_spec {n : Nat} (hlo : 0x10000 ≤ n) (hhi : n < 0x110000) :
    (0xd800 ≤ (surrogates n).1 ∧ (surrogates n).1 ≤ 0xdbff) ∧ (0xdc00 ≤ (surrogates n).2 ∧ (surrogates n).2 ≤ 0xdfff) ∧
      0x10000 + ((surrogates n).1 - 0xd800) * 1024 + ((surrogates n).2 - 0xdc00) = n := by
  unfold surrogates
  simp only
  omega

theorem scanUnicode_pair {c : Char} (h : 0x10000 ≤ c.toNat) (rest : Text) :
    scanUnicode (hex4 (surrogates c.toNat).1 ++ (unicodeEscape (surrogates c.toNat).2 ++ rest)) = some (c, rest) := by
  have hvalid := toNat_valid c
  obtain ⟨⟨h₁, h₂⟩, ⟨h₃, h₄⟩, hchar⟩ := surrogates_spec h (by omega)
  rw [scanUnicode_surrogates h₁ h₂ h₃ h₄, hchar, Char.ofNat_toNat]

theorem unescape_shortEscape {c e : Char} (h : shortEscape c = some e) : unescape e = some c ∧ e ≠ 'u' := by
  unfold shortEscape at h
  split_ifs at h with h₁ h₂ h₃ h₄ h₅ h₆ h₇ <;> cases h <;> subst_vars <;> decide

theorem shortEscape_none {c : Char} (h : shortEscape c = none) : c ≠ quote ∧ c ≠ backslash := by
  unfold shortEscape at h
  split_ifs at h with h₁ h₂
  exact ⟨h₁, h₂⟩

theorem scanChar_unicode (s : Text) :
    scanChar (backslash :: 'u' :: s) = (scanUnicode s).map (fun r => (some r.1, r.2)) := by
  have hquote : backslash ≠ quote := by decide
  simp [scanChar, hquote]

/-- **An escaped character is read back**, in either style. -/
theorem scanChar_escapeChar (ascii : Bool) (c : Char) (rest : Text) :
    scanChar (escapeChar ascii c ++ rest) = some (some c, rest) := by
  have hquote : backslash ≠ quote := by decide
  unfold escapeChar
  cases hshort : shortEscape c with
  | some e =>
    obtain ⟨hback, hu⟩ := unescape_shortEscape hshort
    simp [scanChar, hquote, hback, hu]
  | none =>
    obtain ⟨hq, hb⟩ := shortEscape_none hshort
    simp only
    split_ifs with hctrl hesc hbmp
    · show scanChar (backslash :: 'u' :: (hex4 c.toNat ++ rest)) = _
      rw [scanChar_unicode, scanUnicode_code (by omega)]
      rfl
    · show scanChar (backslash :: 'u' :: (hex4 c.toNat ++ rest)) = _
      rw [scanChar_unicode, scanUnicode_code hbmp]
      rfl
    · rw [List.append_assoc]
      show scanChar (backslash :: 'u' :: (hex4 _ ++ (unicodeEscape _ ++ rest))) = _
      rw [scanChar_unicode, scanUnicode_pair (not_lt.1 hbmp)]
      rfl
    · simp [scanChar, hq, hb, hctrl]

theorem length_escapeChar_pos (ascii : Bool) (c : Char) : 0 < (escapeChar ascii c).length := by
  unfold escapeChar
  cases shortEscape c with
  | some e => exact Nat.succ_pos _
  | none =>
    simp only
    split_ifs <;> simp [unicodeEscape]

/-- **A string is read back**, by induction on its characters. -/
theorem scanString_dumpChars (style : Style) (rest : Text) : ∀ (s : Text) {n : Nat}, (dumpChars style s).length < n →
    scanString n (dumpChars style s ++ quote :: rest) = some (s, rest)
  | [], n + 1, _ => by
    simp [dumpChars, scanString, scanChar]
  | c :: cs, n + 1, hn => by
    have hpos := length_escapeChar_pos style.ascii c
    rw [dumpChars, List.flatMap_cons, List.length_append] at hn
    have hrest := scanString_dumpChars style rest cs (n := n) (by unfold dumpChars; omega)
    rw [dumpChars, List.flatMap_cons, List.append_assoc, scanString, scanChar_escapeChar]
    simp only
    rw [show cs.flatMap (escapeChar style.ascii) = dumpChars style cs from rfl, hrest]
    rfl

/-! ## Integers are read back -/

/-- What stands behind a number does not go on with it. -/
def Ends (rest : Text) : Prop := ∀ c ∈ rest.head?, c.isDigit = false ∧ c ≠ '.' ∧ c ≠ 'e' ∧ c ≠ 'E'

theorem ends_nil : Ends [] := fun c h => by cases h

theorem ends_cons {c : Char} (h : c.isDigit = false ∧ c ≠ '.' ∧ c ≠ 'e' ∧ c ≠ 'E') (rest : Text) : Ends (c :: rest) := by
  intro d hd
  obtain rfl := Option.some.inj hd
  exact h

theorem digits_append {ds rest : Text} (hds : ∀ c ∈ ds, c.isDigit = true) (hrest : Ends rest) :
    digitsOf (ds ++ rest) = ds ∧ afterDigits (ds ++ rest) = rest := by
  unfold digitsOf afterDigits
  rw [List.takeWhile_append_of_pos hds, List.dropWhile_append_of_pos hds]
  cases rest with
  | nil => simp
  | cons c rest => simp [(hrest c rfl).1]

theorem fractionPart_ends {rest : Text} (h : Ends rest) : fractionPart rest = ([], rest) := by
  cases rest with
  | nil => rfl
  | cons c rest => simp [fractionPart, (h c rfl).2.1]

theorem exponentPart_ends {rest : Text} (h : Ends rest) : exponentPart rest = (0, rest) := by
  cases rest with
  | nil => rfl
  | cons c rest => simp [exponentPart, (h c rfl).2.2.1, (h c rfl).2.2.2]

/-- A positive number's decimal begins with a digit that is no zero. -/
theorem ofNat_cons : ∀ n : Nat, 0 < n → ∃ c cs, Text.ofNat n = c :: cs ∧ c ≠ '0' := by
  intro n
  induction n using Nat.strong_induction_on with
  | _ n ih =>
    intro hpos
    by_cases hlt : n < 10
    · refine ⟨Nat.digitChar n, [], Nat.toDigits_of_lt_base hlt, ?_⟩
      have hall : ∀ d < 10, 0 < d → Nat.digitChar d ≠ '0' := by decide
      exact hall n hlt hpos
    · obtain ⟨c, cs, hcs, hc⟩ := ih (n / 10) (by omega) (by omega)
      refine ⟨c, cs ++ [Nat.digitChar (n % 10)], ?_, hc⟩
      rw [Text.ofNat, Nat.toDigits_of_base_le (by decide) (not_lt.1 hlt)]
      rw [Text.ofNat] at hcs
      rw [hcs, List.cons_append]

theorem isDigit_ofNat (n : Nat) : ∀ c ∈ Text.ofNat n, c.isDigit = true :=
  fun _ h => Nat.isDigit_of_mem_toDigits (by decide) (by decide) h

theorem integerPart_ofNat (n : Nat) {rest : Text} (h : Ends rest) :
    integerPart (Text.ofNat n ++ rest) = some (Text.ofNat n, rest) := by
  rcases Nat.eq_zero_or_pos n with rfl | hpos
  · simp [Text.ofNat, integerPart]
  · obtain ⟨c, cs, hcs, hc⟩ := ofNat_cons n hpos
    have hdigits := isDigit_ofNat n
    obtain ⟨htake, hdrop⟩ := digits_append hdigits h
    rw [hcs] at hdigits htake hdrop ⊢
    rw [List.cons_append] at htake hdrop ⊢
    simp only [integerPart, hc, hdigits c List.mem_cons_self, if_true, if_false, htake, hdrop]

theorem magnitude_ofNat (n : Nat) {rest : Text} (h : Ends rest) :
    magnitude (Text.ofNat n ++ rest) = some ((n : ℚ), rest) := by
  have hnat : natOf (Text.ofNat n) = n := Nat.ofDigitChars_ten_toDigits
  unfold magnitude
  rw [integerPart_ofNat n h]
  simp only [fractionPart_ends h, exponentPart_ends h, List.append_nil, hnat]
  simp

theorem ofInt_neg_succ (n : Nat) : Text.ofInt (Int.negSucc n) = '-' :: Text.ofNat (n + 1) := by
  unfold Text.ofInt
  rw [Int.repr]
  simp [Text.ofNat, Nat.toList_repr]

/-- **An integer is read back.** -/
theorem number_ofInt (z : Int) {rest : Text} (h : Ends rest) : number (Text.ofInt z ++ rest) = some ((z : ℚ), rest) := by
  cases z with
  | ofNat n =>
    have hmag := magnitude_ofNat n h
    rw [Int.ofNat_eq_natCast, Text.ofInt_natCast]
    obtain ⟨c, cs, hcs⟩ := List.exists_cons_of_ne_nil (show Text.ofNat n ≠ [] from Nat.toDigits_ne_nil)
    have hc : c ≠ '-' := by
      rintro rfl
      have := isDigit_ofNat n '-' (hcs ▸ List.mem_cons_self)
      exact absurd this (by decide)
    rw [hcs, List.cons_append] at hmag ⊢
    rw [number, if_neg hc, hmag]
    simp
  | negSucc n =>
    rw [ofInt_neg_succ, List.cons_append, number, if_pos rfl, magnitude_ofNat (n + 1) h]
    simp [Int.negSucc_eq]

/-- No literal begins with a digit, or with a sign before a digit. -/
theorem find_literals_digit {c : Char} (hc : c.isDigit = true) (cs : Text) :
    literals.find? (fun p => Text.startsWith (c :: cs) p.1) = none ∧
      literals.find? (fun p => Text.startsWith ('-' :: c :: cs) p.1) = none := by
  have hne : c ≠ 'n' ∧ c ≠ 't' ∧ c ≠ 'f' ∧ c ≠ 'N' ∧ c ≠ 'I' ∧ c ≠ '-' := by
    refine ⟨?_, ?_, ?_, ?_, ?_, ?_⟩ <;> (rintro rfl; exact absurd hc (by decide))
  obtain ⟨hn, ht, hf, hN, hI, hm⟩ := hne
  constructor
  · simp [literals, Text.startsWith, hn.symm, ht.symm, hf.symm, hN.symm, hI.symm, hm.symm]
  · simp [literals, Text.startsWith, hI.symm]

/-- A numeral begins with a digit, or with a sign before a digit. -/
theorem ofInt_begins (z : Int) :
    ∃ c cs, c.isDigit = true ∧ (Text.ofInt z = c :: cs ∨ Text.ofInt z = '-' :: c :: cs) := by
  cases z with
  | ofNat n =>
    obtain ⟨c, cs, hcs⟩ := List.exists_cons_of_ne_nil (show Text.ofNat n ≠ [] from Nat.toDigits_ne_nil)
    refine ⟨c, cs, isDigit_ofNat n c (hcs ▸ List.mem_cons_self), Or.inl ?_⟩
    rw [Int.ofNat_eq_natCast, Text.ofInt_natCast, hcs]
  | negSucc n =>
    obtain ⟨c, cs, hcs⟩ := List.exists_cons_of_ne_nil (show Text.ofNat (n + 1) ≠ [] from Nat.toDigits_ne_nil)
    refine ⟨c, cs, isDigit_ofNat (n + 1) c (hcs ▸ List.mem_cons_self), Or.inr ?_⟩
    rw [ofInt_neg_succ, hcs]

theorem atom_ofInt (z : Int) {rest : Text} (h : Ends rest) : atom (Text.ofInt z ++ rest) = some (.num z, rest) := by
  have hnone : literals.find? (fun p => Text.startsWith (Text.ofInt z ++ rest) p.1) = none := by
    obtain ⟨c, cs, hc, hz | hz⟩ := ofInt_begins z
    · rw [hz]
      exact (find_literals_digit hc (cs ++ rest)).1
    · rw [hz]
      exact (find_literals_digit hc (cs ++ rest)).2
  unfold atom
  rw [hnone]
  simp only
  rw [number_ofInt z h]
  rfl

/-! ## Values are read back -/

/-- A character no token before a value ends with. -/
def StartsValue (s : Text) : Prop := ∃ c cs, s = c :: cs ∧ isBlank c = false ∧ c ≠ ']'

theorem StartsValue.skipBlanks {s : Text} (h : StartsValue s) (rest : Text) : skipBlanks (s ++ rest) = s ++ rest := by
  obtain ⟨c, cs, rfl, hblank, -⟩ := h
  simp [Json.skipBlanks, hblank]

/-- Texts of printable ASCII. -/
def Printable (s : Text) : Prop := ∀ c ∈ s, 32 ≤ c.toNat ∧ c.toNat ≤ 126

/-- What the style makes of a number that is no integer is printable, and is read back. -/
def FloatsBack (style : Style) (q : ℚ) : Prop :=
  Printable (style.float q) ∧ StartsValue (style.float q) ∧
    ∀ n rest, Ends rest → value (n + 1) (style.float q ++ rest) = some (.num q, rest)

/-- Values with distinct keys in each object, whose numbers the style can write. -/
inductive Writable (style : Style) : Json → Prop
  | null : Writable style .null
  | bool (b : Bool) : Writable style (.bool b)
  | num {q : ℚ} : (q.den ≠ 1 → FloatsBack style q) → Writable style (.num q)
  | nonFinite (x : NonFinite) : Writable style (.nonFinite x)
  | str (s : Text) : Writable style (.str s)
  | arr {l : List Json} : (∀ x ∈ l, Writable style x) → Writable style (.arr l)
  | obj {fs : List (Text × Json)} : (fs.map Prod.fst).Nodup → (∀ p ∈ fs, Writable style p.2) → Writable style (.obj fs)

theorem writable_int (style : Style) (z : Int) : Writable style (.num z) := .num (fun h => absurd (Rat.den_intCast z) h)

theorem startsValue_cons {c : Char} (cs : Text) (hblank : isBlank c = false) (hc : c ≠ ']') : StartsValue (c :: cs) :=
  ⟨c, cs, rfl, hblank, hc⟩

theorem startsValue_ofInt (z : Int) : StartsValue (Text.ofInt z) := by
  obtain ⟨c, cs, hc, hz | hz⟩ := ofInt_begins z
  · refine ⟨c, cs, hz, ?_, ?_⟩
    · by_contra hblank
      simp only [isBlank, Bool.not_eq_false, Bool.or_eq_true, decide_eq_true_eq] at hblank
      rcases hblank with ((rfl | rfl) | rfl) | rfl <;> exact absurd hc (by decide)
    · rintro rfl
      exact absurd hc (by decide)
  · exact ⟨'-', c :: cs, hz, rfl, by decide⟩

theorem startsValue_dumpsAt {style : Style} (depth : Nat) {v : Json} (h : Writable style v) :
    StartsValue (dumpsAt style depth v) := by
  cases h with
  | null => exact startsValue_cons _ rfl (by decide)
  | bool b => cases b <;> exact startsValue_cons _ rfl (by decide)
  | @num q hq =>
    rw [dumpsAt, dumpNum]
    split
    · exact startsValue_ofInt q.num
    · rename_i hden
      exact (hq hden).2.1
  | nonFinite x => cases x <;> exact startsValue_cons _ rfl (by decide)
  | str s => exact startsValue_cons _ (by decide) (by decide)
  | arr h => exact startsValue_cons _ rfl (by decide)
  | obj h => exact startsValue_cons _ rfl (by decide)

theorem dumpMoreFields_ends (style : Style) (depth : Nat) : ∀ fs : List (Text × Json),
    ∃ mid, dumpMoreFields style depth fs = mid ++ ['}']
  | [] => ⟨style.line depth, rfl⟩
  | (k, x) :: fs => by
    obtain ⟨mid, hmid⟩ := dumpMoreFields_ends style depth fs
    refine ⟨',' :: (style.gap (depth + 1) ++
      (dumpStr style k ++ ':' :: (style.blank ++ (dumpsAt style (depth + 1) x ++ mid)))), ?_⟩
    simp [dumpMoreFields, hmid]

/-- An object is written between its braces. -/
theorem dumps_obj_ends (style : Style) : ∀ fs : List (Text × Json), ∃ mid, dumps style (.obj fs) = '{' :: (mid ++ ['}'])
  | [] => ⟨[], rfl⟩
  | (k, x) :: fs => by
    obtain ⟨mid, hmid⟩ := dumpMoreFields_ends style 0 fs
    refine ⟨style.line 1 ++ (dumpStr style k ++ ':' :: (style.blank ++ (dumpsAt style 1 x ++ mid))), ?_⟩
    simp [dumps, dumpsAt, dumpFields, hmid]

/-- With fuel for its characters the value is read, and what stands behind it is left. -/
def ReadsBack (style : Style) (v : Json) : Prop :=
  ∀ depth n rest, Ends rest → (dumpsAt style depth v).length ≤ n →
    value n (dumpsAt style depth v ++ rest) = some (v, rest)

theorem value_atom {c : Char} {cs : Text} (h₁ : c ≠ quote) (h₂ : c ≠ '[') (h₃ : c ≠ '{') (n : Nat) :
    value (n + 1) (c :: cs) = atom (c :: cs) := by
  rw [value, if_neg h₁, if_neg h₂, if_neg h₃]

theorem atom_literal : ∀ p ∈ literals, ∀ rest, atom (p.1 ++ rest) = some (p.2, rest) := by
  intro p hp rest
  simp only [literals, List.mem_cons, List.not_mem_nil, or_false] at hp
  rcases hp with rfl | rfl | rfl | rfl | rfl | rfl <;>
    simp [atom, literals, Text.startsWith]

theorem literals_begin : ∀ p ∈ literals, ∀ c ∈ p.1.head?, c ≠ quote ∧ c ≠ '[' ∧ c ≠ '{' := by
  intro p hp c hc
  simp only [literals, List.mem_cons, List.not_mem_nil, or_false] at hp
  rcases hp with rfl | rfl | rfl | rfl | rfl | rfl <;> (obtain rfl := Option.some.inj hc; decide)

theorem readsBack_literal {style : Style} {p : Text × Json} (hmem : p ∈ literals)
    (hdumps : ∀ depth, dumpsAt style depth p.2 = p.1) : ReadsBack style p.2 := by
  intro depth n rest _ hn
  have hatom := atom_literal p hmem rest
  have hbegin := literals_begin p hmem
  rw [hdumps] at hn ⊢
  cases hp : p.1 with
  | nil =>
    rw [hp] at hatom
    simp only [literals, List.mem_cons, List.not_mem_nil, or_false] at hmem
    rcases hmem with rfl | rfl | rfl | rfl | rfl | rfl <;> cases hp
  | cons c cs =>
    rw [hp] at hn hatom hbegin
    obtain ⟨n, rfl⟩ : ∃ m, n = m + 1 := ⟨n - 1, by simp at hn; omega⟩
    obtain ⟨h₁, h₂, h₃⟩ := hbegin c rfl
    rw [List.cons_append, value_atom h₁ h₂ h₃]
    exact hatom

theorem readsBack_num {style : Style} {q : ℚ} (h : q.den ≠ 1 → FloatsBack style q) : ReadsBack style (.num q) := by
  intro depth n rest hrest hn
  obtain ⟨c, cs, hcs, -⟩ := startsValue_dumpsAt depth (Writable.num h)
  obtain ⟨n, rfl⟩ : ∃ m, n = m + 1 := ⟨n - 1, by rw [hcs] at hn; simp at hn; omega⟩
  rw [dumpsAt, dumpNum]
  by_cases hden : q.den = 1
  · rw [if_pos hden]
    have hatom := atom_ofInt q.num hrest
    have hnum : (q.num : ℚ) = q := Rat.coe_int_num_of_den_eq_one hden
    obtain ⟨d, ds, hd, hz⟩ := ofInt_begins q.num
    have hnot : ∀ e : Char, e.isDigit = false → d ≠ e := by
      rintro e he rfl
      rw [hd] at he
      cases he
    rcases hz with hz | hz
    · rw [hz, List.cons_append] at hatom ⊢
      rw [value_atom (hnot _ (by decide)) (hnot _ (by decide)) (hnot _ (by decide)), hatom, hnum]
    · rw [hz, List.cons_append] at hatom ⊢
      rw [value_atom (by decide) (by decide) (by decide), hatom, hnum]
  · rw [if_neg hden]
    exact (h hden).2.2 n rest hrest

theorem readsBack_str (style : Style) (s : Text) : ReadsBack style (.str s) := by
  intro depth n rest _ hn
  rw [dumpsAt, dumpStr] at hn ⊢
  rw [List.length_cons, List.length_append, List.length_singleton] at hn
  obtain ⟨n, rfl⟩ : ∃ m, n = m + 1 := ⟨n - 1, by omega⟩
  rw [List.cons_append, List.append_assoc, value, if_pos rfl, List.singleton_append,
    scanString_dumpChars style rest s (by omega)]
  rfl

theorem skipBlanks_append {b : Text} (hb : ∀ c ∈ b, isBlank c = true) (s : Text) : skipBlanks (b ++ s) = skipBlanks s := by
  rw [skipBlanks, List.dropWhile_append_of_pos hb]
  rfl

theorem isBlank_blank (style : Style) : ∀ c ∈ style.blank, isBlank c = true := by
  unfold Style.blank
  split <;> simp [isBlank]

theorem isBlank_line (style : Style) (depth : Nat) : ∀ c ∈ style.line depth, isBlank c = true := by
  unfold Style.line
  cases style.indent with
  | none => exact fun c h => by cases h
  | some k =>
    intro c hc
    rcases List.mem_cons.1 hc with rfl | hc
    · rfl
    · rw [List.eq_of_mem_replicate hc]
      rfl

theorem isBlank_gap (style : Style) (depth : Nat) : ∀ c ∈ style.gap depth, isBlank c = true := by
  unfold Style.gap
  split
  · exact isBlank_line style depth
  · exact isBlank_blank style

theorem skipBlanks_cons {c : Char} (h : isBlank c = false) (cs : Text) : skipBlanks (c :: cs) = c :: cs := by
  simp [skipBlanks, h]

/-- Blanks end a number as brackets and commas do. -/
theorem ends_line (style : Style) (depth : Nat) {c : Char}
    (hc : c.isDigit = false ∧ c ≠ '.' ∧ c ≠ 'e' ∧ c ≠ 'E') (rest : Text) : Ends (style.line depth ++ c :: rest) := by
  unfold Style.line
  cases style.indent with
  | none => exact ends_cons hc rest
  | some k => exact ends_cons (by decide) _

theorem ends_dumpMoreItems (style : Style) (depth : Nat) (xs : List Json) (rest : Text) :
    Ends (dumpMoreItems style depth xs ++ rest) := by
  cases xs with
  | nil =>
    rw [dumpMoreItems, List.append_assoc]
    exact ends_line style depth (by decide) rest
  | cons x xs => exact ends_cons (by decide) _

theorem ends_dumpMoreFields (style : Style) (depth : Nat) (fs : List (Text × Json)) (rest : Text) :
    Ends (dumpMoreFields style depth fs ++ rest) := by
  cases fs with
  | nil =>
    rw [dumpMoreFields, List.append_assoc]
    exact ends_line style depth (by decide) rest
  | cons p fs => exact ends_cons (by decide) _

/-- **The items of an array are read back** when each of them is. -/
theorem items_dumpItems {style : Style} (depth : Nat) : ∀ (x : Json) (xs : List Json),
    (∀ y ∈ x :: xs, Writable style y ∧ ReadsBack style y) → ∀ n rest,
      (dumpsAt style (depth + 1) x ++ dumpMoreItems style depth xs).length ≤ n →
      items n (dumpsAt style (depth + 1) x ++ (dumpMoreItems style depth xs ++ rest)) = some (x :: xs, rest)
  | x, [], hall, n, rest, hn => by
    obtain ⟨hx, hread⟩ := hall x List.mem_cons_self
    have hends := ends_dumpMoreItems style depth [] rest
    rw [dumpMoreItems, List.length_append, List.length_append, List.length_singleton] at hn
    obtain ⟨n, rfl⟩ : ∃ m, n = m + 1 := ⟨n - 1, by omega⟩
    rw [items, hread (depth + 1) n _ hends (by omega)]
    simp only
    rw [dumpMoreItems, List.append_assoc, skipBlanks_append (isBlank_line style depth), List.singleton_append,
      skipBlanks_cons rfl]
    rfl
  | x, y :: ys, hall, n, rest, hn => by
    obtain ⟨hx, hread⟩ := hall x List.mem_cons_self
    have hends := ends_dumpMoreItems style depth (y :: ys) rest
    have hmore : dumpMoreItems style depth (y :: ys) =
        ',' :: (style.gap (depth + 1) ++ (dumpsAt style (depth + 1) y ++ dumpMoreItems style depth ys)) := rfl
    rw [List.length_append, hmore, List.length_cons, List.length_append] at hn
    obtain ⟨n, rfl⟩ : ∃ m, n = m + 1 := ⟨n - 1, by omega⟩
    have hy := (startsValue_dumpsAt (depth + 1) (hall y (by simp)).1).skipBlanks (dumpMoreItems style depth ys ++ rest)
    have hrest := items_dumpItems depth y ys (fun z hz => hall z (List.mem_cons_of_mem _ hz)) n rest (by omega)
    rw [items, hread (depth + 1) n _ hends (by omega)]
    simp only
    rw [hmore, List.cons_append, skipBlanks_cons rfl]
    simp only
    rw [if_neg (by decide), if_pos trivial, List.append_assoc, skipBlanks_append (isBlank_gap style (depth + 1)),
      List.append_assoc, hy, hrest]
    rfl

theorem startsValue_dumpStr (style : Style) (s t : Text) : StartsValue (dumpStr style s ++ t) :=
  startsValue_cons _ (by decide) (by decide)

/-- The first field of an object is read back up to what stands behind its value. -/
theorem fields_first {style : Style} {x : Json} (hx : Writable style x) (hread : ReadsBack style x) (depth : Nat)
    (k : Text) {n : Nat} {rest : Text} (hrest : Ends rest) (hk : (dumpStr style k).length ≤ n + 1)
    (hn : (dumpsAt style depth x).length ≤ n) :
    fields (n + 1) (dumpStr style k ++ ':' :: (style.blank ++ (dumpsAt style depth x ++ rest))) =
      match skipBlanks rest with
      | []      => none
      | c :: cs =>
        if c = '}' then some ([(k, x)], cs)
        else if c = ',' then (fields n (skipBlanks cs)).map (fun r => ((k, x) :: r.1, r.2))
        else none := by
  rw [dumpStr, List.length_cons, List.length_append, List.length_singleton] at hk
  rw [dumpStr, List.cons_append, List.append_assoc, fields]
  simp only [List.singleton_append]
  rw [if_neg (not_not.2 rfl), scanString_dumpChars style _ k (by omega)]
  simp only
  rw [skipBlanks_cons (show isBlank ':' = false from rfl)]
  simp only
  rw [if_neg (not_not.2 rfl), skipBlanks_append (isBlank_blank style), (startsValue_dumpsAt depth hx).skipBlanks,
    hread depth n rest hrest hn]

/-- A field's text up to its value. -/
def fieldText (style : Style) (depth : Nat) (k : Text) (x : Json) : Text :=
  dumpStr style k ++ ':' :: (style.blank ++ dumpsAt style (depth + 1) x)

/-- **The fields of an object are read back** when each value is. -/
theorem fields_dumpFields {style : Style} (depth : Nat) : ∀ (k : Text) (x : Json) (fs : List (Text × Json)),
    (∀ p ∈ (k, x) :: fs, Writable style p.2 ∧ ReadsBack style p.2) → ∀ n rest,
      (fieldText style depth k x ++ dumpMoreFields style depth fs).length ≤ n →
      fields n (fieldText style depth k x ++ (dumpMoreFields style depth fs ++ rest)) = some ((k, x) :: fs, rest)
  | k, x, [], hall, n, rest, hn => by
    obtain ⟨hx, hread⟩ : Writable style x ∧ ReadsBack style x := hall (k, x) List.mem_cons_self
    have hends := ends_dumpMoreFields style depth [] rest
    simp only [fieldText, dumpMoreFields, List.length_append, List.length_cons, List.length_nil] at hn
    obtain ⟨n, rfl⟩ : ∃ m, n = m + 1 := ⟨n - 1, by omega⟩
    rw [fieldText, List.append_assoc, List.cons_append, List.append_assoc,
      fields_first hx hread (depth + 1) k hends (by omega) (by omega), dumpMoreFields, List.append_assoc,
      skipBlanks_append (isBlank_line style depth), List.singleton_append, skipBlanks_cons rfl]
    rfl
  | k, x, (k', x') :: fs, hall, n, rest, hn => by
    obtain ⟨hx, hread⟩ : Writable style x ∧ ReadsBack style x := hall (k, x) List.mem_cons_self
    have hends := ends_dumpMoreFields style depth ((k', x') :: fs) rest
    have hmore : ∀ rest, dumpMoreFields style depth ((k', x') :: fs) ++ rest =
        ',' :: (style.gap (depth + 1) ++ (fieldText style depth k' x' ++ (dumpMoreFields style depth fs ++ rest))) := by
      simp [fieldText, dumpMoreFields]
    have hlen := congrArg List.length (hmore [])
    simp only [List.append_nil, List.length_append, List.length_cons] at hlen
    rw [List.length_append, hlen] at hn
    simp only [fieldText, List.length_append, List.length_cons] at hn
    obtain ⟨n, rfl⟩ : ∃ m, n = m + 1 := ⟨n - 1, by omega⟩
    have hrest := fields_dumpFields depth k' x' fs (fun z hz => hall z (List.mem_cons_of_mem _ hz)) n rest (by
      simp only [fieldText, List.length_append, List.length_cons]
      omega)
    have hstarts : StartsValue (fieldText style depth k' x') := startsValue_dumpStr style k' _
    rw [fieldText, List.append_assoc, List.cons_append, List.append_assoc,
      fields_first hx hread (depth + 1) k hends (by omega) (by omega), hmore, skipBlanks_cons rfl]
    simp only
    rw [if_neg (by decide), if_pos trivial, skipBlanks_append (isBlank_gap style (depth + 1)), hstarts.skipBlanks, hrest]
    rfl

theorem readsBack_arr {style : Style} {l : List Json} (h : ∀ x ∈ l, Writable style x ∧ ReadsBack style x) :
    ReadsBack style (.arr l) := by
  intro depth n rest _ hn
  rw [dumpsAt, List.length_cons] at hn
  obtain ⟨n, rfl⟩ : ∃ m, n = m + 1 := ⟨n - 1, by omega⟩
  rw [dumpsAt, List.cons_append, value, if_neg (by decide), if_pos rfl]
  cases l with
  | nil => simp [dumpItems, skipBlanks_cons (show isBlank ']' = false from rfl)]
  | cons x xs =>
    rw [dumpItems, List.length_append] at hn
    have hstarts := startsValue_dumpsAt (depth + 1) (h x List.mem_cons_self).1
    have hread := items_dumpItems depth x xs h n rest (by omega)
    have hskip := hstarts.skipBlanks (dumpMoreItems style depth xs ++ rest)
    obtain ⟨c, cs, hcs, -, hc⟩ := hstarts
    have hopen : ¬ (dumpsAt style (depth + 1) x ++ (dumpMoreItems style depth xs ++ rest)).head? = some ']' := by
      rw [hcs]
      exact fun heq => hc (Option.some.inj heq)
    rw [dumpItems, List.append_assoc, skipBlanks_append (isBlank_line style (depth + 1)), List.append_assoc, hskip,
      if_neg hopen, hread]
    rfl

theorem readsBack_obj {style : Style} {fs : List (Text × Json)} (hnd : (fs.map Prod.fst).Nodup)
    (h : ∀ p ∈ fs, Writable style p.2 ∧ ReadsBack style p.2) : ReadsBack style (.obj fs) := by
  intro depth n rest _ hn
  rw [dumpsAt, List.length_cons] at hn
  obtain ⟨n, rfl⟩ : ∃ m, n = m + 1 := ⟨n - 1, by omega⟩
  rw [dumpsAt, List.cons_append, value, if_neg (by decide), if_neg (by decide), if_pos rfl]
  cases fs with
  | nil => simp [dumpFields, skipBlanks_cons (show isBlank '}' = false from rfl)]
  | cons p fs =>
    obtain ⟨k, x⟩ := p
    have hshape : dumpFields style depth ((k, x) :: fs) ++ rest =
        style.line (depth + 1) ++ (fieldText style depth k x ++ (dumpMoreFields style depth fs ++ rest)) := by
      simp [fieldText, dumpFields]
    have hlen : (dumpFields style depth ((k, x) :: fs)).length =
        (style.line (depth + 1)).length + (fieldText style depth k x ++ dumpMoreFields style depth fs).length := by
      simp [fieldText, dumpFields]
    have hread := fields_dumpFields depth k x fs h n rest (by omega)
    have hstarts : StartsValue (fieldText style depth k x) := startsValue_dumpStr style k _
    have hopen : ¬ (fieldText style depth k x ++ (dumpMoreFields style depth fs ++ rest)).head? = some '}' := by
      show ¬ some quote = some '}'
      decide
    rw [hshape, skipBlanks_append (isBlank_line style (depth + 1)), hstarts.skipBlanks, if_neg hopen, hread,
      Option.map_some, dictOf, OrdDict.items_ofList hnd]

theorem null_mem : ("null".toList, Json.null) ∈ literals := List.mem_cons_self

theorem true_mem : ("true".toList, Json.bool true) ∈ literals := List.mem_cons_of_mem _ List.mem_cons_self

theorem false_mem : ("false".toList, Json.bool false) ∈ literals :=
  List.mem_cons_of_mem _ (List.mem_cons_of_mem _ List.mem_cons_self)

theorem nonFinite_mem (x : NonFinite) : (NonFinite.literal x, Json.nonFinite x) ∈ literals := by
  refine List.mem_cons_of_mem _ (List.mem_cons_of_mem _ (List.mem_cons_of_mem _ ?_))
  cases x with
  | nan         => exact List.mem_cons_self
  | infinity    => exact List.mem_cons_of_mem _ List.mem_cons_self
  | negInfinity => exact List.mem_cons_of_mem _ (List.mem_cons_of_mem _ List.mem_cons_self)

/-- **A written value is read back**, with whatever stands behind it left: by induction on the value. -/
theorem value_dumps {style : Style} {v : Json} (h : Writable style v) : ReadsBack style v := by
  induction h with
  | null => exact readsBack_literal null_mem (fun _ => rfl)
  | bool b =>
    cases b with
    | true  => exact readsBack_literal true_mem (fun _ => rfl)
    | false => exact readsBack_literal false_mem (fun _ => rfl)
  | num hq => exact readsBack_num hq
  | nonFinite x => exact readsBack_literal (nonFinite_mem x) (fun _ => rfl)
  | str s => exact readsBack_str style s
  | arr h ih => exact readsBack_arr (fun x hx => ⟨h x hx, ih x hx⟩)
  | obj hnd h ih => exact readsBack_obj hnd (fun p hp => ⟨h p hp, ih p hp⟩)

theorem ends_of_isBlank {s : Text} (h : ∀ c ∈ s, isBlank c = true) : Ends s := by
  cases s with
  | nil => exact ends_nil
  | cons c s =>
    refine ends_cons ?_ s
    have hc := h c List.mem_cons_self
    simp only [isBlank, Bool.or_eq_true, decide_eq_true_eq] at hc
    rcases hc with ((rfl | rfl) | rfl) | rfl <;> decide

/-- **The reader inverts the writer**, with blanks behind what is written. -/
theorem loads_dumps_append {style : Style} {v : Json} (h : Writable style v) {b : Text}
    (hblanks : ∀ c ∈ b, isBlank c = true) : loads (dumps style v ++ b) = .ok v := by
  have hlen : (dumpsAt style 0 v).length ≤ (dumps style v ++ b).length + 1 := by
    rw [List.length_append, dumps]
    omega
  have hread := value_dumps h 0 _ b (ends_of_isBlank hblanks) hlen
  have hskip : skipBlanks (dumps style v ++ b) = dumpsAt style 0 v ++ b :=
    (startsValue_dumpsAt 0 h).skipBlanks b
  have hrest : skipBlanks b = [] := List.dropWhile_eq_nil_iff.2 hblanks
  unfold loads
  rw [hskip, hread]
  simp only
  rw [if_pos hrest]

theorem loads_dumps {style : Style} {v : Json} (h : Writable style v) : loads (dumps style v) = .ok v := by
  have hread := loads_dumps_append h (b := []) (fun c hc => by cases hc)
  rwa [List.append_nil] at hread

/-! ## What is written is printable -/

theorem printable_nil : Printable [] := fun c h => by cases h

theorem printable_cons {c : Char} {s : Text} : Printable (c :: s) ↔ (32 ≤ c.toNat ∧ c.toNat ≤ 126) ∧ Printable s :=
  List.forall_mem_cons

theorem printable_append {s t : Text} : Printable (s ++ t) ↔ Printable s ∧ Printable t := List.forall_mem_append

theorem printable_unicodeEscape (n : Nat) : Printable (unicodeEscape n) := by
  have hdigit : ∀ d < 16, 32 ≤ (Nat.digitChar d).toNat ∧ (Nat.digitChar d).toNat ≤ 126 := by decide
  have hmod : ∀ m, 32 ≤ (Nat.digitChar (m % 16)).toNat ∧ (Nat.digitChar (m % 16)).toNat ≤ 126 :=
    fun m => hdigit _ (Nat.mod_lt _ (by decide))
  refine printable_cons.2 ⟨by decide, printable_cons.2 ⟨by decide, ?_⟩⟩
  simp only [hex4, printable_cons]
  exact ⟨hmod _, hmod _, hmod _, hmod _, printable_nil⟩

theorem printable_escapeChar (c : Char) : Printable (escapeChar true c) := by
  unfold escapeChar
  cases hshort : shortEscape c with
  | some e =>
    have he : 32 ≤ e.toNat ∧ e.toNat ≤ 126 := by
      unfold shortEscape at hshort
      split_ifs at hshort <;> cases hshort <;> decide
    exact printable_cons.2 ⟨by decide, printable_cons.2 ⟨he, printable_nil⟩⟩
  | none =>
    simp only
    split_ifs with hctrl hesc hbmp
    · exact printable_unicodeEscape _
    · exact printable_unicodeEscape _
    · exact printable_append.2 ⟨printable_unicodeEscape _, printable_unicodeEscape _⟩
    · refine printable_cons.2 ⟨⟨not_lt.1 hctrl, ?_⟩, printable_nil⟩
      by_contra hlt
      exact hesc ⟨trivial, not_le.1 hlt⟩

theorem printable_ofInt (z : Int) : Printable (Text.ofInt z) := by
  have hdigit : ∀ n, Printable (Text.ofNat n) := by
    intro n c hc
    have hc := isDigit_ofNat n c hc
    simp only [Char.isDigit, Bool.and_eq_true, decide_eq_true_eq, ge_iff_le, UInt32.le_iff_toNat_le] at hc
    have h₁ : 48 ≤ c.toNat := hc.1
    have h₂ : c.toNat ≤ 57 := hc.2
    omega
  cases z with
  | ofNat n =>
    rw [Int.ofNat_eq_natCast, Text.ofInt_natCast]
    exact hdigit n
  | negSucc n =>
    rw [ofInt_neg_succ]
    exact printable_cons.2 ⟨by decide, hdigit _⟩

theorem printable_of_all {s : Text} (h : s.all (fun c => 32 ≤ c.toNat && c.toNat ≤ 126) = true) : Printable s := by
  intro c hc
  simpa using List.all_eq_true.1 h c hc

theorem printable_literals : ∀ p ∈ literals, Printable p.1 := by
  intro p hp
  simp only [literals, List.mem_cons, List.not_mem_nil, or_false] at hp
  rcases hp with rfl | rfl | rfl | rfl | rfl | rfl <;> exact printable_of_all rfl

section Printable
variable {style : Style} (hascii : style.ascii = true)

theorem printable_blank : Printable style.blank := by
  unfold Style.blank
  split
  · exact printable_cons.2 ⟨by decide, printable_nil⟩
  · exact printable_nil

include hascii

theorem printable_dumpStr (s : Text) : Printable (dumpStr style s) := by
  refine printable_cons.2 ⟨by decide, printable_append.2 ⟨?_, printable_cons.2 ⟨by decide, printable_nil⟩⟩⟩
  intro c hc
  obtain ⟨d, -, hd⟩ := List.mem_flatMap.1 hc
  rw [hascii] at hd
  exact printable_escapeChar d c hd

variable (hline : style.indent = none)

include hline

omit hascii in
theorem printable_line (depth : Nat) : Printable (style.line depth) := by
  rw [Style.line, hline]
  exact printable_nil

omit hascii in
theorem printable_gap (depth : Nat) : Printable (style.gap depth) := by
  rw [Style.gap, hline]
  exact printable_blank

omit hascii in
theorem printable_dumpMoreItems (depth : Nat) : ∀ (l : List Json), (∀ x ∈ l, Printable (dumpsAt style (depth + 1) x)) →
    Printable (dumpMoreItems style depth l)
  | [], _ => printable_append.2 ⟨printable_line hline depth, printable_cons.2 ⟨by decide, printable_nil⟩⟩
  | x :: xs, h => by
    have hrest := printable_dumpMoreItems depth xs (fun y hy => h y (List.mem_cons_of_mem _ hy))
    rw [dumpMoreItems, printable_cons, printable_append, printable_append]
    exact ⟨by decide, printable_gap hline _, h x List.mem_cons_self, hrest⟩

theorem printable_dumpMoreFields (depth : Nat) : ∀ (fs : List (Text × Json)),
    (∀ p ∈ fs, Printable (dumpsAt style (depth + 1) p.2)) → Printable (dumpMoreFields style depth fs)
  | [], _ => printable_append.2 ⟨printable_line hline depth, printable_cons.2 ⟨by decide, printable_nil⟩⟩
  | (k, x) :: fs, h => by
    have hrest := printable_dumpMoreFields depth fs (fun p hp => h p (List.mem_cons_of_mem _ hp))
    rw [dumpMoreFields, printable_cons, printable_append, printable_append, printable_cons, printable_append,
      printable_append]
    exact ⟨by decide, printable_gap hline _, printable_dumpStr hascii k, by decide, printable_blank,
      h (k, x) List.mem_cons_self, hrest⟩

theorem printable_dumpsAt {v : Json} (h : Writable style v) : ∀ depth, Printable (dumpsAt style depth v) := by
  induction h with
  | null => exact fun _ => printable_literals _ null_mem
  | bool b =>
    cases b with
    | true  => exact fun _ => printable_literals _ true_mem
    | false => exact fun _ => printable_literals _ false_mem
  | @num q hq =>
    intro depth
    rw [dumpsAt, dumpNum]
    split
    · exact printable_ofInt q.num
    · rename_i hden
      exact (hq hden).1
  | nonFinite x => exact fun _ => printable_literals _ (nonFinite_mem x)
  | str s => exact fun _ => printable_dumpStr hascii s
  | @arr l _ ih =>
    intro depth
    rw [dumpsAt, printable_cons]
    refine ⟨by decide, ?_⟩
    cases l with
    | nil => exact printable_cons.2 ⟨by decide, printable_nil⟩
    | cons x xs =>
      rw [dumpItems, printable_append, printable_append]
      exact ⟨printable_line hline _, ih x List.mem_cons_self _,
        printable_dumpMoreItems hline depth xs (fun y hy => ih y (List.mem_cons_of_mem _ hy) _)⟩
  | @obj fs _ _ ih =>
    intro depth
    rw [dumpsAt, printable_cons]
    refine ⟨by decide, ?_⟩
    cases fs with
    | nil => exact printable_cons.2 ⟨by decide, printable_nil⟩
    | cons p fs =>
      obtain ⟨k, x⟩ := p
      rw [dumpFields, printable_append, printable_append, printable_cons, printable_append, printable_append]
      exact ⟨printable_line hline _, printable_dumpStr hascii k, by decide, printable_blank,
        ih (k, x) List.mem_cons_self _,
        printable_dumpMoreFields hascii hline depth fs (fun q hq => ih q (List.mem_cons_of_mem _ hq) _)⟩

/-- **In a style that escapes and does not indent, everything written is printable ASCII**: a written value takes one
line. -/
theorem printable_dumps {v : Json} (h : Writable style v) : Printable (dumps style v) :=
  printable_dumpsAt hascii hline h 0

end Printable
end Json
