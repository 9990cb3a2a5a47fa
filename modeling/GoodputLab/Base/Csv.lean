import GoodputLab.Base.Text
/-!
# Csv — a comma-separated writer and the reader of its files

The writer quotes a field only when it must; the reader is a state machine over the characters of a line and the end of
each line, and refuses a field longer than its limit.  Reading back what was written gives the rows when no field is
over the limit and raises when one is (`read_write`).
-/

namespace Csv

/-! ## The writer -/

def isNewline (c : Char) : Bool := c = '\r' || c = '\n'

/-- The characters that make the writer quote a field. -/
def isSpecial (c : Char) : Bool := c = ',' || c = '"' || isNewline c

def escape (t : Text) : Text := t.flatMap (fun c => if c = '"' then ['"', '"'] else [c])

def quote (t : Text) : Text := '"' :: (escape t ++ ['"'])

def writeField (t : Text) : Text := if t.any isSpecial then quote t else t

def joinFields : List Text → Text
  | []           => []
  | [f]          => writeField f
  | f :: g :: fs => writeField f ++ ',' :: joinFields (g :: fs)

/-- A row of one empty field is quoted: nothing would tell it from no row at all. -/
def writeRow (row : List Text) : Text :=
  (if row = [[]] then quote [] else joinFields row) ++ ['\r', '\n']

def write (rows : List (List Text)) : Text := rows.flatMap writeRow

/-! ## The reader -/

inductive Mode
  | startRecord | startField | inField | inQuotedField | quoteInQuotedField | eatCrnl
deriving DecidableEq

inductive Error
  | fieldLimit
  | newlineInUnquotedField
deriving DecidableEq

structure Reader where
  mode    : Mode
  field   : Text
  fields  : List Text
  records : List (List Text)
deriving DecidableEq

namespace Reader

def start : Reader := ⟨.startRecord, [], [], []⟩

def addChar (limit : Nat) (r : Reader) (mode : Mode) (c : Char) : Except Error Reader :=
  if limit ≤ r.field.length then .error .fieldLimit else .ok { r with mode := mode, field := r.field ++ [c] }

def saveField (r : Reader) (mode : Mode) : Reader :=
  { r with mode := mode, field := [], fields := r.fields ++ [r.field] }

def emit (r : Reader) : Reader := { r with mode := .startRecord, fields := [], records := r.records ++ [r.fields] }

def startOf (limit : Nat) (r : Reader) (c : Char) : Except Error Reader :=
  if isNewline c then .ok (r.saveField .eatCrnl)
  else if c = '"' then .ok { r with mode := .inQuotedField }
  else if c = ',' then .ok (r.saveField .startField)
  else r.addChar limit .inField c

def char (limit : Nat) (r : Reader) (c : Char) : Except Error Reader :=
  match r.mode with
  | .startRecord        => if isNewline c then .ok { r with mode := .eatCrnl } else r.startOf limit c
  | .startField         => r.startOf limit c
  | .inField            =>
    if isNewline c then .ok (r.saveField .eatCrnl)
    else if c = ',' then .ok (r.saveField .startField)
    else r.addChar limit .inField c
  | .inQuotedField      =>
    if c = '"' then .ok { r with mode := .quoteInQuotedField } else r.addChar limit .inQuotedField c
  | .quoteInQuotedField =>
    if c = '"' then r.addChar limit .inQuotedField c
    else if c = ',' then .ok (r.saveField .startField)
    else if isNewline c then .ok (r.saveField .eatCrnl)
    else r.addChar limit .inField c
  | .eatCrnl            => if isNewline c then .ok r else .error .newlineInUnquotedField

def endLine (r : Reader) : Reader :=
  match r.mode with
  | .startRecord | .eatCrnl                            => r.emit
  | .startField | .inField | .quoteInQuotedField       => (r.saveField .startRecord).emit
  | .inQuotedField                                     => r

/-- A line ends after a line feed, after a carriage return that none follows, and with the file. -/
def endsLine (c : Char) (t : Text) : Bool := c = '\n' || (c = '\r' && t.head? ≠ some '\n') || t.isEmpty

def run (limit : Nat) : Reader → Text → Except Error Reader
  | r, []     => .ok r
  | r, c :: t =>
    match r.char limit c with
    | .error e => .error e
    | .ok r'   => run limit (if endsLine c t then r'.endLine else r') t

/-- The end of the file closes a record that is still open. -/
def finish (r : Reader) : List (List Text) :=
  if r.field ≠ [] ∨ r.mode = .inQuotedField then (r.saveField .startRecord).emit.records else r.records

end Reader

open Reader

def read (limit : Nat) (t : Text) : Except Error (List (List Text)) := (run limit start t).map finish

/-! ## Reading back -/

section ReadBack

variable {limit : Nat} {field rest t : Text} {fields : List Text} {records : List (List Text)} {mode : Mode} {c : Char}

theorem notSpecial (h : isSpecial c = false) : isNewline c = false ∧ c ≠ ',' ∧ c ≠ '"' := by
  unfold isSpecial at h
  simp only [Bool.or_eq_false_iff, decide_eq_false_iff_not] at h
  tauto

theorem endsLine_false (hc : isNewline c = false) (ht : t ≠ []) : endsLine c t = false := by
  unfold isNewline at hc
  unfold endsLine
  simp only [Bool.or_eq_false_iff, decide_eq_false_iff_not] at hc
  simp [hc, ht]

theorem run_char {r r' : Reader} (hchar : r.char limit c = .ok r') (hline : endsLine c t = false) :
    run limit r (c :: t) = run limit r' t := by
  rw [run, hchar]
  simp only [hline, Bool.false_eq_true, if_false]

theorem run_error {r : Reader} {e : Error} (hchar : r.char limit c = .error e) :
    run limit r (c :: t) = .error e := by
  rw [run, hchar]

/-- A character is added to the field when there is room; a line that ends inside quotes changes nothing. -/
theorem run_addChar {r : Reader} {into : Mode}
    (hchar : r.char limit c = addChar limit ⟨mode, field, fields, records⟩ into c)
    (hline : endsLine c t = false ∨ into = .inQuotedField) :
    run limit r (c :: t) = if limit ≤ field.length then .error .fieldLimit
      else run limit ⟨into, field ++ [c], fields, records⟩ t := by
  unfold addChar at hchar
  by_cases hroom : limit ≤ field.length
  · rw [if_pos hroom] at hchar ⊢
    exact run_error hchar
  · rw [if_neg hroom] at hchar ⊢
    rw [run, hchar]
    rcases hline with hline | rfl
    · simp only [hline, Bool.false_eq_true, if_false]
    · simp only [endLine, ite_self]

theorem room_cons {α : Type} (x y : α) : (if limit ≤ field.length then x
      else if (field ++ [c]).length + t.length ≤ limit then y else x) =
    if field.length + (c :: t).length ≤ limit then y else x := by
  rw [List.length_append, List.length_singleton, List.length_cons]
  by_cases hroom : limit ≤ field.length
  · rw [if_pos hroom, if_neg (by omega)]
  · rw [if_neg hroom, Nat.add_assoc, Nat.add_comm 1]

/-- **The characters of an unquoted field are added to it, up to the limit.** -/
theorem run_inField (hrest : rest ≠ []) : ∀ (t field : Text), t.any isSpecial = false → field.length ≤ limit →
    run limit ⟨.inField, field, fields, records⟩ (t ++ rest) =
      if field.length + t.length ≤ limit then run limit ⟨.inField, field ++ t, fields, records⟩ rest
      else .error .fieldLimit
  | [], field, _, hfit => by
    rw [List.length_nil, if_pos (by omega), List.append_nil, List.nil_append]
  | c :: t, field, hspecial, hfit => by
    rw [List.any_cons, Bool.or_eq_false_iff] at hspecial
    obtain ⟨hline, hcomma, hquote⟩ := notSpecial hspecial.1
    have hchar : char limit ⟨.inField, field, fields, records⟩ c =
        addChar limit ⟨.inField, field, fields, records⟩ .inField c := by
      simp [char, hline, hcomma]
    rw [List.cons_append, run_addChar hchar (.inl (endsLine_false hline (by simp [hrest])))]
    by_cases hroom : limit ≤ field.length
    · rw [if_pos hroom, List.length_cons, if_neg (by omega)]
    · rw [← room_cons, if_neg hroom, if_neg hroom, run_inField hrest t (field ++ [c]) hspecial.2
        (by rw [List.length_append, List.length_singleton]; omega), List.append_assoc, List.singleton_append]

/-- **So are those of a quoted field, a quote for each pair of quotes.** -/
theorem run_inQuoted (fields : List Text) (records : List (List Text)) (rest : Text) : ∀ (t field : Text),
    field.length ≤ limit →
    run limit ⟨.inQuotedField, field, fields, records⟩ (escape t ++ rest) =
      if field.length + t.length ≤ limit then run limit ⟨.inQuotedField, field ++ t, fields, records⟩ rest
      else .error .fieldLimit
  | [], field, hfit => by
    rw [List.length_nil, if_pos (by omega), List.append_nil]
    rfl
  | c :: t, field, hfit => by
    have hstep : run limit ⟨.inQuotedField, field, fields, records⟩ (escape (c :: t) ++ rest) =
        if limit ≤ field.length then .error .fieldLimit
        else run limit ⟨.inQuotedField, field ++ [c], fields, records⟩ (escape t ++ rest) := by
      by_cases hc : c = '"'
      · subst hc
        have hopen : char limit ⟨.inQuotedField, field, fields, records⟩ '"' =
            .ok ⟨.quoteInQuotedField, field, fields, records⟩ := rfl
        have hpair : char limit ⟨.quoteInQuotedField, field, fields, records⟩ '"' =
            addChar limit ⟨.quoteInQuotedField, field, fields, records⟩ .inQuotedField '"' := rfl
        rw [show escape ('"' :: t) ++ rest = '"' :: '"' :: (escape t ++ rest) from rfl, run_char hopen rfl,
          run_addChar hpair (.inr rfl)]
      · have hchar : char limit ⟨.inQuotedField, field, fields, records⟩ c =
            addChar limit ⟨.inQuotedField, field, fields, records⟩ .inQuotedField c := by
          simp [char, hc]
        rw [show escape (c :: t) ++ rest = c :: (escape t ++ rest) by simp [escape, hc],
          run_addChar hchar (.inr rfl)]
    rw [hstep]
    by_cases hroom : limit ≤ field.length
    · rw [if_pos hroom, List.length_cons, if_neg (by omega)]
    · rw [← room_cons, if_neg hroom, if_neg hroom, run_inQuoted fields records rest t (field ++ [c])
        (by rw [List.length_append, List.length_singleton]; omega), List.append_assoc, List.singleton_append]

/-- The modes in which a field can end. -/
def Ends (mode : Mode) : Prop := mode = .startField ∨ mode = .inField ∨ mode = .quoteInQuotedField

theorem run_comma (hmode : Ends mode ∨ mode = .startRecord) (hrest : rest ≠ []) :
    run limit ⟨mode, field, fields, records⟩ (',' :: rest) =
      run limit ⟨.startField, [], fields ++ [field], records⟩ rest := by
  refine run_char ?_ (endsLine_false rfl hrest)
  rcases hmode with (rfl | rfl | rfl) | rfl <;> rfl

theorem run_newline (hmode : Ends mode) : run limit ⟨mode, field, fields, records⟩ ('\r' :: '\n' :: rest) =
    run limit ⟨.startRecord, [], [], records ++ [fields ++ [field]]⟩ rest := by
  have hreturn : char limit ⟨mode, field, fields, records⟩ '\r' =
      .ok ⟨.eatCrnl, [], fields ++ [field], records⟩ := by
    rcases hmode with rfl | rfl | rfl <;> rfl
  rw [run_char hreturn rfl]
  rfl

/-- **A written field is read as itself, up to the limit, in a mode in which it can end.** -/
theorem run_writeField (limit : Nat) (fields : List Text) (records : List (List Text))
    (hmode : mode = .startField ∨ mode = .startRecord) (t : Text) :
    ∃ into, (Ends into ∨ into = .startRecord ∧ mode = .startRecord ∧ t = []) ∧ ∀ rest ≠ [],
      run limit ⟨mode, [], fields, records⟩ (writeField t ++ rest) =
        if t.length ≤ limit then run limit ⟨into, t, fields, records⟩ rest else .error .fieldLimit := by
  unfold writeField
  by_cases hspecial : t.any isSpecial = true
  · refine ⟨.quoteInQuotedField, .inl (.inr (.inr rfl)), fun rest hrest => ?_⟩
    have hopen : char limit ⟨mode, [], fields, records⟩ '"' = .ok ⟨.inQuotedField, [], fields, records⟩ := by
      rcases hmode with rfl | rfl <;> rfl
    have hclose : char limit ⟨.inQuotedField, t, fields, records⟩ '"' =
        .ok ⟨.quoteInQuotedField, t, fields, records⟩ := rfl
    have hquoted := run_inQuoted fields records ('"' :: rest) t [] (Nat.zero_le limit)
    rw [if_pos hspecial, quote, List.cons_append, List.append_assoc, List.singleton_append,
      run_char hopen (endsLine_false rfl (by simp)), hquoted, List.length_nil, Nat.zero_add, List.nil_append,
      run_char hclose (endsLine_false rfl hrest)]
  · rw [if_neg hspecial]
    rw [Bool.not_eq_true] at hspecial
    cases t with
    | nil =>
      refine ⟨mode, ?_, fun rest _ => ?_⟩
      · rcases hmode with rfl | rfl
        · exact .inl (.inl rfl)
        · exact .inr ⟨rfl, rfl, rfl⟩
      · rw [List.length_nil, if_pos (Nat.zero_le _), List.nil_append]
    | cons c t =>
      refine ⟨.inField, .inl (.inr (.inl rfl)), fun rest hrest => ?_⟩
      rw [List.any_cons, Bool.or_eq_false_iff] at hspecial
      obtain ⟨hline, hcomma, hquote⟩ := notSpecial hspecial.1
      have hchar : char limit ⟨mode, [], fields, records⟩ c =
          addChar limit ⟨mode, [], fields, records⟩ .inField c := by
        rcases hmode with rfl | rfl <;> simp [char, startOf, hline, hcomma, hquote, addChar]
      rw [List.cons_append, run_addChar hchar (.inl (endsLine_false hline (by simp [hrest])))]
      by_cases hroom : limit ≤ ([] : Text).length
      · rw [if_pos hroom, List.length_cons, if_neg (by rw [List.length_nil] at hroom; omega)]
      · rw [if_neg hroom, run_inField hrest t _ hspecial.2 (by simp at hroom ⊢; omega), List.nil_append,
          List.singleton_append, List.length_singleton, List.length_cons, Nat.add_comm 1]

/-- **So are written fields, in order.** -/
theorem run_joinFields (rest : Text) : ∀ (fs fields : List Text) (f : Text) (mode : Mode),
    (mode = .startField ∨ mode = .startRecord ∧ f :: fs ≠ [[]]) →
    run limit ⟨mode, [], fields, records⟩ (joinFields (f :: fs) ++ '\r' :: '\n' :: rest) =
      if ∀ g ∈ f :: fs, g.length ≤ limit then
        run limit ⟨.startRecord, [], [], records ++ [fields ++ f :: fs]⟩ rest
      else .error .fieldLimit
  | [], fields, f, mode, hmode => by
    obtain ⟨into, hinto, hrun⟩ := run_writeField limit fields records (hmode.imp_right And.left) f
    have hends : Ends into := by
      rcases hinto with hends | ⟨-, hstart, rfl⟩
      · exact hends
      · rcases hmode with hmode | ⟨-, hne⟩
        · rw [hmode] at hstart
          cases hstart
        · exact absurd rfl hne
    rw [joinFields, hrun _ (List.cons_ne_nil _ _), run_newline hends]
    simp only [List.forall_mem_singleton]
  | g :: fs, fields, f, mode, hmode => by
    obtain ⟨into, hinto, hrun⟩ := run_writeField limit fields records (hmode.imp_right And.left) f
    rw [joinFields, List.append_assoc, List.cons_append, hrun _ (List.cons_ne_nil _ _)]
    by_cases hf : f.length ≤ limit
    · rw [if_pos hf, run_comma (hinto.imp_right And.left) (by simp), run_joinFields rest fs _ g _ (.inl rfl),
        List.append_assoc, List.singleton_append]
      simp only [List.forall_mem_cons (a := f), hf, true_and]
    · rw [if_neg hf, if_neg (fun hall => hf (hall f List.mem_cons_self))]

theorem run_writeRow (rest : Text) (row : List Text) :
    run limit ⟨.startRecord, [], [], records⟩ (writeRow row ++ rest) =
      if ∀ f ∈ row, f.length ≤ limit then run limit ⟨.startRecord, [], [], records ++ [row]⟩ rest
      else .error .fieldLimit := by
  unfold writeRow
  by_cases hempty : row = [[]]
  · subst hempty
    rw [if_pos rfl, if_pos (by simp)]
    rfl
  · rw [if_neg hempty, List.append_assoc]
    cases row with
    | nil =>
      rw [if_pos (fun f hf => absurd hf List.not_mem_nil)]
      rfl
    | cons f fs => exact run_joinFields rest fs [] f .startRecord (.inr ⟨rfl, hempty⟩)

theorem run_write : ∀ (rows records : List (List Text)),
    run limit ⟨.startRecord, [], [], records⟩ (write rows) =
      if ∀ row ∈ rows, ∀ f ∈ row, f.length ≤ limit then .ok ⟨.startRecord, [], [], records ++ rows⟩
      else .error .fieldLimit
  | [], records => by
    rw [if_pos (fun row hrow => absurd hrow List.not_mem_nil), List.append_nil]
    rfl
  | row :: rows, records => by
    rw [write, List.flatMap_cons, run_writeRow]
    by_cases hrow : ∀ f ∈ row, f.length ≤ limit
    · have ih := run_write rows (records ++ [row])
      rw [write] at ih
      rw [if_pos hrow, ih, List.append_assoc, List.singleton_append]
      simp only [List.forall_mem_cons (a := row), eq_true hrow, true_and]
    · rw [if_neg hrow, if_neg (fun hall => hrow (hall row List.mem_cons_self))]

/-- **What was written is read back when no field is over the limit, and not read otherwise.** -/
theorem read_write (limit : Nat) (rows : List (List Text)) :
    read limit (write rows) =
      if ∀ row ∈ rows, ∀ f ∈ row, f.length ≤ limit then .ok rows else .error .fieldLimit := by
  have hrun : run limit ⟨.startRecord, [], [], []⟩ (write rows) = _ := run_write rows []
  rw [List.nil_append] at hrun
  rw [read, start, hrun]
  split
  · rfl
  · rfl

end ReadBack

example : read 9 (write [["a,b".toList, [], "say \"no\"".toList], [[]], []]) =
    .ok [["a,b".toList, [], "say \"no\"".toList], [[]], []] := by decide +kernel

end Csv
