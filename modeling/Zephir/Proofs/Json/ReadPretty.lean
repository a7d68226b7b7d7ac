import Mathlib.Data.List.TakeDrop
import Zephir.Json.Draft
import Zephir.Json.Pretty

/-!
The reader undoes the printer: the text of a value whose numbers are integers of at most 64 bits,
nested at most 127 deep, is read back as that value.

The reader works in two steps, so the proof does as well. `Json.draft` is the draft of a printed
value. The text of a value is read as its draft, whatever follows the text; and the draft has the
depth and the value that it was made from.
-/

namespace Zephir

def StringPiece.ofChar (c : Char) : StringPiece :=
  if c.toNat < 0x20 ∧ c ∉ ['\x08', '\x0c', '\n', '\r', '\t'] then .unit c.toNat else .char c

namespace Json

def pieces (text : String) : List StringPiece :=
  text.toList.map StringPiece.ofChar

def written (value : Int) : WrittenNumber :=
  { negative := decide (value < 0), whole := Nat.toDigits 10 value.natAbs, fraction := [],
    exponent := none }

mutual

/-- Every number is an integer that a 64-bit word holds, with or without a sign. -/
def Integral : Json → Prop
  | .number (.int value) => -9223372036854775808 ≤ value ∧ value ≤ 18446744073709551615
  | .number (.real _) => False
  | .array items => IntegralItems items
  | .object fields => IntegralFields fields
  | _ => True

def IntegralItems : List Json → Prop
  | [] => True
  | item :: rest => item.Integral ∧ IntegralItems rest

def IntegralFields : List (String × Json) → Prop
  | [] => True
  | (_, value) :: rest => value.Integral ∧ IntegralFields rest

end

mutual

def draft : Json → JsonDraft
  | .null => .null
  | .bool value => .bool value
  | .number (.int value) => .number (written value)
  | .number (.real _) => .null
  | .string value => .string (pieces value)
  | .array items => .array (draftItems items)
  | .object fields => .object (draftFields fields)

def draftItems : List Json → List JsonDraft
  | [] => []
  | item :: rest => item.draft :: draftItems rest

def draftFields : List (String × Json) → List (List StringPiece × JsonDraft)
  | [] => []
  | (name, value) :: rest => (pieces name, value.draft) :: draftFields rest

end

end Json

open Json JsonDraft

/-! ### Strings -/

theorem hexUnit_hexDigit : ∀ code < 0x20,
    hexUnit? '0' '0' (hexDigit (code / 16)) (hexDigit (code % 16)) = some code := by
  decide

theorem readString_plain {c : Char} (text : List Char) (quote : c ≠ '"') (slash : c ≠ '\\')
    (control : ¬ c.toNat < 0x20) :
    readString (c :: text) = (readString text).map fun found => (.char c :: found.1, found.2) := by
  rw [readString]
  · simp only [slash, control, or_self, if_false]
    cases readString text <;> rfl
  all_goals simp_all

theorem readString_letter {mark c : Char} (text : List Char) (known : escaped? mark = some c) :
    readString ('\\' :: mark :: text) =
      (readString text).map fun found => (.char c :: found.1, found.2) := by
  have hex : mark ≠ 'u' := by
    rintro rfl
    simp [escaped?] at known
  rw [readString]
  · simp only [known]
    cases readString text <;> rfl
  · simp_all

theorem readString_unit {a b c d : Char} {code : Nat} (text : List Char)
    (known : hexUnit? a b c d = some code) :
    readString ('\\' :: 'u' :: a :: b :: c :: d :: text) =
      (readString text).map fun found => (.unit code :: found.1, found.2) := by
  rw [readString]
  simp only [known]
  cases readString text <;> rfl

theorem readString_escapeChar (c : Char) (text : List Char) :
    readString (escapeChar c ++ text) =
      (readString text).map fun found => (.ofChar c :: found.1, found.2) := by
  by_cases short : c ∈ ['"', '\\', '\x08', '\x0c', '\n', '\r', '\t']
  · -- These seven have a letter of their own.
    simp only [List.mem_cons, List.not_mem_nil, or_false] at short
    rcases short with rfl | rfl | rfl | rfl | rfl | rfl | rfl <;>
      exact readString_letter text rfl
  · simp only [List.mem_cons, List.not_mem_nil, or_false, not_or] at short
    obtain ⟨quote, slash, back, feed, line, carriage, tab⟩ := short
    by_cases control : c.toNat < 0x20
    · have piece : StringPiece.ofChar c = .unit c.toNat := by
        simp [StringPiece.ofChar, control, back, feed, line, carriage, tab]
      rw [piece, ← readString_unit text (hexUnit_hexDigit _ control)]
      simp [escapeChar, control, quote, slash, back, feed, line, carriage, tab]
    · have piece : StringPiece.ofChar c = .char c := by
        simp [StringPiece.ofChar, control]
      rw [piece, ← readString_plain text quote slash control]
      simp [escapeChar, control, quote, slash, back, feed, line, carriage, tab]

theorem readString_quoted (text : String) (rest : List Char) :
    readString (text.toList.flatMap escapeChar ++ '"' :: rest) = some (pieces text, rest) := by
  unfold pieces
  induction text.toList with
  | nil => simp [readString]
  | cons c chars ih =>
      rw [List.flatMap_cons, List.append_assoc, readString_escapeChar, ih]
      rfl

theorem text_unit {code : Nat} (rest : List StringPiece) (plain : code < 0xD800) :
    StringPiece.text? (.unit code :: rest) =
      (StringPiece.text? rest).map (Char.ofNat code :: ·) := by
  have low : ¬ 0xD800 ≤ code := by omega
  have high : ¬ 0xDC00 ≤ code := by omega
  cases rest with
  | nil => simp [StringPiece.text?, low]
  | cons piece more => cases piece <;> simp [StringPiece.text?, low, high]

theorem text_pieces (text : String) : text? (pieces text) = some text := by
  have spelled : ∀ chars : List Char,
      StringPiece.text? (chars.map StringPiece.ofChar) = some chars := by
    intro chars
    induction chars with
    | nil => rfl
    | cons c rest ih =>
        rw [List.map_cons, StringPiece.ofChar]
        split
        · rename_i control
          rw [text_unit _ (by omega), ih]
          simp
        · rw [StringPiece.text?, ih]
          rfl
  simp [text?, pieces, spelled]

/-! ### Numbers -/

theorem gather_append {start sum : Nat} {digits more : List Char}
    (all : WrittenNumber.gather start digits = (sum, [])) :
    WrittenNumber.gather start (digits ++ more) = WrittenNumber.gather sum more := by
  induction digits generalizing start with
  | nil =>
      simp only [WrittenNumber.gather, Prod.mk.injEq, and_true] at all
      rw [all, List.nil_append]
  | cons c rest ih =>
      rw [WrittenNumber.gather] at all
      rw [List.cons_append, WrittenNumber.gather]
      split at all
      · rename_i room
        rw [if_pos room]
        exact ih all
      · simp at all

theorem gather_toDigits (n : Nat) (fits : n ≤ WrittenNumber.significandLimit) :
    WrittenNumber.gather 0 (Nat.toDigits 10 n) = (n, []) := by
  induction n using Nat.strongRecOn with
  | ind n ih =>
      have digit_digitChar : ∀ d < 10, WrittenNumber.digit (Nat.digitChar d) = d := by
        intro d small
        have code : (Nat.digitChar d).toNat = 48 + d := Nat.toNat_digitChar_of_lt_ten small
        simp [WrittenNumber.digit, code]
      by_cases single : n < 10
      · rw [Nat.toDigits_of_lt_base single]
        simp [WrittenNumber.gather, digit_digitChar n single, fits]
      · have shorter := ih (n / 10) (by omega) (by omega)
        rw [Nat.toDigits_of_base_le (by omega) (by omega), gather_append shorter]
        have whole : n / 10 * 10 + n % 10 = n := by omega
        simp [WrittenNumber.gather, digit_digitChar (n % 10) (by omega), whole, fits]

theorem head_toDigits (n : Nat) (positive : 0 < n) : (Nat.toDigits 10 n).head? ≠ some '0' := by
  induction n using Nat.strongRecOn with
  | ind n ih =>
      by_cases single : n < 10
      · simp only [Nat.toDigits_of_lt_base single, List.head?_cons, ne_eq, Option.some.injEq,
          Nat.digitChar_eq_zero]
        omega
      · have shorter := ih (n / 10) (by omega) (by omega)
        rw [Nat.toDigits_of_base_le (by omega) (by omega), List.head?_append]
        cases digits : Nat.toDigits 10 (n / 10) with
        | nil => exact absurd digits Nat.toDigits_ne_nil
        | cons c more => simpa [digits] using shorter

/-- The text cannot go on with a number that stands in front of it. -/
def EndsNumber : List Char → Prop
  | [] => True
  | c :: _ => c.isDigit = false ∧ c ≠ '.' ∧ c ≠ 'e' ∧ c ≠ 'E'

theorem readDigits_toDigits (n : Nat) {rest : List Char} (ends : EndsNumber rest) :
    readDigits (Nat.toDigits 10 n ++ rest) = (Nat.toDigits 10 n, rest) := by
  have digits : ∀ c ∈ Nat.toDigits 10 n, c.isDigit = true := by
    intro c present
    exact Nat.isDigit_of_mem_toDigits (by omega) (by omega) present
  have stops : rest.takeWhile Char.isDigit = [] ∧ rest.dropWhile Char.isDigit = rest := by
    cases rest with
    | nil => simp
    | cons c more => simp [ends.1]
  rw [readDigits, List.span_eq_takeWhile_dropWhile, List.takeWhile_append_of_pos digits,
    List.dropWhile_append_of_pos digits, stops.1, stops.2, List.append_nil]

theorem readUnsigned_toDigits (negative : Bool) (n : Nat) {rest : List Char}
    (ends : EndsNumber rest) :
    readUnsigned negative (Nat.toDigits 10 n ++ rest) =
      some (⟨negative, Nat.toDigits 10 n, [], none⟩, rest) := by
  have digits : readDigits? (Nat.toDigits 10 n ++ rest) = some (Nat.toDigits 10 n, rest) := by
    rw [readDigits?, readDigits_toDigits n ends]
    cases found : Nat.toDigits 10 n with
    | nil => exact absurd found Nat.toDigits_ne_nil
    | cons c more => rfl
  have whole : readWhole (Nat.toDigits 10 n ++ rest) = some (Nat.toDigits 10 n, rest) := by
    simp only [readWhole, digits, Option.bind_eq_bind, Option.bind_some]
    split
    · rename_i second more found
      -- Zero is written with one digit, and no other number starts with zero.
      obtain rfl | positive := Nat.eq_zero_or_pos n
      · simp at found
      · exact absurd (by rw [found]; rfl) (head_toDigits n positive)
    · rfl
  have fraction : readFraction rest = some ([], rest) := by
    unfold readFraction
    split
    · exact absurd rfl ends.2.1
    · rfl
  have exponent : readExponent rest = some (none, rest) := by
    unfold readExponent
    split
    · exact absurd rfl ends.2.2.1
    · exact absurd rfl ends.2.2.2
    · rfl
  simp [readUnsigned, whole, fraction, exponent]

theorem readNumber_numberText (value : Int) {rest : List Char} (ends : EndsNumber rest) :
    readNumber (numberText (.int value) ++ rest) = some (written value, rest) := by
  rw [numberText]
  by_cases negative : value < 0
  · rw [if_pos negative, List.cons_append, readNumber, readUnsigned_toDigits _ _ ends]
    simp [written, negative]
  · rw [if_neg negative]
    unfold readNumber
    split
    · rename_i text found
      -- A digit in front is no sign.
      have first : '-' ∈ Nat.toDigits 10 value.natAbs := by
        cases digits : Nat.toDigits 10 value.natAbs with
        | nil => exact absurd digits Nat.toDigits_ne_nil
        | cons c more => simp_all
      exact absurd (Nat.isDigit_of_mem_toDigits (by omega) (by omega) first) (by decide)
    · rw [readUnsigned_toDigits _ _ ends]
      simp [written, negative]

theorem value_written {value : Int} (low : -9223372036854775808 ≤ value)
    (high : value ≤ 18446744073709551615) : (written value).value? = some (.int value) := by
  have digits := gather_toDigits value.natAbs (by rw [WrittenNumber.significandLimit]; omega)
  have magnitude : WrittenNumber.integer? (decide (value < 0)) value.natAbs = some value := by
    unfold WrittenNumber.integer?
    by_cases negative : value < 0
    · rw [if_pos (by simpa using negative), if_pos (by omega)]
      simp only [Option.some.injEq]
      omega
    · rw [if_neg (by simpa using negative)]
      simp only [Option.some.injEq]
      omega
  simp [WrittenNumber.value?, written, digits, magnitude]

/-! ### Values -/

theorem skipSpace_newline (level : Nat) (text : List Char) :
    skipSpace (newline level ++ text) = skipSpace text := by
  have blanks : ∀ c ∈ newline level, isSpace c = true := by
    intro c present
    rw [newline, List.mem_cons, List.mem_replicate] at present
    obtain rfl | ⟨_, rfl⟩ := present <;> rfl
  exact List.dropWhile_append_of_pos blanks

theorem readValue_newline (fuel level : Nat) (text : List Char) :
    readValue fuel (newline level ++ text) = readValue fuel text := by
  cases fuel with
  | zero => rfl
  | succ fuel => rw [readValue, readValue, skipSpace_newline]

theorem readItems_newline (fuel level : Nat) (text : List Char) :
    readItems fuel (newline level ++ text) = readItems fuel text := by
  cases fuel with
  | zero => rfl
  | succ fuel => rw [readItems, readItems, readValue_newline]

theorem readFields_newline (fuel level : Nat) (text : List Char) :
    readFields fuel (newline level ++ text) = readFields fuel text := by
  cases fuel with
  | zero => rfl
  | succ fuel => rw [readFields, readFields, readName, readName, skipSpace_newline]

theorem readName_quoted (name : String) (text : List Char) :
    readName (quoted name ++ ':' :: text) = some (pieces name, text) := by
  have opened : quoted name ++ ':' :: text =
      '"' :: (name.toList.flatMap escapeChar ++ '"' :: ':' :: text) := by
    simp [quoted]
  have token : skipSpace ('"' :: (name.toList.flatMap escapeChar ++ '"' :: ':' :: text)) =
      '"' :: (name.toList.flatMap escapeChar ++ '"' :: ':' :: text) := rfl
  have colon : skipSpace (':' :: text) = ':' :: text := rfl
  rw [opened, readName, token]
  simp [readString_quoted, colon]

theorem numberText_head (value : Int) :
    ∃ c text, numberText (.int value) = c :: text ∧ (c = '-' ∨ c.isDigit = true) := by
  rw [numberText]
  split
  · exact ⟨'-', _, rfl, .inl rfl⟩
  · cases digits : Nat.toDigits 10 value.natAbs with
    | nil => exact absurd digits Nat.toDigits_ne_nil
    | cons c more =>
        have first : c ∈ Nat.toDigits 10 value.natAbs := by simp [digits]
        exact ⟨c, more, rfl, .inr (Nat.isDigit_of_mem_toDigits (by omega) (by omega) first)⟩

theorem isSpace_numeral {c : Char} (numeral : c = '-' ∨ c.isDigit = true) : isSpace c = false := by
  obtain rfl | digit := numeral
  · rfl
  · rw [Char.isDigit_iff_toNat] at digit
    by_contra space
    simp only [isSpace, Bool.not_eq_false, Bool.or_eq_true, beq_iff_eq] at space
    obtain ((rfl | rfl) | rfl) | rfl := space <;> revert digit <;> decide

theorem prettyAt_head (level : Nat) (value : Json) (integral : value.Integral) :
    ∃ c text, prettyAt level value = c :: text ∧ isSpace c = false ∧ c ≠ ']' := by
  match value, integral with
  | .null, _ => exact ⟨_, _, rfl, rfl, by decide⟩
  | .bool true, _ => exact ⟨_, _, rfl, rfl, by decide⟩
  | .bool false, _ => exact ⟨_, _, rfl, rfl, by decide⟩
  | .number (.int value), _ =>
      obtain ⟨c, text, spelled, numeral⟩ := numberText_head value
      refine ⟨c, text, by rw [prettyAt, spelled], isSpace_numeral numeral, ?_⟩
      rintro rfl
      revert numeral
      decide
  | .string value, _ => exact ⟨'"', _, rfl, rfl, by decide⟩
  | .array [], _ => exact ⟨_, _, rfl, rfl, by decide⟩
  | .array (_ :: _), _ => exact ⟨_, _, rfl, rfl, by decide⟩
  | .object [], _ => exact ⟨_, _, rfl, rfl, by decide⟩
  | .object ((_, _) :: _), _ => exact ⟨_, _, rfl, rfl, by decide⟩

theorem readValue_number (fuel : Nat) (value : Int) {rest : List Char} (ends : EndsNumber rest) :
    readValue (fuel + 1) (numberText (.int value) ++ rest) =
      some (.number (written value), rest) := by
  obtain ⟨c, text, spelled, numeral⟩ := numberText_head value
  have token : skipSpace (numberText (.int value) ++ rest) = numberText (.int value) ++ rest := by
    rw [spelled, List.cons_append, skipSpace, List.dropWhile_cons_of_neg]
    simp [isSpace_numeral numeral]
  have opens : ∀ mark more, mark ≠ '-' → mark.isDigit = false →
      numberText (.int value) ++ rest ≠ mark :: more := by
    intro mark more sign digit same
    rw [spelled, List.cons_append, List.cons.injEq] at same
    rw [same.1] at numeral
    obtain rfl | isDigit := numeral
    · exact sign rfl
    · rw [isDigit] at digit
      contradiction
  rw [readValue, token]
  split
  case h_7 => rw [readNumber_numberText value ends]; rfl
  all_goals
    rename_i same
    exact absurd same (opens _ _ (by decide) (by decide))

/-- The text of the value is read as its draft, whatever stands behind it. -/
def Readable (level : Nat) (value : Json) : Prop :=
  ∀ fuel rest, EndsNumber rest → (prettyAt level value).length ≤ fuel →
    readValue fuel (prettyAt level value ++ rest) = some (value.draft, rest)

theorem skipSpace_close (outer : Nat) (mark : Char) (rest : List Char)
    (token : isSpace mark = false) :
    skipSpace (newline outer ++ mark :: rest) = mark :: rest := by
  rw [skipSpace_newline, skipSpace, List.dropWhile_cons_of_neg (by simp [token])]

theorem endsNumber_comma (text : List Char) : EndsNumber (',' :: text) :=
  ⟨rfl, by decide, by decide, by decide⟩

theorem endsNumber_newline (level : Nat) (text : List Char) : EndsNumber (newline level ++ text) :=
  ⟨rfl, by decide, by decide, by decide⟩

theorem readItems_last {level fuel outer : Nat} {item : Json} {rest : List Char}
    (readable : Readable level item) (enough : (prettyAt level item).length ≤ fuel) :
    readItems (fuel + 1) (prettyAt level item ++ (newline outer ++ ']' :: rest)) =
      some ([item.draft], rest) := by
  have first := readable fuel _ (endsNumber_newline outer (']' :: rest)) enough
  have close := skipSpace_close outer ']' rest rfl
  rw [readItems, first]
  simp [close]

theorem readItems_comma {level fuel : Nat} {item : Json} {items : List JsonDraft}
    {text rest : List Char} (readable : Readable level item)
    (enough : (prettyAt level item).length ≤ fuel)
    (more : readItems fuel text = some (items, rest)) :
    readItems (fuel + 1) (prettyAt level item ++ ',' :: text) =
      some (item.draft :: items, rest) := by
  have first := readable fuel _ (endsNumber_comma text) enough
  have comma : skipSpace (',' :: text) = ',' :: text := rfl
  rw [readItems, first]
  simp [comma, more]

theorem readName_field (name : String) (text : List Char) :
    readName (quoted name ++ ([':', ' '] ++ text)) = some (pieces name, ' ' :: text) :=
  readName_quoted name (' ' :: text)

theorem readValue_blank (fuel : Nat) (text : List Char) :
    readValue fuel (' ' :: text) = readValue fuel text := by
  cases fuel with
  | zero => rfl
  | succ fuel =>
      have blank : skipSpace (' ' :: text) = skipSpace text := rfl
      rw [readValue, readValue, blank]

theorem readFields_last {level fuel outer : Nat} {name : String} {value : Json} {rest : List Char}
    (readable : Readable level value) (enough : (prettyAt level value).length ≤ fuel) :
    readFields (fuel + 1) (quoted name ++ ([':', ' '] ++
        (prettyAt level value ++ (newline outer ++ '}' :: rest)))) =
      some ([(pieces name, value.draft)], rest) := by
  have first := readable fuel _ (endsNumber_newline outer ('}' :: rest)) enough
  have close := skipSpace_close outer '}' rest rfl
  rw [readFields, readName_field]
  simp [readValue_blank, first, close]

theorem readFields_comma {level fuel : Nat} {name : String} {value : Json}
    {fields : List (List StringPiece × JsonDraft)} {text rest : List Char}
    (readable : Readable level value) (enough : (prettyAt level value).length ≤ fuel)
    (more : readFields fuel text = some (fields, rest)) :
    readFields (fuel + 1) (quoted name ++ ([':', ' '] ++ (prettyAt level value ++ ',' :: text))) =
      some ((pieces name, value.draft) :: fields, rest) := by
  have first := readable fuel _ (endsNumber_comma text) enough
  have comma : skipSpace (',' :: text) = ',' :: text := rfl
  rw [readFields, readName_field]
  simp [readValue_blank, first, comma, more]

theorem readable_of_step {level : Nat} {value : Json} (integral : value.Integral)
    (step : ∀ fuel rest, EndsNumber rest → (prettyAt level value).length ≤ fuel + 1 →
      readValue (fuel + 1) (prettyAt level value ++ rest) = some (value.draft, rest)) :
    Readable level value := by
  intro fuel rest ends enough
  cases fuel with
  | zero =>
      obtain ⟨c, text, spelled, -⟩ := prettyAt_head level value integral
      simp [spelled] at enough
  | succ fuel => exact step fuel rest ends enough

theorem readValue_string (fuel : Nat) (value : String) (rest : List Char) :
    readValue (fuel + 1) (quoted value ++ rest) = some (.string (pieces value), rest) := by
  have opened : skipSpace (quoted value ++ rest) =
      '"' :: (value.toList.flatMap escapeChar ++ '"' :: rest) := by
    simp [quoted, skipSpace, isSpace]
  rw [readValue, opened]
  simp [readString_quoted]

theorem readValue_array {level : Nat} {item : Json} (fuel : Nat) (text : List Char)
    (integral : item.Integral) :
    readValue (fuel + 1) ('[' :: (newline level ++ (prettyAt level item ++ text))) =
      (readItems fuel (prettyAt level item ++ text)).map fun found =>
        (.array found.1, found.2) := by
  obtain ⟨c, more, spelled, space, close⟩ := prettyAt_head level item integral
  have opened : skipSpace ('[' :: (newline level ++ (prettyAt level item ++ text))) =
      '[' :: (newline level ++ (prettyAt level item ++ text)) := rfl
  have token : skipSpace (newline level ++ (prettyAt level item ++ text)) =
      prettyAt level item ++ text := by
    rw [spelled]
    exact skipSpace_close level c _ space
  rw [readValue, opened]
  simp only [token]
  split
  · rename_i same
    rw [spelled, List.cons_append, List.cons.injEq] at same
    exact absurd same.1 close
  · cases readItems fuel (prettyAt level item ++ text) <;> rfl

theorem readValue_object {level : Nat} {name : String} (fuel : Nat) (text : List Char) :
    readValue (fuel + 1) ('{' :: (newline level ++ (quoted name ++ text))) =
      (readFields fuel (quoted name ++ text)).map fun found => (.object found.1, found.2) := by
  have opened : skipSpace ('{' :: (newline level ++ (quoted name ++ text))) =
      '{' :: (newline level ++ (quoted name ++ text)) := rfl
  have token : skipSpace (newline level ++ (quoted name ++ text)) = quoted name ++ text :=
    skipSpace_close level '"' _ rfl
  rw [readValue, opened]
  simp only [token]
  split
  · rename_i same
    simp [quoted] at same
  · cases readFields fuel (quoted name ++ text) <;> rfl

mutual

theorem readable_pretty (level : Nat) : (value : Json) → value.Integral → Readable level value
  | .null, integral => readable_of_step integral fun _ _ _ _ => rfl
  | .bool true, integral => readable_of_step integral fun _ _ _ _ => rfl
  | .bool false, integral => readable_of_step integral fun _ _ _ _ => rfl
  | .number (.int value), integral => by
      refine readable_of_step integral ?_
      intro fuel rest ends _
      exact readValue_number fuel value ends
  | .number (.real _), integral => integral.elim
  | .string value, integral => by
      refine readable_of_step integral ?_
      intro fuel rest _ _
      exact readValue_string fuel value rest
  | .array [], integral => readable_of_step integral fun _ _ _ _ => rfl
  | .array (item :: items), integral => by
      refine readable_of_step integral ?_
      intro fuel rest _ enough
      simp only [prettyAt, List.cons_append, List.append_assoc, List.length_cons,
        List.length_append, List.nil_append] at enough ⊢
      have first := readable_pretty (level + 1) item integral.1
      have inner := readItems_pretty (level + 1) level rest items integral.2 item fuel first
        (by omega)
      rw [readValue_array fuel _ integral.1, inner]
      rfl
  | .object [], integral => readable_of_step integral fun _ _ _ _ => rfl
  | .object ((name, value) :: fields), integral => by
      refine readable_of_step integral ?_
      intro fuel rest _ enough
      simp only [prettyAt, List.cons_append, List.append_assoc, List.length_cons,
        List.length_append, List.nil_append] at enough ⊢
      have first := readable_pretty (level + 1) value integral.1
      have inner := readFields_pretty (level + 1) level rest fields integral.2 name value fuel
        first (by omega)
      rw [readValue_object]
      exact congrArg _ inner

theorem readItems_pretty (level outer : Nat) (rest : List Char) : (items : List Json) →
    IntegralItems items → ∀ item fuel, Readable level item →
    (prettyAt level item).length + (prettyItems level items).length < fuel →
    readItems fuel (prettyAt level item ++
        (prettyItems level items ++ (newline outer ++ ']' :: rest))) =
      some (item.draft :: draftItems items, rest)
  | [], _ => by
      intro item fuel readable enough
      obtain ⟨fuel, rfl⟩ := Nat.exists_eq_add_of_lt enough
      exact readItems_last readable (by omega)
  | next :: more, integral => by
      intro item fuel readable enough
      obtain ⟨fuel, rfl⟩ := Nat.exists_eq_add_of_lt enough
      have second := readable_pretty level next integral.1
      simp only [prettyItems, List.cons_append, List.append_assoc, List.length_cons,
        List.length_append]
      refine readItems_comma readable (by omega) ?_
      rw [readItems_newline]
      exact readItems_pretty level outer rest more integral.2 next _ second (by omega)

theorem readFields_pretty (level outer : Nat) (rest : List Char) :
    (fields : List (String × Json)) → IntegralFields fields → ∀ name value fuel,
    Readable level value →
    (prettyAt level value).length + (prettyFields level fields).length < fuel →
    readFields fuel (quoted name ++ ([':', ' '] ++ (prettyAt level value ++
        (prettyFields level fields ++ (newline outer ++ '}' :: rest))))) =
      some ((pieces name, value.draft) :: draftFields fields, rest)
  | [], _ => by
      intro name value fuel readable enough
      obtain ⟨fuel, rfl⟩ := Nat.exists_eq_add_of_lt enough
      exact readFields_last readable (by omega)
  | (next, second) :: more, integral => by
      intro name value fuel readable enough
      obtain ⟨fuel, rfl⟩ := Nat.exists_eq_add_of_lt enough
      have following := readable_pretty level second integral.1
      simp only [prettyFields, List.cons_append, List.append_assoc, List.length_cons,
        List.length_append]
      refine readFields_comma readable (by omega) ?_
      rw [readFields_newline]
      exact readFields_pretty level outer rest more integral.2 next second _ following (by omega)

end

mutual

theorem depth_draft : (value : Json) → value.Integral → value.draft.depth = value.depth
  | .null, _ => rfl
  | .bool _, _ => rfl
  | .number (.int _), _ => rfl
  | .string _, _ => rfl
  | .array items, integral => by
      rw [draft, JsonDraft.depth, Json.depth, depth_draftItems items integral]
  | .object fields, integral => by
      rw [draft, JsonDraft.depth, Json.depth, depth_draftFields fields integral]

theorem depth_draftItems : (items : List Json) → IntegralItems items →
    JsonDraft.depthOfItems (draftItems items) = Json.depthOfItems items
  | [], _ => rfl
  | item :: rest, integral => by
      rw [draftItems, JsonDraft.depthOfItems, Json.depthOfItems, depth_draft item integral.1,
        depth_draftItems rest integral.2]

theorem depth_draftFields : (fields : List (String × Json)) → IntegralFields fields →
    JsonDraft.depthOfFields (draftFields fields) = Json.depthOfFields fields
  | [], _ => rfl
  | (name, value) :: rest, integral => by
      rw [draftFields, JsonDraft.depthOfFields, Json.depthOfFields, depth_draft value integral.1,
        depth_draftFields rest integral.2]

end

mutual

theorem value_draft : (value : Json) → value.Integral → value.draft.value? = some value
  | .null, _ => rfl
  | .bool _, _ => rfl
  | .number (.int value), integral => by
      rw [draft, JsonDraft.value?, value_written integral.1 integral.2]
      rfl
  | .string text, _ => by
      rw [draft, JsonDraft.value?, text_pieces]
      rfl
  | .array items, integral => by
      rw [draft, JsonDraft.value?, values_draftItems items integral]
      rfl
  | .object fields, integral => by
      rw [draft, JsonDraft.value?, values_draftFields fields integral]
      rfl

theorem values_draftItems : (items : List Json) → IntegralItems items →
    values? (draftItems items) = some items
  | [], _ => rfl
  | item :: rest, integral => by
      rw [draftItems, values?, value_draft item integral.1, values_draftItems rest integral.2]
      rfl

theorem values_draftFields : (fields : List (String × Json)) → IntegralFields fields →
    fieldValues? (draftFields fields) = some fields
  | [], _ => rfl
  | (name, value) :: rest, integral => by
      rw [draftFields, fieldValues?, text_pieces, value_draft value integral.1,
        values_draftFields rest integral.2]
      rfl

end

/-- A printed value is read back as itself. -/
theorem parse_pretty {value : Json} (integral : value.Integral)
    (shallow : value.depth ≤ Json.depthLimit) : Json.parse? value.pretty = some value := by
  have chars : value.pretty.toList = prettyAt 0 value := by
    rw [pretty, String.toList_ofList]
  have read := readable_pretty 0 value integral (2 * (prettyAt 0 value).length + 2) [] trivial
    (by omega)
  rw [List.append_nil] at read
  have drafted : JsonDraft.parse? value.pretty = some value.draft := by
    rw [JsonDraft.parse?, chars, read]
    rfl
  rw [Json.parse?, drafted]
  show Json.ofDraft? value.draft = some value
  rw [Json.ofDraft?, depth_draft value integral, if_pos shallow, value_draft value integral]

end Zephir
