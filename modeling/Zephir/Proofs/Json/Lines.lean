import Zephir.Emit.Sink
import Zephir.Proofs.Json.ReadPretty
import Zephir.Proofs.Text.Cutting

/-!
A printed document as lines. Line breaks in texts are escaped, so that the lines of a document are
those that the printer broke, and joining them gives the document and a final line break.
-/

namespace Zephir

open Json

/-! ### Lines of a text -/

namespace Text

theorem withoutNewline_eq {line : List Char} (plain : '\r' ∉ line) :
    withoutNewline line = (beforeLast? '\n' line).getD line := by
  unfold withoutNewline
  cases cut : beforeLast? '\n' line with
  | none => rfl
  | some content =>
      have absent : '\r' ∉ content := fun among => plain (subset_of_beforeLast? cut among)
      simp [beforeLast?_eq_none absent]

theorem withoutNewline_cons {c : Char} {line : List Char} (plain : '\r' ∉ c :: line)
    (more : line ≠ []) : withoutNewline (c :: line) = c :: withoutNewline line := by
  rw [withoutNewline_eq plain, beforeLast?_cons more,
    withoutNewline_eq fun among => plain (List.mem_cons_of_mem _ among)]
  cases beforeLast? '\n' line <;> rfl

theorem flatten_linesKept (chars : List Char) : (linesKept chars).flatten = chars := by
  fun_induction linesKept chars with
  | case1 => rfl
  | case2 rest ih => simp [ih]
  | case3 c rest other ended ih =>
      rw [ended] at ih
      simpa using ih
  | case4 c rest other line more kept ih =>
      rw [kept] at ih
      simpa using ih

theorem ne_nil_of_mem_linesKept {chars line : List Char} (among : line ∈ linesKept chars) :
    line ≠ [] := by
  fun_induction linesKept chars with
  | case1 => cases among
  | case2 rest ih =>
      obtain rfl | later := List.mem_cons.mp among
      · simp
      · exact ih later
  | case3 c rest other ended ih =>
      rw [List.mem_singleton.mp among]
      simp
  | case4 c rest other line more kept ih =>
      obtain rfl | later := List.mem_cons.mp among
      · simp
      · exact ih (kept ▸ List.mem_cons_of_mem _ later)

theorem linesKept_ne_nil {chars : List Char} (more : chars ≠ []) : linesKept chars ≠ [] := by
  cases chars with
  | nil => exact absurd rfl more
  | cons c rest =>
      rw [linesKept]
      split
      · simp
      · split <;> simp

/-- The lines of a text, each with a line break again, are the text and the break that its last
line lacks. -/
theorem flatMap_linesKept {chars : List Char} (plain : '\r' ∉ chars) (filled : chars ≠ [])
    (last : chars.getLast? ≠ some '\n') :
    (linesKept chars).flatMap (withoutNewline · ++ ['\n']) = chars ++ ['\n'] := by
  fun_induction linesKept chars with
  | case1 => exact absurd rfl filled
  | case2 rest ih =>
      have more : rest ≠ [] := by
        rintro rfl
        exact last rfl
      have plainRest : '\r' ∉ rest := fun among => plain (List.mem_cons_of_mem _ among)
      have rejoined := ih plainRest more (by
        rwa [List.getLast?_cons_of_ne_nil more] at last)
      have empty : withoutNewline ['\n'] = [] := rfl
      rw [List.flatMap_cons, rejoined, empty]
      rfl
  | case3 c rest other ended ih =>
      have nothing : rest = [] := by
        by_contra more
        exact linesKept_ne_nil more ended
      subst nothing
      have single : withoutNewline [c] = [c] := by
        rw [withoutNewline_eq plain]
        simp [beforeLast?, other]
      simp [single]
  | case4 c rest other line more kept ih =>
      have follows : rest ≠ [] := by
        rintro rfl
        cases kept
      have held : line ≠ [] :=
        ne_nil_of_mem_linesKept (kept ▸ List.mem_cons_self : line ∈ linesKept rest)
      have plainRest : '\r' ∉ rest := fun among => plain (List.mem_cons_of_mem _ among)
      have rejoined := ih plainRest follows (by
        rwa [List.getLast?_cons_of_ne_nil follows] at last)
      have plainLine : '\r' ∉ c :: line := by
        intro among
        refine plain (List.mem_cons.mpr ((List.mem_cons.mp among).imp_right fun later => ?_))
        rw [← flatten_linesKept rest, kept]
        exact List.mem_append_left _ later
      rw [kept, List.flatMap_cons] at rejoined
      rw [List.flatMap_cons, withoutNewline_cons plainLine held]
      simpa using rejoined

end Text

theorem joinLines_lines {text : String} (plain : '\r' ∉ text.toList) (filled : text ≠ "")
    (last : text.toList.getLast? ≠ some '\n') :
    joinLines (Text.lines text) = text ++ "\n" := by
  have chars : text.toList ≠ [] := by simpa using filled
  have rejoined := Text.flatMap_linesKept plain chars last
  rw [← String.toList_inj]
  simpa [joinLines, Text.lines, List.flatMap_def, Function.comp_def] using rejoined

/-! ### Characters of a document -/

theorem return_notMem_escapeChar (c : Char) : '\r' ∉ escapeChar c := by
  have controls : ∀ n < 0x20, '\r' ∉ escapeChar (Char.ofNat n) := by decide
  by_cases low : c.toNat < 0x20
  · simpa using controls c.toNat low
  · have other : c ≠ '\r' := by
      rintro rfl
      exact low (by decide)
    unfold escapeChar
    split_ifs <;> simp [other.symm]

theorem return_notMem_quoted (text : String) : '\r' ∉ quoted text := by
  simp [quoted, return_notMem_escapeChar]

theorem return_notMem_digits (n : Nat) : '\r' ∉ Nat.toDigits 10 n := by
  intro among
  have digit := Nat.isDigit_of_mem_toDigits (by omega) (by omega) among
  revert digit
  decide

theorem return_notMem_newline (level : Nat) : '\r' ∉ newline level := by
  simp [newline]

mutual

theorem return_notMem_prettyAt (level : Nat) : (value : Json) → value.Integral →
    '\r' ∉ prettyAt level value
  | .null, _ => by simp [prettyAt]
  | .bool true, _ => by simp [prettyAt]
  | .bool false, _ => by simp [prettyAt]
  | .number (.int value), _ => by
      rw [prettyAt, numberText]
      split <;> simp [return_notMem_digits]
  | .string text, _ => return_notMem_quoted text
  | .array [], _ => by simp [prettyAt]
  | .array (item :: rest), integral => by
      simp [prettyAt, return_notMem_newline, return_notMem_prettyAt (level + 1) item integral.1,
        return_notMem_prettyItems (level + 1) rest integral.2]
  | .object [], _ => by simp [prettyAt]
  | .object ((name, value) :: rest), integral => by
      simp [prettyAt, return_notMem_newline, return_notMem_quoted,
        return_notMem_prettyAt (level + 1) value integral.1,
        return_notMem_prettyFields (level + 1) rest integral.2]

theorem return_notMem_prettyItems (level : Nat) : (items : List Json) → IntegralItems items →
    '\r' ∉ prettyItems level items
  | [], _ => by simp [prettyItems]
  | item :: rest, integral => by
      simp [prettyItems, return_notMem_newline, return_notMem_prettyAt level item integral.1,
        return_notMem_prettyItems level rest integral.2]

theorem return_notMem_prettyFields (level : Nat) : (fields : List (String × Json)) →
    IntegralFields fields → '\r' ∉ prettyFields level fields
  | [], _ => by simp [prettyFields]
  | (name, value) :: rest, integral => by
      simp [prettyFields, return_notMem_newline, return_notMem_quoted,
        return_notMem_prettyAt level value integral.1,
        return_notMem_prettyFields level rest integral.2]

end

theorem getLast?_prettyAt_array (level : Nat) (items : List Json) :
    (prettyAt level (.array items)).getLast? = some ']' := by
  cases items with
  | nil => rfl
  | cons item rest =>
      rw [prettyAt, List.getLast?_append]
      rfl

/-- The lines of a printed list are the list and a final line break. -/
theorem joinLines_lines_pretty {items : List Json} (integral : IntegralItems items) :
    joinLines (Text.lines (pretty (.array items))) = pretty (.array items) ++ "\n" := by
  have last := getLast?_prettyAt_array 0 items
  apply joinLines_lines
  · rw [pretty, String.toList_ofList]
    exact return_notMem_prettyAt 0 (.array items) integral
  · intro empty
    rw [pretty] at empty
    have nothing : prettyAt 0 (.array items) = [] := by simpa using empty
    rw [nothing] at last
    cases last
  · rw [pretty, String.toList_ofList, last]
    decide

end Zephir
