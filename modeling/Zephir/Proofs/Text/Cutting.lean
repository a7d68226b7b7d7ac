import Mathlib.Data.List.DropRight
import Mathlib.Data.List.Infix
import Zephir.Text.Blank
import Zephir.Text.Split

/-!
What cutting and trimming leave of a text. A text without separators in its pieces is cut exactly
where they were put together, and all that trimming leaves stands in the text as it is.
-/

namespace Zephir.Text

variable {mark : Char} {first rest chars before : List Char}

theorem cutAt_append (absent : mark ∉ first) (rest : List Char) :
    cutAt mark (first ++ mark :: rest) = some (first, rest) := by
  induction first with
  | nil => simp [cutAt]
  | cons c first ih =>
      rw [List.mem_cons, not_or] at absent
      have differs : c ≠ mark := fun same => absent.1 same.symm
      simp [cutAt, differs, ih absent.2]

theorem pieces_of_notMem (absent : mark ∉ chars) : pieces mark chars = [chars] := by
  induction chars with
  | nil => rfl
  | cons c rest ih =>
      rw [List.mem_cons, not_or] at absent
      have differs : c ≠ mark := fun same => absent.1 same.symm
      simp [pieces, differs, ih absent.2]

theorem pieces_append (absent : mark ∉ first) (rest : List Char) :
    pieces mark (first ++ mark :: rest) = first :: pieces mark rest := by
  induction first with
  | nil => simp [pieces]
  | cons c first ih =>
      rw [List.mem_cons, not_or] at absent
      have differs : c ≠ mark := fun same => absent.1 same.symm
      simp [pieces, differs, ih absent.2]

/-- Separators put in front of all pieces give the text, with a separator in front of it. -/
theorem flatMap_pieces (mark : Char) (chars : List Char) :
    (pieces mark chars).flatMap (mark :: ·) = mark :: chars := by
  induction chars with
  | nil => rfl
  | cons c rest ih =>
      rw [pieces]
      by_cases same : c = mark
      · simp [same, ih]
      · cases cut : pieces mark rest with
        | nil => simp [cut] at ih
        | cons piece more =>
            rw [cut, List.flatMap_cons, List.cons_append, List.cons.injEq] at ih
            simp [same, ih.2]

theorem pieces_ne_nil (mark : Char) (chars : List Char) : pieces mark chars ≠ [] := by
  intro nothing
  have joined := flatMap_pieces mark chars
  simp [nothing] at joined

theorem infix_of_mem_pieces {piece : List Char} (among : piece ∈ pieces mark chars) :
    piece <:+: chars := by
  have marked : mark :: piece <:+: mark :: chars := by
    rw [← flatMap_pieces mark chars, List.flatMap_def]
    exact List.infix_of_mem_flatten (List.mem_map.mpr ⟨piece, among, rfl⟩)
  obtain atStart | inside := List.infix_cons_iff.mp marked
  · exact ((List.prefix_cons_inj mark).mp atStart).isInfix
  · exact (List.suffix_cons mark piece).isInfix.trans inside

theorem pieces_of_mem (among : mark ∈ chars) :
    ∃ first second more, pieces mark chars = first :: second :: more := by
  obtain ⟨first, rest, rfl, absent⟩ := List.eq_append_cons_of_mem among
  obtain ⟨second, more, cut⟩ := List.exists_cons_of_ne_nil (pieces_ne_nil mark rest)
  exact ⟨first, second, more, by rw [pieces_append absent, cut]⟩

theorem intercalate_cons {α : Type} (mark first : List α) (rest : List (List α)) :
    mark.intercalate (first :: rest) = first ++ rest.flatMap (mark ++ ·) := by
  induction rest generalizing first with
  | nil => simp
  | cons next rest ih =>
      rw [List.intercalate_cons_cons, ih]
      simp

theorem beforeLast?_concat (mark : Char) (before : List Char) :
    beforeLast? mark (before ++ [mark]) = some before := by
  simp [beforeLast?]

theorem beforeLast?_concat_ne {c : Char} (differs : c ≠ mark) (before : List Char) :
    beforeLast? mark (before ++ [c]) = none := by
  simp [beforeLast?, differs]

theorem beforeLast?_eq_some (cut : beforeLast? mark chars = some before) :
    chars = before ++ [mark] := by
  cases chars using List.reverseRecOn with
  | nil => simp [beforeLast?] at cut
  | append_singleton front c =>
      by_cases same : c = mark
      · subst same
        rw [beforeLast?_concat] at cut
        cases cut
        rfl
      · rw [beforeLast?_concat_ne same] at cut
        contradiction

theorem beforeLast?_cons {c : Char} (more : chars ≠ []) :
    beforeLast? mark (c :: chars) = (beforeLast? mark chars).map (c :: ·) := by
  obtain ⟨front, last, rfl⟩ : ∃ front last, chars = front ++ [last] :=
    ⟨chars.dropLast, chars.getLast more, (List.dropLast_concat_getLast more).symm⟩
  rw [← List.cons_append]
  by_cases same : last = mark
  · subst same
    simp only [beforeLast?_concat, Option.map_some]
  · simp only [beforeLast?_concat_ne same, Option.map_none]

theorem mem_of_beforeLast? (cut : beforeLast? mark chars = some before) : mark ∈ chars := by
  rw [beforeLast?_eq_some cut]
  exact List.mem_concat_self

theorem beforeLast?_eq_none (absent : mark ∉ chars) : beforeLast? mark chars = none :=
  Option.eq_none_iff_forall_not_mem.mpr fun _ cut => absent (mem_of_beforeLast? cut)

theorem subset_of_beforeLast? (cut : beforeLast? mark chars = some before) : before ⊆ chars := by
  rw [beforeLast?_eq_some cut]
  exact List.subset_append_left before [mark]

/-! ## Trimming -/

theorem dropBlank_cons {c : Char} (inked : isBlank c = false) (rest : List Char) :
    dropBlank (c :: rest) = c :: rest := by
  simp [dropBlank, inked]

theorem dropBlankEnd_eq_rdropWhile (chars : List Char) :
    dropBlankEnd chars = chars.rdropWhile isBlank :=
  rfl

theorem dropBlankEnd_concat {c : Char} (inked : isBlank c = false) (front : List Char) :
    dropBlankEnd (front ++ [c]) = front ++ [c] :=
  List.rdropWhile_concat_neg _ _ _ (by simp [inked])

theorem trimChars_of_ends {first last : Char} (inkedFirst : isBlank first = false)
    (inkedLast : isBlank last = false) (between : List Char) :
    trimChars (first :: between ++ [last]) = first :: between ++ [last] := by
  rw [trimChars, List.cons_append, dropBlank_cons inkedFirst, ← List.cons_append,
    dropBlankEnd_concat inkedLast]

theorem dropBlank_isSuffix (chars : List Char) : dropBlank chars <:+ chars :=
  List.dropWhile_suffix _

theorem dropBlankEnd_isPrefix (chars : List Char) : dropBlankEnd chars <+: chars :=
  List.rdropWhile_prefix _ _

theorem dropBlankEnd_trimChars (chars : List Char) :
    dropBlankEnd (trimChars chars) = trimChars chars :=
  List.rdropWhile_idempotent _ _

/-- A text that keeps its end when it is trimmed also keeps it behind another text. -/
theorem dropBlankEnd_append (front : List Char) (trimmed : dropBlankEnd chars = chars)
    (filled : chars ≠ []) : dropBlankEnd (front ++ chars) = front ++ chars := by
  rw [dropBlankEnd_eq_rdropWhile, List.rdropWhile_eq_self_iff] at trimmed ⊢
  intro _
  rw [List.getLast_append_of_ne_nil _ filled]
  exact trimmed filled

theorem trimChars_isInfix (chars : List Char) : trimChars chars <:+: chars :=
  (dropBlankEnd_isPrefix _).isInfix.trans (dropBlank_isSuffix chars).isInfix

end Zephir.Text
