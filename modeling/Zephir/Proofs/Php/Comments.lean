import Zephir.Emit.Sink
import Zephir.Phase.Comments
import Zephir.Php.Comment
import Zephir.Proofs.Emit.Blanks
import Zephir.Proofs.Emit.Nesting
import Zephir.Proofs.Text.Cutting

/-!
Written comments as PHP reads them. A comment between `/*` and `*/` is read to its end, since its
lines come from a text without the end of a comment and nothing that is put between them makes one.
A comment after two slashes is a single line, and is only read to its end if nothing else in it ends
a line for PHP.
-/

namespace Zephir.Php

open Text

/-! ## Reading a comment -/

/-- A text up to and with its first `*/`, and what follows. -/
def readBlock? : List Char → Option (List Char × List Char)
  | '*' :: '/' :: after => some (['*', '/'], after)
  | c :: rest => (readBlock? rest).map fun (inside, after) => (c :: inside, after)
  | [] => none

/-- A text up to a line break or a closing tag, and what follows from there. -/
def readLine : List Char → List Char × List Char
  | [] => ([], [])
  | c :: rest =>
    if c = '\n' ∨ c = '\r' ∨ (c = '?' ∧ rest.head? = some '>') then ([], c :: rest)
    else (c :: (readLine rest).1, (readLine rest).2)

def readComment? : List Char → Option (List Char × List Char)
  | '/' :: '*' :: rest =>
    (readBlock? rest).map fun (inside, after) => ('/' :: '*' :: inside, after)
  | '/' :: '/' :: rest => some ('/' :: '/' :: (readLine rest).1, (readLine rest).2)
  | _ => none

section Pairs

variable {α : Type} {x y c : α} {first second rest : List α}

theorem pair_infix_cons :
    [x, y] <:+: c :: rest ↔ (c = x ∧ rest.head? = some y) ∨ [x, y] <:+: rest := by
  have starts : [y] <+: rest ↔ rest.head? = some y := by
    cases rest with
    | nil => simp
    | cons next rest => simp [List.cons_prefix_cons, eq_comm]
  rw [List.infix_cons_iff, List.cons_prefix_cons, starts, eq_comm]

theorem pair_infix_append :
    [x, y] <:+: first ++ second ↔
      [x, y] <:+: first ∨ [x, y] <:+: second ∨
        (first.getLast? = some x ∧ second.head? = some y) := by
  induction first with
  | nil => simp
  | cons c rest ih =>
      rw [List.cons_append, pair_infix_cons, pair_infix_cons, ih]
      cases rest with
      | nil => grind
      | cons next rest => grind

end Pairs

/-- The first end of a comment is the one behind a text that has none. -/
theorem readBlock?_append {inside : List Char} (unclosed : ¬['*', '/'] <:+: inside)
    (after : List Char) :
    readBlock? (inside ++ '*' :: '/' :: after) = some (inside ++ ['*', '/'], after) := by
  induction inside with
  | nil => rfl
  | cons c rest ih =>
      rw [pair_infix_cons, not_or, not_and] at unclosed
      have noEnd : ∀ tail, c = '*' → rest ++ '*' :: '/' :: after = '/' :: tail → False := by
        intro tail star slash
        apply unclosed.1 star
        cases rest with
        | nil => simp at slash
        | cons next rest => simpa using (List.cons.inj slash).1
      rw [List.cons_append, readBlock?.eq_2 _ _ noEnd, ih unclosed.2]
      rfl

theorem readLine_eq_iff (line after : List Char) :
    readLine (line ++ '\n' :: after) = (line, '\n' :: after) ↔
      '\n' ∉ line ∧ '\r' ∉ line ∧ ¬['?', '>'] <:+: line := by
  induction line with
  | nil => simp [readLine]
  | cons c rest ih =>
      have next : (rest ++ '\n' :: after).head? = some '>' ↔ rest.head? = some '>' := by
        cases rest <;> simp
      rw [List.cons_append, readLine, pair_infix_cons, List.mem_cons, List.mem_cons]
      by_cases ends : c = '\n' ∨ c = '\r' ∨ (c = '?' ∧ rest.head? = some '>')
      · rw [if_pos (by rwa [next])]
        simp only [Prod.mk.injEq, List.nil_eq, reduceCtorEq, false_and, false_iff]
        grind
      · rw [if_neg (by rwa [next])]
        have whole : ∀ read : List Char × List Char,
            (c :: read.1, read.2) = (c :: rest, '\n' :: after) ↔ read = (rest, '\n' :: after) := by
          simp [Prod.ext_iff]
        rw [whole, ih]
        grind

/-! ## The lines of a comment -/

theorem stripStars_eq_trimChars (line : List Char) :
    ∃ inner, inner <:+: line ∧ stripStars line = trimChars inner := by
  unfold stripStars
  extract_lets opened
  obtain ⟨inner, within, same⟩ : ∃ inner, inner <:+: line ∧ opened = trimChars inner := by
    unfold opened
    split
    · rename_i rest starred
      have behind : rest <:+: trimChars line := by
        rw [starred]
        exact (List.suffix_cons '*' rest).isInfix
      exact ⟨rest, behind.trans (trimChars_isInfix line), rfl⟩
    · exact ⟨line, List.infix_rfl, rfl⟩
  rw [same]
  split
  · rename_i before cut
    have front : before <:+: trimChars inner := by
      rw [beforeLast?_eq_some cut]
      exact (List.prefix_append before ['*']).isInfix
    exact ⟨before, (front.trans (trimChars_isInfix inner)).trans within, rfl⟩
  · exact ⟨inner, within, rfl⟩

/-- Text for a line inside of a comment: no blanks stand at its end, and nothing in it closes one. -/
structure Inner (line : String) : Prop where
  trimmed : dropBlankEnd line.toList = line.toList
  unclosed : ¬['*', '/'] <:+: line.toList

theorem inner_stripStars {line : List Char} (unclosed : ¬['*', '/'] <:+: line) :
    Inner (String.ofList (stripStars line)) := by
  obtain ⟨inner, within, same⟩ := stripStars_eq_trimChars line
  constructor <;> rw [String.toList_ofList, same]
  · exact dropBlankEnd_trimChars inner
  · exact fun closed => unclosed ((closed.trans (trimChars_isInfix inner)).trans within)

theorem inner_of_mem_commentLines {body : List Char} (unclosed : ¬['*', '/'] <:+: body)
    {line : String} (among : line ∈ commentLines body) : Inner line := by
  obtain ⟨piece, isPiece, rfl⟩ := List.mem_map.mp among
  exact inner_stripStars fun closed => unclosed (closed.trans (infix_of_mem_pieces isPiece))

theorem innerLines_subset (lines : List String) : innerLines lines ⊆ lines := by
  intro line among
  have inFront := (List.dropWhile_suffix _).subset (List.mem_reverse.mp among)
  exact (List.dropWhile_suffix _).subset (List.mem_reverse.mp inFront)

theorem docblockLines_of_docblockOfLines? {document : Bool} {body : List Char} {pos : Position}
    {doc : Docblock} (made : docblockOfLines? document (commentLines body) pos = some doc) :
    ('\n' ∈ body ∧ ∃ lines ⊆ commentLines body, docblockLines doc = blockComment document lines) ∨
    ('\n' ∉ body ∧ stripStars body ≠ [] ∧
      docblockLines doc =
        if document then ["/** " ++ String.ofList (stripStars body) ++ " */"]
        else ["// " ++ String.ofList (stripStars body)]) := by
  unfold docblockOfLines? at made
  split at made
  · contradiction
  · rename_i filled
    by_cases broken : '\n' ∈ body
    · left
      obtain ⟨first, second, more, cut⟩ := pieces_of_mem broken
      obtain ⟨lines, several⟩ : ∃ lines, commentLines body = lines := ⟨_, rfl⟩
      rw [several] at made ⊢
      have notSingle : ∀ line, lines ≠ [line] := by
        rintro line rfl
        simp [commentLines, cut] at several
      split at made
      · rename_i line
        exact absurd rfl (notSingle line)
      · cases made
        refine ⟨broken, innerLines lines, innerLines_subset lines, ?_⟩
        -- even if a single line is left between the empty ones, the comment keeps its form
        simp only [docblockLines, DocLines.toList]
        split <;> simp [*]
    · right
      have single : commentLines body = [String.ofList (stripStars body)] := by
        simp [commentLines, pieces_of_notMem broken]
      rw [single] at made filled
      have kept : String.ofList (stripStars body) ≠ "" := by simpa using filled
      cases made
      refine ⟨broken, by simpa using kept, ?_⟩
      simp [docblockLines, DocLines.toList, innerLines, kept]

/-! ## The text of a comment -/

def indented (indent : String) (lines : List String) : List Char :=
  ('\n' :: indent.toList).intercalate (lines.map String.toList)

theorem joinLines_indented (indent first : String) (rest : List String) :
    (joinLines ((first :: rest).map (indent ++ ·))).toList =
      indent.toList ++ indented indent (first :: rest) ++ ['\n'] := by
  induction rest generalizing first with
  | nil => simp [joinLines, indented]
  | cons next rest ih =>
      have behind : (joinLines ((first :: next :: rest).map (indent ++ ·))).toList =
          indent.toList ++ first.toList ++ '\n' ::
            (joinLines ((next :: rest).map (indent ++ ·))).toList := by
        simp [joinLines]
      have joined : indented indent (first :: next :: rest) =
          first.toList ++ '\n' :: indent.toList ++ indented indent (next :: rest) := by
        simp [indented, List.intercalate_cons_cons]
      rw [behind, ih, joined]
      simp

theorem unclosed_of_notMem {chars : List Char} (noStar : '*' ∉ chars) :
    ¬['*', '/'] <:+: chars :=
  fun closed => noStar (closed.subset (by simp))

theorem unclosed_append {first second : List Char} (left : ¬['*', '/'] <:+: first)
    (right : ¬['*', '/'] <:+: second)
    (apart : first.getLast? ≠ some '*' ∨ second.head? ≠ some '/') :
    ¬['*', '/'] <:+: first ++ second := by
  rw [pair_infix_append]
  rintro (closed | closed | ⟨star, slash⟩)
  · exact left closed
  · exact right closed
  · exact apart.elim (· star) (· slash)

theorem unclosed_flatMap {lines : List (List Char)}
    (unclosed : ∀ line ∈ lines, ¬['*', '/'] <:+: '\n' :: line) :
    ¬['*', '/'] <:+: lines.flatMap ('\n' :: ·) := by
  induction lines with
  | nil => simp
  | cons line rest ih =>
      rw [List.forall_mem_cons] at unclosed
      apply unclosed_append unclosed.1 (ih unclosed.2)
      right
      cases rest <;> simp

theorem unclosed_starLine {line : String} (inner : Inner line) :
    ¬['*', '/'] <:+: (starLine line).toList := by
  unfold starLine
  split
  · decide +kernel
  · rw [String.toList_append]
    exact unclosed_append (by decide +kernel) inner.unclosed (.inl (by decide +kernel))

theorem indented_blockComment {indent : String} (noStar : '*' ∉ indent.toList) {lines : List String}
    (inner : ∀ line ∈ lines, Inner line) (document : Bool) :
    ∃ inside, indented indent (blockComment document lines) =
        '/' :: '*' :: inside ++ ['*', '/'] ∧ ¬['*', '/'] <:+: inside := by
  let body := (lines.map fun line => indent.toList ++ (starLine line).toList).flatMap ('\n' :: ·)
  let closing := '\n' :: (indent.toList ++ [' '])
  refine ⟨(if document then ['*'] else []) ++ (body ++ closing), ?_, ?_⟩
  · cases document <;>
      simp [indented, blockComment, intercalate_cons, body, closing, List.flatMap_map]
  · have unclosedBody : ¬['*', '/'] <:+: body := by
      apply unclosed_flatMap
      intro text among
      obtain ⟨line, isLine, rfl⟩ := List.mem_map.mp among
      have lead : ¬['*', '/'] <:+: '\n' :: indent.toList := unclosed_of_notMem (by simp [noStar])
      apply unclosed_append lead (unclosed_starLine (inner line isLine))
      -- a blank comes first in either form of the line
      right
      unfold starLine
      split <;> simp
    have unclosedClosing : ¬['*', '/'] <:+: closing :=
      unclosed_of_notMem (by simp [closing, noStar])
    have starts : (body ++ closing).head? = some '\n' := by
      cases lines <;> simp [body, closing]
    apply unclosed_append
    · cases document <;> decide
    · exact unclosed_append unclosedBody unclosedClosing (.inr (by simp [closing]))
    · exact .inr (by simp [starts])

/-! ## Writing a comment -/

open Emitter

/-- A text that makes a line of its own, from which nothing is trimmed. -/
structure OwnLine (text : String) : Prop where
  filled : text ≠ ""
  trimmed : trimEnd text = text

theorem ownLine_append (front : String) {line : String}
    (trimmed : dropBlankEnd line.toList = line.toList) (filled : line ≠ "") :
    OwnLine (front ++ line) where
  filled := by simp [filled]
  trimmed := by
    have nonempty : line.toList ≠ [] := by simpa using filled
    rw [trimEnd, String.toList_append, dropBlankEnd_append _ trimmed nonempty, ← String.toList_append,
      String.ofList_toList]

theorem ownLine_starLine {line : String} (inner : Inner line) : OwnLine (starLine line) := by
  unfold starLine
  split
  · exact ⟨by decide, by decide +kernel⟩
  · rename_i filled
    exact ownLine_append " * " inner.trimmed (by simpa using filled)

theorem ownLine_of_mem_blockComment {document : Bool} {lines : List String}
    (inner : ∀ line ∈ lines, Inner line) {text : String}
    (among : text ∈ blockComment document lines) : OwnLine text := by
  have ends : OwnLine " */" := ⟨by decide, by decide +kernel⟩
  have opens : OwnLine (if document then "/**" else "/*") := by
    cases document <;> exact ⟨by decide, by decide +kernel⟩
  rw [blockComment, List.cons_append, List.mem_cons, List.mem_append, List.mem_singleton] at among
  obtain rfl | isLine | rfl := among
  · exact opens
  · obtain ⟨line, isInner, rfl⟩ := List.mem_map.mp isLine
    exact ownLine_starLine (inner line isInner)
  · exact ends

variable {e : Emitter}

theorem step_line (layout : Layout) (between : e.line = "") {text : String} (own : OwnLine text) :
    ∃ next : Emitter, e.step layout (.line text) =
      .ok (next, [.write (indentation layout e.level ++ text)]) ∧
      next.line = "" ∧ next.level = e.level := by
  refine ⟨{ e with line := "", pending := none, written := true, lastBlank := false }, ?_, rfl, rfl⟩
  simp [step, flush, push, between, own.filled, own.trimmed]

theorem run_lines (layout : Layout) {lines : List String} (own : ∀ line ∈ lines, OwnLine line)
    (between : e.line = "") :
    (e.run layout (lines.map .line)).fault = none ∧
      (e.run layout (lines.map .line)).events =
        lines.map fun line => .write (indentation layout e.level ++ line) := by
  induction lines generalizing e with
  | nil => exact ⟨rfl, rfl⟩
  | cons line rest ih =>
      rw [List.forall_mem_cons] at own
      obtain ⟨next, stepped, empty, level⟩ := step_line layout between own.1
      obtain ⟨calm, events⟩ := ih own.2 empty
      rw [List.map_cons, run_cons_ok stepped]
      exact ⟨calm, by simp [events, level]⟩

theorem star_notMem_indentation (layout : Layout) (level : Nat) :
    '*' ∉ (indentation layout level).toList := by
  intro among
  have inked : '*' ∈ withoutBlanks (indentation layout level) :=
    List.mem_filter.mpr ⟨among, by decide⟩
  simp at inked

/-! ## Comments of a source -/

def IsBlock (raw : String) : Prop :=
  raw.toList.head? = some '*' ∨ '\n' ∈ raw.toList

/-- The lines of a docblock, by the form of the comment from which it is made. -/
inductive Written (raw : String) : List String → Prop
  | lines {document : Bool} {lines : List String} (block : IsBlock raw)
      (inner : ∀ line ∈ lines, Inner line) : Written raw (blockComment document lines)
  | document {line : String} (block : IsBlock raw) (inner : Inner line) :
      Written raw ["/** " ++ line ++ " */"]
  | line (single : ¬IsBlock raw) (filled : stripStars raw.toList ≠ []) :
      Written raw ["// " ++ String.ofList (stripStars raw.toList)]

theorem written_of_docblock? {raw : String} {pos : Position} {doc : Docblock}
    (made : docblock? raw pos = some doc) (unclosed : ¬['*', '/'] <:+: raw.toList) :
    Written raw (docblockLines doc) := by
  unfold docblock? at made
  split at made
  · rename_i body starred
    have block : IsBlock raw := .inl (by simp [starred])
    have unclosedBody : ¬['*', '/'] <:+: body := fun closed =>
      unclosed (starred ▸ closed.trans (List.suffix_cons '*' body).isInfix)
    obtain ⟨-, lines, fromBody, same⟩ | ⟨-, -, same⟩ := docblockLines_of_docblockOfLines? made
    · rw [same]
      exact .lines block fun line among => inner_of_mem_commentLines unclosedBody (fromBody among)
    · rw [same]
      exact .document block (inner_stripStars unclosedBody)
  · rename_i notStarred
    have plain : raw.toList.head? ≠ some '*' := by
      intro starred
      obtain ⟨body, starts⟩ := List.head?_eq_some_iff.mp starred
      exact notStarred body starts
    obtain ⟨broken, lines, fromRaw, same⟩ | ⟨single, filled, same⟩ :=
      docblockLines_of_docblockOfLines? made
    · rw [same]
      exact .lines (.inr broken) fun line among =>
        inner_of_mem_commentLines unclosed (fromRaw among)
    · rw [same]
      exact .line (by simp [IsBlock, plain, single]) filled

theorem Written.ownLine {raw : String} {lines : List String} (written : Written raw lines) :
    ∀ line ∈ lines, OwnLine line := by
  cases written with
  | lines block inner => exact fun text among => ownLine_of_mem_blockComment inner among
  | document block inner =>
      rw [List.forall_mem_singleton]
      exact ownLine_append _ (by decide +kernel) (by decide)
  | line single filled =>
      rw [List.forall_mem_singleton]
      obtain ⟨inner, -, same⟩ := stripStars_eq_trimChars raw.toList
      apply ownLine_append
      · rw [String.toList_ofList, same]
        exact dropBlankEnd_trimChars inner
      · simpa using filled

theorem Written.ne_nil {raw : String} {lines : List String} (written : Written raw lines) :
    lines ≠ [] := by
  cases written <;> simp [blockComment]

theorem Written.block {raw indent : String} {lines : List String} (written : Written raw lines)
    (noStar : '*' ∉ indent.toList) (block : IsBlock raw) :
    ∃ inside, indented indent lines = '/' :: '*' :: inside ++ ['*', '/'] ∧
      ¬['*', '/'] <:+: inside := by
  cases written with
  | lines _ inner => exact indented_blockComment noStar inner _
  | @document line _ inner =>
      refine ⟨'*' :: ' ' :: line.toList ++ [' '], by simp [indented], ?_⟩
      have body : ¬['*', '/'] <:+: ['*', ' '] ++ line.toList :=
        unclosed_append (by decide) inner.unclosed (.inl (by decide))
      exact unclosed_append body (by decide) (.inr (by decide))
  | line single => exact absurd block single

theorem Written.single {raw indent : String} {lines : List String} (written : Written raw lines)
    (single : ¬IsBlock raw) :
    indented indent lines = '/' :: '/' :: ' ' :: stripStars raw.toList := by
  cases written with
  | lines block => exact absurd block single
  | document block => exact absurd block single
  | line => simp [indented]

theorem readComment?_line (text after : List Char) :
    readComment? ('/' :: '/' :: text ++ '\n' :: after) = some ('/' :: '/' :: text, '\n' :: after) ↔
      '\n' ∉ text ∧ '\r' ∉ text ∧ ¬['?', '>'] <:+: text := by
  rw [← readLine_eq_iff text after]
  simp [readComment?, Prod.ext_iff]

theorem readComment?_block {inside : List Char} (unclosed : ¬['*', '/'] <:+: inside)
    (after : List Char) :
    readComment? ('/' :: '*' :: inside ++ ['*', '/'] ++ '\n' :: after) =
      some ('/' :: '*' :: inside ++ ['*', '/'], '\n' :: after) := by
  have read := readBlock?_append unclosed ('\n' :: after)
  simp [readComment?, read]

/-- The docblock of a comment without `*/` is written without a fault: each of its lines is
indented and ends right there. In its two forms between `/*` and `*/` the comment is closed at its
end and not before, whatever follows. In its form after two slashes it is a single line, and PHP
reads it to its end unless a carriage return or a closing tag stands in it. -/
theorem docblock_read_back (layout : Layout) (e : Emitter) {raw : String} {pos : Position}
    {doc : Docblock} (made : docblock? raw pos = some doc)
    (unclosed : ¬['*', '/'] <:+: raw.toList) :
    let indentation := Emitter.indentation layout e.level
    let text := indented indentation (docblockLines doc)
    (e.run layout (docblockOps [doc])).fault = none ∧
    (e.run layout (docblockOps [doc])).events =
      (e.flush layout).2 ++ (docblockLines doc).map (fun line => .write (indentation ++ line)) ∧
    (joinLines ((docblockLines doc).map (indentation ++ ·))).toList =
      indentation.toList ++ text ++ ['\n'] ∧
    (IsBlock raw → ∃ inside, text = '/' :: '*' :: inside ++ ['*', '/'] ∧
      ¬['*', '/'] <:+: inside) ∧
    (¬IsBlock raw → text = '/' :: '/' :: ' ' :: stripStars raw.toList ∧ '\n' ∉ text) ∧
    ((∀ after, readComment? (text ++ '\n' :: after) = some (text, '\n' :: after)) ↔
      IsBlock raw ∨
        ('\r' ∉ stripStars raw.toList ∧ ¬['?', '>'] <:+: stripStars raw.toList)) := by
  intro indentation text
  have written := written_of_docblock? made unclosed
  have noStar : '*' ∉ indentation.toList := star_notMem_indentation layout e.level
  have flushed : e.step layout .flush = .ok ((e.flush layout).1, (e.flush layout).2) := rfl
  obtain ⟨calm, events⟩ := run_lines layout written.ownLine (line_flush layout e)
  obtain ⟨first, rest, lines⟩ := List.exists_cons_of_ne_nil written.ne_nil
  have ops : docblockOps [doc] = .flush :: (docblockLines doc).map .line := by
    simp [docblockOps]
  have noBreak (single : ¬IsBlock raw) : '\n' ∉ stripStars raw.toList := by
    obtain ⟨inner, within, same⟩ := stripStars_eq_trimChars raw.toList
    rw [same]
    intro among
    exact single (.inr (within.subset ((trimChars_isInfix inner).subset among)))
  refine ⟨?_, ?_, ?_, written.block noStar, ?_, ?_⟩
  · rw [ops, run_cons_ok flushed]
    exact calm
  · rw [ops, run_cons_ok flushed, events, level_flush]
  · rw [lines, joinLines_indented]
    simp [text, lines]
  · intro single
    have same : text = '/' :: '/' :: ' ' :: stripStars raw.toList := written.single single
    exact ⟨same, by simp [same, noBreak single]⟩
  · by_cases block : IsBlock raw
    · obtain ⟨inside, same, open_⟩ := written.block noStar block
      have read (after : List Char) :
          readComment? (text ++ '\n' :: after) = some (text, '\n' :: after) := by
        rw [show text = _ from same]
        exact readComment?_block open_ after
      exact ⟨fun _ => .inl block, fun _ => read⟩
    · have same : text = '/' :: '/' :: ' ' :: stripStars raw.toList := written.single block
      have reads (after : List Char) :
          readComment? (text ++ '\n' :: after) = some (text, '\n' :: after) ↔
            '\r' ∉ stripStars raw.toList ∧ ¬['?', '>'] <:+: stripStars raw.toList := by
        rw [same, readComment?_line, pair_infix_cons]
        simp [noBreak block]
      simp only [reads, forall_const, block, false_or]

theorem noteSamples_read_back :
    (∃ doc, docblock? " one\n * two " {} = some doc ∧
      docblockLines doc = ["/*", " * one", " * two", " */"] ∧
      ∀ after, readComment? (indented (indentation .standard 0) (docblockLines doc) ++
        '\n' :: after) =
          some (indented (indentation .standard 0) (docblockLines doc), '\n' :: after)) ∧
    ∃ doc, docblock? " a ?> b " {} = some doc ∧ docblockLines doc = ["// a ?> b"] ∧
      ¬∀ after, readComment? (indented (indentation .standard 0) (docblockLines doc) ++
        '\n' :: after) =
          some (indented (indentation .standard 0) (docblockLines doc), '\n' :: after) := by
  have several : docblock? " one\n * two " {} =
      some ⟨.many ["one", "two"], true, false, {}⟩ := by decide +kernel
  have tagged : docblock? " a ?> b " {} = some ⟨.one "a ?> b", false, false, {}⟩ := by
    decide +kernel
  obtain ⟨-, -, -, -, -, readsSeveral⟩ :=
    docblock_read_back .standard {} several (by decide +kernel)
  obtain ⟨-, -, -, -, -, readsTagged⟩ :=
    docblock_read_back .standard {} tagged (by decide +kernel)
  refine ⟨⟨_, several, by decide +kernel, readsSeveral.mpr (.inl (.inr (by decide +kernel)))⟩,
    _, tagged, by decide +kernel, ?_⟩
  intro reads
  obtain (opened | broken) | ⟨-, noTag⟩ := readsTagged.mp reads
  · revert opened
    decide +kernel
  · revert broken
    decide +kernel
  · exact noTag (by decide +kernel)

end Zephir.Php
