import Mathlib.Data.List.DropRight
import Zephir.Proofs.Json.Lines
import Zephir.Report

/-!
Where the spans of a report lie. A place is a line and a column of characters, and its span is a
stretch of the bytes of the text. The span starts and ends between characters, and it holds exactly
the character at the place if there is one. Lines are described by what stands before and after
them, without cutting the text.
-/

namespace Zephir

namespace Text

variable {chars body rest before line after content ending : List Char} {number : Nat}

/-- The line with a number, counted from one, between what stands before and after it. Only its last
character may be a newline, and only the last line of the text may do without one. -/
structure LineAt (chars : List Char) (number : Nat) (before line after : List Char) : Prop where
  whole : chars = before ++ line ++ after
  nth : before.count '\n' + 1 = number
  starts : before = [] ∨ before.getLast? = some '\n'
  filled : line ≠ []
  single : '\n' ∉ line.dropLast
  stops : after = [] ∨ line.getLast? = some '\n'

/-- A line cut where its trailing newline and carriage returns begin. -/
structure Trimmed (line content ending : List Char) : Prop where
  whole : line = content ++ ending
  ending : ∀ c ∈ ending, c = '\n' ∨ c = '\r'
  content : ∀ c ∈ content.getLast?, c ≠ '\n' ∧ c ≠ '\r'

theorem linesKept_append (absent : '\n' ∉ body) (rest : List Char) :
    linesKept (body ++ '\n' :: rest) = (body ++ ['\n']) :: linesKept rest := by
  induction body with
  | nil => simp [linesKept]
  | cons c body ih =>
      rw [List.mem_cons, not_or] at absent
      have differs : c ≠ '\n' := fun same => absent.1 same.symm
      simp [linesKept, differs, ih absent.2]

theorem linesKept_of_notMem (absent : '\n' ∉ chars) (filled : chars ≠ []) :
    linesKept chars = [chars] := by
  induction chars with
  | nil => contradiction
  | cons c rest ih =>
      rw [List.mem_cons, not_or] at absent
      have differs : c ≠ '\n' := fun same => absent.1 same.symm
      cases rest with
      | nil => simp [linesKept, differs]
      | cons d rest =>
          rw [linesKept, ih absent.2 (by simp)]
          simp [differs]

namespace LineAt

theorem next (absent : '\n' ∉ body) (found : LineAt chars number before line after) :
    LineAt (body ++ '\n' :: chars) (number + 1) (body ++ '\n' :: before) line after where
  whole := by simp [found.whole]
  nth := by
    rw [List.count_append, List.count_eq_zero.mpr absent, List.count_cons_self, Nat.zero_add,
      found.nth]
  starts := by
    right
    rcases found.starts with rfl | last
    · simp
    · simp [List.getLast?_cons, last]
  filled := found.filled
  single := found.single
  stops := found.stops

theorem prev (found : LineAt chars (number + 2) before line after) :
    ∃ body rest before', '\n' ∉ body ∧ chars = body ++ '\n' :: rest ∧
      before = body ++ '\n' :: before' ∧ LineAt rest (number + 1) before' line after := by
  have among : '\n' ∈ before := by
    rw [← List.count_pos_iff]
    have nth := found.nth
    omega
  obtain ⟨body, before', rfl, absent⟩ := List.eq_append_cons_of_mem among
  refine ⟨body, before' ++ line ++ after, before', absent, by simp [found.whole], rfl, rfl, ?_, ?_,
    found.filled, found.single, found.stops⟩
  · have nth := found.nth
    rw [List.count_append, List.count_eq_zero.mpr absent, List.count_cons_self] at nth
    omega
  · cases before' with
    | nil => exact .inl rfl
    | cons c before' => simpa [List.getLast?_cons] using found.starts

theorem before_eq_nil (found : LineAt chars 1 before line after) : before = [] := by
  rcases found.starts with empty | last
  · exact empty
  · have absent : '\n' ∉ before := by
      rw [← List.count_eq_zero]
      have nth := found.nth
      omega
    exact absurd (List.mem_of_getLast? last) absent

theorem linesKept_eq (found : LineAt chars 1 before line after) :
    linesKept chars = line :: linesKept after := by
  rw [found.whole, found.before_eq_nil, List.nil_append]
  obtain ⟨body, last, rfl⟩ : ∃ body last, line = body ++ [last] :=
    ⟨line.dropLast, line.getLast found.filled, (List.dropLast_concat_getLast found.filled).symm⟩
  have absent : '\n' ∉ body := by simpa using found.single
  by_cases newline : last = '\n'
  · rw [newline, List.append_assoc]
    exact linesKept_append absent after
  · have closed : after = [] := by simpa [newline] using found.stops
    rw [closed, List.append_nil]
    refine linesKept_of_notMem ?_ (by simp)
    simpa [absent] using fun same => newline same.symm

theorem exists_first (filled : chars ≠ []) : ∃ line after, LineAt chars 1 [] line after := by
  by_cases among : '\n' ∈ chars
  · obtain ⟨body, rest, rfl, absent⟩ := List.eq_append_cons_of_mem among
    exact ⟨body ++ ['\n'], rest, by simp, rfl, .inl rfl, by simp, by simpa using absent, by simp⟩
  · refine ⟨chars, [], by simp, rfl, .inl rfl, filled, ?_, .inl rfl⟩
    exact fun inside => among (List.mem_of_mem_dropLast inside)

end LineAt

end Text

namespace Span

open Text

variable {text : String} {chars before line after content ending front middle back : List Char}
  {number : Nat}

/-- The span lies within the text, and does not cut a character apart. -/
structure Fits (text : String) (span : Span) : Prop where
  bound : span.offset + span.length ≤ text.utf8ByteSize
  start : String.Pos.Raw.IsValid text ⟨span.offset⟩
  stop : String.Pos.Raw.IsValid text ⟨span.offset + span.length⟩

def bytes (text : String) (span : Span) : ByteArray :=
  text.toByteArray.extract span.offset (span.offset + span.length)

theorem byteCount_eq (chars : List Char) :
    byteCount chars = (String.ofList chars).utf8ByteSize := by
  induction chars with
  | nil => rfl
  | cons c rest ih =>
      rw [byteCount, ih, ← List.singleton_append, String.ofList_append, String.utf8ByteSize_append,
        ← String.singleton_eq_ofList, String.utf8ByteSize_singleton]

theorem byteCount_append (first second : List Char) :
    byteCount (first ++ second) = byteCount first + byteCount second := by
  simp only [byteCount_eq, String.ofList_append, String.utf8ByteSize_append]

theorem byteCount_cut (first second : List Char) :
    byteCount (first ++ '\n' :: second) = byteCount (first ++ ['\n']) + byteCount second := by
  rw [← byteCount_append, List.append_assoc, List.singleton_append]

theorem byteCount_toList (text : String) : byteCount text.toList = text.utf8ByteSize := by
  rw [byteCount_eq, String.ofList_toList]

theorem isValid_byteCount (whole : text.toList = front ++ back) :
    String.Pos.Raw.IsValid text ⟨byteCount front⟩ := by
  refine String.Pos.Raw.isValid_iff_exists_append.mpr
    ⟨String.ofList front, String.ofList back, ?_, ?_⟩
  · rw [← String.ofList_append, ← whole, String.ofList_toList]
  · rw [byteCount_eq]
    rfl

theorem fits_byteCount (whole : text.toList = front ++ middle ++ back) :
    Fits text ⟨byteCount front, byteCount middle⟩ where
  bound := by
    dsimp only
    rw [← byteCount_toList, whole, byteCount_append, byteCount_append]
    exact Nat.le_add_right _ _
  start := isValid_byteCount (whole.trans (List.append_assoc front middle back))
  stop := byteCount_append front middle ▸ isValid_byteCount whole

theorem bytes_byteCount (whole : text.toList = front ++ middle ++ back) :
    bytes text ⟨byteCount front, byteCount middle⟩ = (String.ofList middle).toByteArray := by
  have joined : text = String.ofList front ++ (String.ofList middle ++ String.ofList back) := by
    rw [← String.ofList_append, ← String.ofList_append, ← List.append_assoc, ← whole,
      String.ofList_toList]
  rw [bytes, joined, String.toByteArray_append, String.toByteArray_append, byteCount_eq,
    byteCount_eq, ← String.size_toByteArray, ← String.size_toByteArray]
  have skipped := ByteArray.extract_append_size_add (a := (String.ofList front).toByteArray)
    (b := (String.ofList middle).toByteArray ++ (String.ofList back).toByteArray) (i := 0)
    (j := (String.ofList middle).toByteArray.size)
  rw [Nat.add_zero] at skipped
  rw [skipped, ByteArray.extract_append_eq_left rfl]

/-! ### Contents of lines -/

theorem content_eq (trimmed : Trimmed line content ending) : Span.content line = content := by
  have kept : content.rdropWhile (fun c => c == '\n' || c == '\r') = content := by
    rw [List.rdropWhile_eq_self_iff]
    intro filled
    simpa [not_or] using trimmed.content _ (List.getLast?_eq_some_getLast filled)
  have dropped : ∀ c ∈ ending.reverse, (c == '\n' || c == '\r') = true := by
    simpa using trimmed.ending
  rw [Span.content, trimmed.whole, List.reverse_append, List.dropWhile_append_of_pos dropped]
  exact kept

theorem exists_trimmed (line : List Char) : ∃ ending, Trimmed line (Span.content line) ending := by
  refine ⟨(line.reverse.takeWhile fun c => c == '\n' || c == '\r').reverse, ?_, ?_, ?_⟩
  · rw [Span.content, ← List.reverse_append, List.takeWhile_append_dropWhile, List.reverse_reverse]
  · intro c among
    simpa using List.mem_takeWhile_imp (List.mem_reverse.mp among)
  · intro c last
    obtain ⟨filled, rfl⟩ := List.mem_getLast?_eq_getLast last
    have stays := List.rdropWhile_last_not _ line filled
    rw [Bool.or_eq_true, beq_iff_eq, beq_iff_eq, not_or] at stays
    exact stays

theorem inLine_of_split {c : Char} (offset : Nat) {skip : Nat}
    (trimmed : Trimmed line content ending) (split : content = front ++ c :: back)
    (skipped : front.length = skip) :
    inLine offset line skip = ⟨offset + byteCount front, c.utf8Size⟩ := by
  subst skipped
  simp [inLine, content_eq trimmed, split, byteCount]

theorem inLine_of_short (offset : Nat) {skip : Nat} (trimmed : Trimmed line content ending)
    (short : content.length ≤ skip) :
    inLine offset line skip = ⟨offset + byteCount content, 0⟩ := by
  simp [inLine, content_eq trimmed, List.take_of_length_le short, List.drop_of_length_le short,
    byteCount]

/-! ### Lines of a text -/

theorem inLines_zero (offset : Nat) (lines : List (List Char)) (column : Nat) :
    inLines offset lines 0 column = ⟨offset + byteCount lines.flatten, 0⟩ := by
  induction lines generalizing offset with
  | nil => rfl
  | cons first rest ih =>
      simp [inLines, ih, byteCount_append, Nat.add_assoc]

theorem inLines_of_lineAt (offset : Nat) (found : LineAt chars number before line after)
    (column : Nat) :
    inLines offset (linesKept chars) number column =
      inLine (offset + byteCount before) line (column - 1) := by
  -- By induction on the number: each line in front is cut off, with its bytes added to the offset.
  induction number generalizing chars before offset with
  | zero => exact absurd found.nth (Nat.succ_ne_zero _)
  | succ number ih =>
      cases number with
      | zero =>
          rw [found.linesKept_eq, found.before_eq_nil]
          simp [inLines, byteCount]
      | succ number =>
          obtain ⟨body, rest, before', absent, rfl, rfl, later⟩ := found.prev
          rw [linesKept_append absent]
          simp [inLines, ih _ later, byteCount_cut body before', Nat.add_assoc]

theorem inLines_of_not_lineAt (offset : Nat)
    (missing : ∀ before line after, ¬LineAt chars number before line after) (column : Nat) :
    inLines offset (linesKept chars) number column = ⟨offset + byteCount chars, 0⟩ := by
  induction number generalizing chars offset with
  | zero => rw [inLines_zero, flatten_linesKept]
  | succ number ih =>
      by_cases filled : chars = []
      · subst filled
        rfl
      cases number with
      | zero =>
          obtain ⟨line, after, found⟩ := LineAt.exists_first filled
          exact absurd found (missing _ _ _)
      | succ number =>
          by_cases among : '\n' ∈ chars
          · obtain ⟨body, rest, rfl, absent⟩ := List.eq_append_cons_of_mem among
            have later := ih (offset + byteCount (body ++ ['\n'])) fun before line after found =>
              missing _ _ _ (found.next absent)
            rw [linesKept_append absent]
            simp [inLines, later, byteCount_cut body rest, Nat.add_assoc]
          · rw [linesKept_of_notMem among filled]
            simp [inLines]

/-! ### Spans of places -/

theorem ofPlace_of_split {c : Char} {column : Nat}
    (found : LineAt text.toList number before line after) (trimmed : Trimmed line content ending)
    (split : content = front ++ c :: back) (reached : front.length = column - 1) :
    ofPlace text number column = ⟨byteCount (before ++ front), byteCount [c]⟩ := by
  rw [ofPlace, inLines_of_lineAt 0 found, inLine_of_split _ trimmed split reached, Nat.zero_add,
    byteCount_append]
  rfl

theorem ofPlace_of_short {column : Nat} (found : LineAt text.toList number before line after)
    (trimmed : Trimmed line content ending) (short : content.length ≤ column - 1) :
    ofPlace text number column = ⟨byteCount (before ++ content), byteCount []⟩ := by
  rw [ofPlace, inLines_of_lineAt 0 found, inLine_of_short _ trimmed short, Nat.zero_add,
    byteCount_append]
  rfl

theorem ofPlace_of_missing {column : Nat}
    (missing : ∀ before line after, ¬LineAt text.toList number before line after) :
    ofPlace text number column = ⟨byteCount text.toList, byteCount []⟩ := by
  rw [ofPlace, inLines_of_not_lineAt 0 missing, Nat.zero_add]
  rfl

theorem whole_of_split {c : Char} (found : LineAt chars number before line after)
    (trimmed : Trimmed line content ending) (split : content = front ++ c :: back) :
    chars = before ++ front ++ [c] ++ (back ++ ending ++ after) := by
  rw [found.whole, trimmed.whole, split]
  simp

theorem exists_split {skip : Nat} (long : skip < content.length) :
    ∃ front c back, content = front ++ c :: back ∧ front.length = skip :=
  ⟨content.take skip, content[skip], content.drop (skip + 1), by simp, by simp; omega⟩

theorem fits_ofPlace (text : String) (number column : Nat) :
    Fits text (ofPlace text number column) := by
  by_cases present : ∃ before line after, LineAt text.toList number before line after
  · obtain ⟨before, line, after, found⟩ := present
    obtain ⟨ending, trimmed⟩ := exists_trimmed line
    rcases Nat.lt_or_ge (column - 1) (Span.content line).length with long | short
    · obtain ⟨front, c, back, split, reached⟩ := exists_split long
      rw [ofPlace_of_split found trimmed split reached]
      exact fits_byteCount (whole_of_split found trimmed split)
    · rw [ofPlace_of_short found trimmed short]
      have whole : text.toList = before ++ Span.content line ++ [] ++ (ending ++ after) := by
        rw [found.whole, List.append_nil, List.append_assoc, List.append_assoc,
          ← List.append_assoc (Span.content line), ← trimmed.whole]
      exact fits_byteCount whole
  · rw [ofPlace_of_missing fun before line after found => present ⟨before, line, after, found⟩]
    have whole : text.toList = text.toList ++ [] ++ [] := by simp
    exact fits_byteCount whole

theorem fits_of_mem_report {tree : FileTree} {input : Option String} {d : Diagnostic}
    {mark : MarkedLabel} (among : mark ∈ (d.report tree input).labels) :
    ∃ pos text, d.primaryPos? = some pos ∧ sourceText? tree input pos.file = some text ∧
      Fits text mark.span := by
  unfold Diagnostic.report at among
  split at among
  · cases among
  · rename_i pos primary
    split at among
    · cases among
    · rename_i text read
      obtain ⟨label, -, rfl⟩ := List.mem_map.mp among
      exact ⟨pos, text, primary, read, fits_ofPlace _ _ _⟩

/-- Every span lies within its text and starts and ends between characters. If the line of the place
is there and long enough, the span holds the bytes of one character, the one at the column; column
zero stands for the first one. On a shorter line the span is empty at the end of its content, and
without such a line it is empty at the end of the text. -/
theorem ofPlace_exact (text : String) (number column : Nat) :
    Fits text (ofPlace text number column) ∧
    (∀ before line after content ending,
      LineAt text.toList number before line after → Trimmed line content ending →
        (max column 1 ≤ content.length → ∃ front c back,
          content = front ++ c :: back ∧ front.length + 1 = max column 1 ∧
          (ofPlace text number column).offset = (String.ofList (before ++ front)).utf8ByteSize ∧
          (ofPlace text number column).length = c.utf8Size ∧
          bytes text (ofPlace text number column) = (String.singleton c).toByteArray) ∧
        (content.length < max column 1 → ofPlace text number column =
          ⟨(String.ofList (before ++ content)).utf8ByteSize, 0⟩)) ∧
    ((∀ before line after, ¬LineAt text.toList number before line after) →
      ofPlace text number column = ⟨text.utf8ByteSize, 0⟩) := by
  refine ⟨fits_ofPlace text number column, ?_, ?_⟩
  · intro before line after content ending found trimmed
    constructor
    · intro long
      have reaches : column - 1 < content.length := by omega
      obtain ⟨front, c, back, split, reached⟩ := exists_split reaches
      rw [ofPlace_of_split found trimmed split reached,
        bytes_byteCount (whole_of_split found trimmed split), byteCount_eq, byteCount_eq,
        ← String.singleton_eq_ofList, String.utf8ByteSize_singleton]
      exact ⟨front, c, back, split, by omega, rfl, rfl, rfl⟩
    · intro short
      rw [ofPlace_of_short found trimmed (by omega), byteCount_eq]
      rfl
  · intro missing
    rw [ofPlace_of_missing missing, byteCount_toList]
    rfl

def linedSample : String :=
  "é\r\n\nxé"

theorem linedSample_spans :
    LineAt linedSample.toList 3 ['é', '\r', '\n', '\n'] ['x', 'é'] [] ∧
    Trimmed ['x', 'é'] ['x', 'é'] [] ∧
    bytes linedSample (ofPlace linedSample 3 2) = "é".toByteArray ∧
    ofPlace linedSample 3 2 = ⟨6, 2⟩ ∧
    LineAt linedSample.toList 1 [] ['é', '\r', '\n'] ['\n', 'x', 'é'] ∧
    Trimmed ['é', '\r', '\n'] ['é'] ['\r', '\n'] ∧
    ofPlace linedSample 1 2 = ⟨2, 0⟩ ∧
    (∀ before line after, ¬LineAt linedSample.toList 4 before line after) ∧
    ofPlace linedSample 4 1 = ⟨8, 0⟩ := by
  have chars : linedSample.toList = ['é', '\r', '\n', '\n', 'x', 'é'] := by decide +kernel
  have third : LineAt linedSample.toList 3 ['é', '\r', '\n', '\n'] ['x', 'é'] [] := by
    rw [chars]
    constructor <;> decide
  have whole : Trimmed ['x', 'é'] ['x', 'é'] [] := ⟨rfl, by simp, by simp⟩
  have first : LineAt linedSample.toList 1 [] ['é', '\r', '\n'] ['\n', 'x', 'é'] := by
    rw [chars]
    constructor <;> decide
  have cut : Trimmed ['é', '\r', '\n'] ['é'] ['\r', '\n'] := ⟨rfl, by simp, by simp⟩
  have missing : ∀ before line after, ¬LineAt linedSample.toList 4 before line after := by
    intro before line after found
    have newlines : (before ++ line ++ after).count '\n' = 2 := by
      rw [← found.whole, chars]
      decide
    have nth := found.nth
    rw [List.append_assoc, List.count_append] at newlines
    omega
  refine ⟨third, whole, ?_, ?_, first, cut, ?_, missing, ?_⟩
  · obtain ⟨front, c, back, split, reached, -, -, held⟩ :=
      ((ofPlace_exact linedSample 3 2).2.1 _ _ _ _ _ third whole).1 (by decide)
    have one : front.length = 1 := by simpa using reached
    obtain ⟨first, rfl⟩ := List.length_eq_one_iff.mp one
    cases split
    rw [held]
    decide
  · decide +kernel
  · rw [((ofPlace_exact linedSample 1 2).2.1 _ _ _ _ _ first cut).2 (by decide)]
    decide
  · rw [(ofPlace_exact linedSample 4 1).2.2 missing]
    decide

end Span

end Zephir
