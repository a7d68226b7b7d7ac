import Mathlib.Data.List.Chain
import Mathlib.Data.List.Forall2
import Zephir.Proofs.Emit.Delivering
import Zephir.Proofs.Emit.Nesting

/-!
The lines that a sink gets. A sheet follows a unit without any spacing: it knows the level and the
texts since the last line ended, and from these it lists the lines that have to come. The emitter
keeps in step with the sheet, and what it writes is tidy besides: an empty line neither comes first
nor follows another, and nothing ends in a blank. A sink that fails gets the beginning of it.
-/

namespace Zephir

open Text

def Decent (text : String) : Prop :=
  text = "" ∨ ∃ c ∈ text.toList, isBlank c = false

instance (text : String) : Decidable (Decent text) :=
  decidable_of_iff (text.toList = [] ∨ text.toList.any (!isBlank ·) = true) (by simp [Decent])

/-- A line without its spacing: the level it stands at, and the texts on it. -/
structure RawLine where
  level : Nat
  texts : List String

/-- The texts in order, with one blank or none between two of them and no blank in front. -/
inductive Spaced : List String → String → Prop
  | nil : Spaced [] ""
  | glued {texts line text} : Spaced texts line → Spaced (texts ++ [text]) (line ++ text)
  | apart {texts line text} : Spaced texts line → line ≠ "" →
      Spaced (texts ++ [text]) (line ++ " " ++ text)

def RawLine.Shows (layout : Layout) (raw : RawLine) (line : String) : Prop :=
  ∃ spaced, Spaced raw.texts spaced ∧
    line = Emitter.indentation layout raw.level ++ trimEnd spaced

/-- Where a unit stands, spacing apart: the level, the remembered levels, and the texts since the
last line ended. -/
structure Sheet where
  level : Nat := 0
  saved : List Nat := []
  texts : List String := []

namespace Sheet

def isOpen (s : Sheet) : Bool :=
  s.texts.any (· != "")

def ending (s : Sheet) : List RawLine :=
  if s.isOpen then [⟨s.level, s.texts⟩] else []

/-- Carries out a part of an operation. The level only moves between lines, and nothing goes below
level zero or back to a level that was not remembered. -/
def step (s : Sheet) : Op → Sheet × List RawLine
  | .emit text | .keyword text | .token text _ _ => ({ s with texts := s.texts ++ [text] }, [])
  | .flush | .blankLine => ({ s with texts := [] }, s.ending)
  | .indent => (if s.isOpen then s else { s with level := s.level + 1 }, [])
  | .unindent => (if s.isOpen then s else { s with level := s.level - 1 }, [])
  | .pushIndent => ({ s with saved := s.level :: s.saved }, [])
  | .popIndent =>
    match s.saved with
    | [] => (s, [])
    | level :: saved => ({ s with level, saved }, [])
  | _ => (s, [])

def lines (s : Sheet) : List Op → List RawLine
  | [] => s.ending
  | op :: rest => (s.step op).2 ++ lines (s.step op).1 rest

end Sheet

def rawLines (layout : Layout) (ops : List Op) : List RawLine :=
  Sheet.lines {} (ops.flatMap (Op.parts layout))

structure Tidy (lines : List String) : Prop where
  first : lines.head? ≠ some ""
  apart : lines.IsChain fun line next => line ≠ "" ∨ next ≠ ""
  trimmed : ∀ line ∈ lines, ∀ c, line.toList.getLast? = some c → isBlank c = false

def Call.line? : Call → Option String
  | .write line => some line
  | _ => none

/-- The lines that a sink gets, also the one that it fails on. -/
def handedLines (calls : List Call) : List String :=
  calls.filterMap Call.line?

def writtenLines (events : List Event) : List String :=
  events.filterMap Event.line?

def filledLines (lines : List String) : List String :=
  lines.filter (· != "")

theorem Spaced.eq_empty_iff {texts : List String} {line : String} (spaced : Spaced texts line) :
    line = "" ↔ ∀ text ∈ texts, text = "" := by
  induction spaced with
  | nil => simp
  | glued _ ih => simp [ih, or_imp, forall_and]
  | apart _ begun ih =>
      have seen : ¬∀ text ∈ _, text = "" := fun all => begun (ih.mpr all)
      simp [or_imp, forall_and, seen]

section Trimming

variable {line : String} {c : Char}

theorem trimEnd_ne_empty (decent : Decent line) (begun : line ≠ "") : trimEnd line ≠ "" := by
  obtain ⟨c, among, inked⟩ := decent.resolve_left begun
  intro empty
  have gone : line.toList.rdropWhile isBlank = [] := String.ofList_eq_empty_iff.mp empty
  have blank := List.rdropWhile_eq_nil_iff.mp gone c among
  simp [inked] at blank

theorem isBlank_of_getLast?_trimEnd (last : (trimEnd line).toList.getLast? = some c) :
    isBlank c = false := by
  rw [trimEnd, String.toList_ofList, dropBlankEnd_eq_rdropWhile] at last
  have filled : line.toList.rdropWhile isBlank ≠ [] := by
    rintro empty
    simp [empty] at last
  rw [List.getLast?_eq_some_getLast filled, Option.some.injEq] at last
  simpa [last] using List.rdropWhile_last_not isBlank line.toList filled

end Trimming

namespace Emitter

variable {layout : Layout} {e : Emitter}

theorem attemptAll_append (first second : List Op) :
    e.attemptAll layout (first ++ second) =
      let begun := e.attemptAll layout first
      let ended := begun.1.attemptAll layout second
      (ended.1, begun.2 ++ ended.2) := by
  induction first generalizing e with
  | nil => rfl
  | cons op rest ih => simp [attemptAll, ih]

theorem attemptAll_eq_run {ops : List Op} (calm : (e.run layout ops).fault = none) :
    e.attemptAll layout ops = ((e.run layout ops).emitter, (e.run layout ops).events) := by
  induction ops generalizing e with
  | nil => rfl
  | cons op rest ih =>
      cases stepped : e.step layout op with
      | error fault => simp [run_cons_error stepped] at calm
      | ok result =>
          obtain ⟨next, events⟩ := result
          rw [run_cons_ok stepped] at calm ⊢
          simp [attemptAll, attempt, stepped, ih calm]

theorem attemptAll_singleton (op : Op) : e.attemptAll layout [op] = e.attempt layout op := by
  simp [attemptAll]

theorem attemptAll_parts (op : Op) :
    e.attemptAll layout (op.parts layout) = e.attempt layout op := by
  rw [← attemptAll_singleton]
  cases moves : op.movesLevel with
  | false =>
      have calm := (run_still layout e moves).1
      have calmParts : (e.run layout (op.parts layout)).fault = none := by rwa [run_parts]
      rw [attemptAll_eq_run calm, attemptAll_eq_run calmParts, run_parts]
  | true =>
      cases op with
      | indent | unindent | pushIndent | popIndent => rfl
      | _ => contradiction

theorem attemptAll_flatMap_parts (ops : List Op) :
    e.attemptAll layout (ops.flatMap (Op.parts layout)) = e.attemptAll layout ops := by
  induction ops generalizing e with
  | nil => rfl
  | cons op rest ih =>
      simp only [List.flatMap_cons, attemptAll_append, attemptAll_parts, ih]
      rfl

end Emitter

def Op.isPart : Op → Bool
  | .operator .. | .endOfStatement _ | .line _ | .blankLineIf _ => false
  | _ => true

theorem Spacing.isPart_of_mem_parts {spacing : Spacing} {op : String} (decent : Decent op)
    {part : Op} (among : part ∈ spacing.parts op) : part.isPart ∧ Decent part.text := by
  simp only [parts, List.mem_append, List.mem_singleton] at among
  rcases among with (before | rfl) | after
  · split at before <;> simp_all [Op.isPart, Op.text, Decent]
  · exact ⟨rfl, decent⟩
  · split at after <;> simp_all [Op.isPart, Op.text, Decent]

theorem Op.isPart_of_mem_parts {layout : Layout} {op part : Op} (decent : Decent op.text)
    (among : part ∈ op.parts layout) : part.isPart ∧ Decent part.text := by
  cases op with
  | operator op context => exact Spacing.isPart_of_mem_parts decent among
  | endOfStatement context => exact Spacing.isPart_of_mem_parts decent among
  | line text =>
      simp only [parts, List.mem_cons, List.not_mem_nil, or_false] at among
      rcases among with rfl | rfl | rfl
      · exact ⟨rfl, .inl rfl⟩
      · exact ⟨rfl, decent⟩
      · exact ⟨rfl, .inl rfl⟩
  | blankLineIf path =>
      simp only [parts] at among
      split at among <;> simp_all [isPart, Op.text]
  | _ =>
      obtain rfl := List.mem_singleton.mp among
      exact ⟨rfl, decent⟩

/-- The sheet and the emitter stand at the same place, and what is on the line is spaced. -/
structure InStep (s : Sheet) (e : Emitter) : Prop where
  level : e.level = s.level
  saved : e.saved = s.saved
  spaced : Spaced s.texts e.line
  decent : Decent e.line

structure Remembers (e : Emitter) (lines : List String) : Prop where
  tidy : Tidy lines
  started : e.written = true → lines ≠ []
  filled : e.lastBlank = false → lines.getLast? ≠ some ""

section Steps

variable {layout : Layout} {s : Sheet} {e : Emitter} {lines : List String}

theorem InStep.isOpen_iff (same : InStep s e) : s.isOpen = true ↔ e.line ≠ "" := by
  simp [Sheet.isOpen, same.spaced.eq_empty_iff]

theorem InStep.push (same : InStep s e) {text : String} (decent : Decent text)
    (before after : Option Bool) (fallback : Bool) :
    InStep { s with texts := s.texts ++ [text] } (e.push text before after fallback) := by
  have grown : Decent ((e.push text before after fallback).line) := by
    have blank : e.line = "" → (e.push text before after fallback).line = text := by
      intro between
      simp [Emitter.push, between]
    have kept : ∀ c ∈ e.line.toList, c ∈ (e.push text before after fallback).line.toList := by
      intro c among
      simp only [Emitter.push]
      split <;> simp [among]
    rcases same.decent with between | ⟨c, among, inked⟩
    · rwa [blank between]
    · exact .inr ⟨c, kept c among, inked⟩
  refine ⟨same.level, same.saved, ?_, grown⟩
  simp only [Emitter.push]
  split
  · rename_i gap
    have begun : e.line ≠ "" := by
      simp only [Bool.and_eq_true, Bool.not_eq_true', String.isEmpty_eq_false_iff] at gap
      exact gap.1.1
    exact same.spaced.apart begun
  · exact same.spaced.glued

theorem flush_between (between : e.line = "") : e.flush layout = (e, []) := by
  simp [Emitter.flush, between]

def cleared (e : Emitter) : Emitter :=
  { e with line := "", pending := none, written := true, lastBlank := false }

theorem flush_begun (layout : Layout) (same : InStep s e) (begun : e.line ≠ "") :
    ∃ line, line ≠ "" ∧ (∀ c, line.toList.getLast? = some c → isBlank c = false) ∧
      RawLine.Shows layout ⟨s.level, s.texts⟩ line ∧
      e.flush layout = (cleared e, [.write line]) := by
  have filled := trimEnd_ne_empty same.decent begun
  refine ⟨Emitter.indentation layout e.level ++ trimEnd e.line, ?_, ?_, ⟨e.line, same.spaced, ?_⟩,
    ?_⟩
  · simp [filled]
  · intro c last
    have ends : (trimEnd e.line).toList ≠ [] := by simpa using filled
    rw [String.toList_append, List.getLast?_append_of_ne_nil _ ends] at last
    exact isBlank_of_getLast?_trimEnd last
  · rw [same.level]
  · simp [Emitter.flush, begun, cleared]

theorem InStep.flush (same : InStep s e) (layout : Layout) :
    InStep { s with texts := [] } (e.flush layout).1 ∧
      List.Forall₂ (RawLine.Shows layout) s.ending
        (filledLines (writtenLines (e.flush layout).2)) := by
  by_cases between : e.line = ""
  · have closed : s.ending = [] := by simp [Sheet.ending, same.isOpen_iff, between]
    rw [flush_between between, closed]
    exact ⟨⟨same.level, same.saved, between ▸ .nil, .inl between⟩, .nil⟩
  · obtain ⟨line, filled, -, shown, flushed⟩ := flush_begun layout same between
    have ending : s.ending = [⟨s.level, s.texts⟩] := by
      simp [Sheet.ending, same.isOpen_iff, between]
    have written : filledLines (writtenLines [.write line]) = [line] := by
      simp [filledLines, writtenLines, Event.line?, filled]
    rw [flushed, ending, written]
    exact ⟨⟨same.level, same.saved, .nil, .inl rfl⟩, .cons shown .nil⟩

theorem Tidy.concat (tidy : Tidy lines) {line : String}
    (fits : line = "" → lines ≠ [] ∧ lines.getLast? ≠ some "")
    (trimmed : ∀ c, line.toList.getLast? = some c → isBlank c = false) :
    Tidy (lines ++ [line]) := by
  refine ⟨?_, ?_, ?_⟩
  · cases lines with
    | nil => simpa using fun empty => (fits empty).1 rfl
    | cons first rest => simpa using tidy.first
  · refine tidy.apart.append (.singleton line) ?_
    intro last isLast next isNext
    obtain rfl : line = next := by simpa using isNext
    by_cases empty : line = ""
    · refine .inl fun blank => (fits empty).2 ?_
      rw [← blank]
      exact isLast
    · exact .inr empty
  · intro other among
    rcases List.mem_append.mp among with before | same
    · exact tidy.trimmed other before
    · obtain rfl := List.mem_singleton.mp same
      exact trimmed

theorem Remembers.flush (remembers : Remembers e lines) (same : InStep s e) (layout : Layout) :
    Remembers (e.flush layout).1 (lines ++ writtenLines (e.flush layout).2) := by
  by_cases between : e.line = ""
  · rw [flush_between between]
    simpa [writtenLines] using remembers
  · obtain ⟨line, filled, trimmed, -, flushed⟩ := flush_begun layout same between
    have tidy := remembers.tidy.concat (fun empty => absurd empty filled) trimmed
    rw [flushed]
    exact ⟨tidy, by simp [writtenLines, Event.line?], by simp [writtenLines, Event.line?, filled]⟩

theorem blankLine_cases (layout : Layout) (e : Emitter) :
    e.blankLine layout = e.flush layout ∨
      (e.flush layout).1.written = true ∧ (e.flush layout).1.lastBlank = false ∧
        e.blankLine layout = ({ (e.flush layout).1 with lastBlank := true },
          (e.flush layout).2 ++ [.write ""]) := by
  unfold Emitter.blankLine
  by_cases parts : (e.flush layout).1.written = true ∧ (e.flush layout).1.lastBlank = false
  · exact .inr ⟨parts.1, parts.2, by simp [parts]⟩
  · refine .inl ?_
    simp only [Bool.and_eq_true, Bool.not_eq_true']
    rw [if_neg parts]

structure StepsAlong (layout : Layout) (next : Sheet × List RawLine) (lines : List String)
    (result : Emitter × List Event) : Prop where
  same : InStep next.1 result.1
  remembers : Remembers result.1 (lines ++ writtenLines result.2)
  shown : List.Forall₂ (RawLine.Shows layout) next.2 (filledLines (writtenLines result.2))

theorem stepsAlong_flush (layout : Layout) (same : InStep s e)
    (remembers : Remembers e lines) :
    StepsAlong layout ({ s with texts := [] }, s.ending) lines (e.flush layout) := by
  obtain ⟨next, shown⟩ := same.flush layout
  exact ⟨next, remembers.flush same layout, shown⟩

theorem stepsAlong_blankLine (same : InStep s e) (remembers : Remembers e lines) :
    StepsAlong layout ({ s with texts := [] }, s.ending) lines (e.blankLine layout) := by
  obtain ⟨next, shown⟩ := same.flush layout
  have flushed := remembers.flush same layout
  rcases blankLine_cases layout e with same | ⟨started, filled, parted⟩
  · exact same ▸ ⟨next, flushed, shown⟩
  · have lines' : writtenLines ((e.flush layout).2 ++ [.write ""]) =
        writtenLines (e.flush layout).2 ++ [""] := by
      simp [writtenLines, Event.line?]
    rw [parted]
    refine ⟨⟨next.level, next.saved, next.spaced, next.decent⟩, ?_, ?_⟩
    · rw [lines', ← List.append_assoc]
      have tidy : Tidy (lines ++ writtenLines (e.flush layout).2 ++ [""]) :=
        flushed.tidy.concat (fun _ => ⟨flushed.started started, flushed.filled filled⟩) (by simp)
      exact ⟨tidy, fun _ => List.append_ne_nil_of_right_ne_nil _ (by simp), by simp⟩
    · simpa [lines', filledLines] using shown

theorem stepsAlong_quiet {next : Sheet} {e' : Emitter} (same : InStep next e')
    (remembers : Remembers e lines) (written : e'.written = e.written)
    (lastBlank : e'.lastBlank = e.lastBlank) : StepsAlong layout (next, []) lines (e', []) := by
  refine ⟨same, ?_, .nil⟩
  simpa [writtenLines] using
    ⟨remembers.tidy, written ▸ remembers.started, lastBlank ▸ remembers.filled⟩

theorem stepsAlong_move (move : Nat → Nat) (same : InStep s e) (remembers : Remembers e lines) :
    StepsAlong layout (if s.isOpen then s else { s with level := move s.level }, []) lines
      (if e.line = "" then { e with level := move e.level } else e, []) := by
  by_cases between : e.line = ""
  · have closed : ¬s.isOpen = true := fun isOpen => same.isOpen_iff.mp isOpen between
    rw [if_neg closed, if_pos between]
    exact stepsAlong_quiet ⟨congrArg move same.level, same.saved, same.spaced, same.decent⟩
      remembers rfl rfl
  · rw [if_pos (same.isOpen_iff.mpr between), if_neg between]
    exact stepsAlong_quiet same remembers rfl rfl

theorem attempt_indent : e.attempt layout .indent =
    (if e.line = "" then { e with level := e.level + 1 } else e, []) := by
  simp [Emitter.attempt, Emitter.step]

/-- At level zero there is nothing to go back to, and the level stays. -/
theorem attempt_unindent : e.attempt layout .unindent =
    (if e.line = "" then { e with level := e.level - 1 } else e, []) := by
  obtain ⟨level, saved, line, pending, written, lastBlank⟩ := e
  by_cases between : line = ""
  · cases level <;> simp [Emitter.attempt, Emitter.step, between]
  · simp [Emitter.attempt, Emitter.step, between]

theorem stepsAlong_attempt (layout : Layout) {op : Op} (part : op.isPart) (decent : Decent op.text)
    (same : InStep s e) (remembers : Remembers e lines) :
    StepsAlong layout (s.step op) lines (e.attempt layout op) := by
  cases op with
  | start target =>
      have silent : lines ++ writtenLines [.start target] = lines := by
        simp [writtenLines, Event.line?]
      exact ⟨same, silent.symm ▸ remembers, .nil⟩
  | emit text | keyword text | token text before after =>
      exact stepsAlong_quiet (same.push decent _ _ _) remembers rfl rfl
  | flush => exact stepsAlong_flush layout same remembers
  | blankLine => exact stepsAlong_blankLine same remembers
  | indent => exact attempt_indent ▸ stepsAlong_move (· + 1) same remembers
  | unindent => exact attempt_unindent ▸ stepsAlong_move (· - 1) same remembers
  | pushIndent =>
      exact stepsAlong_quiet ⟨same.level, congrArg₂ List.cons same.level same.saved, same.spaced,
        same.decent⟩ remembers rfl rfl
  | popIndent =>
      simp only [Emitter.attempt, Emitter.step, Sheet.step, same.saved]
      cases s.saved with
      | nil => exact stepsAlong_quiet same remembers rfl rfl
      | cons level saved =>
          exact stepsAlong_quiet ⟨rfl, rfl, same.spaced, same.decent⟩ remembers rfl rfl
  | operator | endOfStatement | line | blankLineIf => contradiction

theorem attemptAll_lines (layout : Layout) {parts : List Op}
    (decent : ∀ op ∈ parts, op.isPart ∧ Decent op.text)
    (same : InStep s e) (remembers : Remembers e lines) :
    let result := e.attemptAll layout parts
    let written := writtenLines (result.2 ++ (result.1.flush layout).2)
    Tidy (lines ++ written) ∧
      List.Forall₂ (RawLine.Shows layout) (s.lines parts) (filledLines written) := by
  induction parts generalizing s e lines with
  | nil =>
      obtain ⟨-, remembers, shown⟩ := stepsAlong_flush layout same remembers
      exact ⟨remembers.tidy, shown⟩
  | cons op rest ih =>
      rw [List.forall_mem_cons] at decent
      obtain ⟨next, remembersNext, shown⟩ :=
        stepsAlong_attempt layout decent.1.1 decent.1.2 same remembers
      obtain ⟨tidy, others⟩ := ih decent.2 next remembersNext
      have split (first second : List Event) :
          writtenLines (first ++ second) = writtenLines first ++ writtenLines second :=
        List.filterMap_append
      simp only [Emitter.attemptAll, Sheet.lines, List.append_assoc, split] at tidy others ⊢
      refine ⟨tidy, ?_⟩
      rw [filledLines, List.filter_append]
      exact List.rel_append shown others

end Steps

theorem unitEvents_lines (layout : Layout) {ops : List Op} (decent : ∀ op ∈ ops, Decent op.text) :
    let written := writtenLines (Output.unitEvents layout ops)
    Tidy written ∧
      List.Forall₂ (RawLine.Shows layout) (rawLines layout ops) (filledLines written) := by
  have parts : ∀ part ∈ ops.flatMap (Op.parts layout), part.isPart ∧ Decent part.text := by
    intro part among
    obtain ⟨op, listed, isPart⟩ := List.mem_flatMap.mp among
    exact Op.isPart_of_mem_parts (decent op listed) isPart
  have start : Remembers {} [] := ⟨⟨by simp, .nil, by simp⟩, by simp, by simp⟩
  have same : InStep {} {} := ⟨rfl, rfl, .nil, .inl rfl⟩
  have lines := attemptAll_lines layout parts same start
  rw [Emitter.attemptAll_flatMap_parts] at lines
  exact lines

section Handing

variable {events : List Event} {log : List LogEntry} {failure : Option FileError}

theorem handedLines_cons (call : Call) (calls : List Call) :
    handedLines (call :: calls) = call.line?.toList ++ handedLines calls := by
  cases line : call.line? <;> simp [handedLines, line]

theorem handedLines_events (events : List Event) :
    handedLines (events.map Event.call) = writtenLines events := by
  have line (event : Event) : event.call.line? = event.line? := by cases event <;> rfl
  simp [handedLines, writtenLines, List.filterMap_map, line]

theorem handedLines_of_onlyStarts (starts : OnlyStarts log) :
    handedLines (log.map (·.call)) = [] := by
  simp only [handedLines, List.filterMap_eq_nil_iff, List.forall_mem_map]
  intro entry among
  obtain ⟨target, same⟩ := starts entry among
  rw [same]
  rfl

theorem Sent.handedLines_begin (sent : Sent events log failure) :
    handedLines (log.map (·.call)) <+: handedLines (events.map Event.call) := by
  induction sent with
  | done => exact List.prefix_refl []
  | went _ ih =>
      simp only [List.map_cons, handedLines_cons]
      exact (List.prefix_append_right_inj _).mpr ih
  | failed starts =>
      simp only [List.map_cons, handedLines_cons, handedLines_of_onlyStarts starts]
      exact (List.prefix_append_right_inj _).mpr List.nil_prefix

theorem Ended.handedLines_begin (ended : Ended events log failure) :
    handedLines (log.map (·.call)) <+: handedLines (events.map Event.call) := by
  cases ended with
  | stopped sent => exact sent.handedLines_begin
  | @closed entries _ sent =>
      have silent : handedLines ((entries ++ [LogEntry.mk .close failure]).map LogEntry.call) =
          handedLines (entries.map LogEntry.call) := by
        simp [handedLines, List.filterMap_cons, Call.line?]
      rw [silent]
      exact sent.handedLines_begin

theorem Tidy.of_prefix {lines others : List String} (tidy : Tidy lines)
    (begins : others <+: lines) : Tidy others := by
  refine ⟨?_, tidy.apart.prefix begins, fun line among => tidy.trimmed line (begins.subset among)⟩
  cases others with
  | nil => simp
  | cons first rest =>
      obtain ⟨after, rfl⟩ := begins
      exact tidy.first

theorem exists_forall₂_of_prefix {α β : Type} {R : α → β → Prop} {firsts : List α}
    {seconds others : List β} (related : List.Forall₂ R firsts seconds)
    (begins : others <+: seconds) :
    ∃ shown, shown <+: firsts ∧ List.Forall₂ R shown others := by
  refine ⟨firsts.take others.length, List.take_prefix _ _, ?_⟩
  have taken := List.forall₂_take others.length related
  rwa [← List.prefix_iff_eq_take.mp begins] at taken

end Handing

/-- The lines that a sink gets are tidy, and those that are not empty are the lines of the unit, in
order, each indented to its level and with its texts spaced. A sink that fails gets those in
front, and any other gets them all. -/
theorem lines_disciplined {σ : Type} (layout : Layout) (sink : Sink σ) (state : σ) (ops : List Op)
    (decent : ∀ op ∈ ops, Decent op.text) :
    let log := ((Output.ofOps layout sink state ops).finish layout sink.logged).state.2
    let handed := handedLines (log.map (·.call))
    Tidy handed ∧
    (∃ shown, shown <+: rawLines layout ops ∧
      List.Forall₂ (RawLine.Shows layout) shown (filledLines handed)) ∧
    ((∀ entry ∈ log, entry.call ≠ .close → entry.failure = none) →
      List.Forall₂ (RawLine.Shows layout) (rawLines layout ops) (filledLines handed)) := by
  intro log handed
  obtain ⟨tidy, shown⟩ := unitEvents_lines layout decent
  rw [← handedLines_events] at tidy shown
  have begins : handed <+: handedLines ((Output.unitEvents layout ops).map Event.call) :=
    (Output.ended_finish layout sink state ops).handedLines_begin
  refine ⟨tidy.of_prefix begins, exists_forall₂_of_prefix shown (begins.filter _), ?_⟩
  intro quiet
  have whole : log = _ := Output.finish_calm (Output.calm_of_quiet quiet)
  have all : handed = handedLines ((Output.unitEvents layout ops).map Event.call) := by
    simp [handed, whole, handedLines, Call.line?, Function.comp_def]
  rwa [all]

def blanksLayout : Layout :=
  Layout.empty.override [("indent.spaces", .number 4), ("indent.max_levels", .number 1)]

def raggedSample : List Op :=
  [.blankLine, .line "<?php", .blankLine, .flush, .blankLine, .unindent, .indent, .indent,
    .token "$a" none (some true), .indent, .emit "", .token "= " (some true) none, .pushIndent,
    .popIndent, .popIndent]

theorem raggedSample_lines :
    let log := ((Output.ofOps blanksLayout bufferSink {} raggedSample).finish blanksLayout
      bufferSink.logged).state.2
    let handed := handedLines (log.map (·.call))
    (∀ op ∈ raggedSample, Decent op.text) ∧
    handed = ["<?php", "", "    $a ="] ∧ Tidy handed ∧
    List.Forall₂ (RawLine.Shows blanksLayout) [⟨0, ["<?php"]⟩, ⟨2, ["$a", "", "= "]⟩]
      (filledLines handed) := by
  intro log handed
  have decent : ∀ op ∈ raggedSample, Decent op.text := by decide
  have written : handed = ["<?php", "", "    $a ="] := by decide +kernel
  have quiet : ∀ entry ∈ log, entry.call ≠ .close → entry.failure = none := by decide +kernel
  obtain ⟨tidy, -, shown⟩ := lines_disciplined blanksLayout bufferSink {} raggedSample decent
  exact ⟨decent, written, tidy, shown quiet⟩

end Zephir
