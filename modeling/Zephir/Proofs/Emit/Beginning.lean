import Zephir.Proofs.Emit.Sinks
import Zephir.Proofs.Text.Cutting

/-!
How the text of a run begins. What is on a line without indentation is written as it stands, apart
from blanks at its end. So the text begins with what the first operations put on the line, whatever
is run after them.
-/

namespace Zephir

open Text

/-- The text written for events starts with the given characters, but for blanks at the end of the
line that are cut. -/
def FirstLine (front : List Char) (events : List Event) : Prop :=
  ∃ line rest, events.filterMap Event.line? = trimEnd line :: rest ∧ front <+: line.toList

theorem FirstLine.append {front : List Char} {first : List Event} (begun : FirstLine front first)
    (second : List Event) : FirstLine front (first ++ second) := by
  obtain ⟨line, rest, written, starts⟩ := begun
  exact ⟨line, rest ++ second.filterMap Event.line?, by simp [written], starts⟩

theorem FirstLine.after {front : List Char} {first second : List Event}
    (silent : first.filterMap Event.line? = []) (begun : FirstLine front second) :
    FirstLine front (first ++ second) := by
  obtain ⟨line, rest, written, starts⟩ := begun
  exact ⟨line, rest, by simp [silent, written], starts⟩

theorem prefix_trimEnd {front : List Char} {line : String}
    (filled : ∀ c ∈ front, isBlank c = false) (starts : front <+: line.toList) :
    front <+: (trimEnd line).toList := by
  obtain ⟨tail, whole⟩ := starts
  have kept : front.reverse.dropWhile isBlank = front.reverse := by
    rw [List.dropWhile_eq_self_iff]
    intro nonempty
    have last := filled _ (List.mem_reverse.mp (List.getElem_mem nonempty))
    simp only [last, Bool.false_eq_true, not_false_eq_true]
  rw [trimEnd, String.toList_ofList, dropBlankEnd, dropBlank, ← whole, List.reverse_append,
    List.dropWhile_append]
  split
  · rw [kept, List.reverse_reverse]
  · rw [List.reverse_append, List.reverse_reverse]
    exact List.prefix_append _ _

theorem prefix_joinLines_iff {front sought : List Char} {events : List Event}
    (begun : FirstLine front events) (filled : ∀ c ∈ sought, isBlank c = false)
    (same : sought.length = front.length) :
    sought <+: (joinLines (events.filterMap Event.line?)).toList ↔ sought = front := by
  obtain ⟨line, rest, written, starts⟩ := begun
  rw [written, joinLines_cons, String.toList_append, String.toList_append, List.append_assoc]
  constructor
  · intro found
    have onLine : sought <+: (trimEnd line).toList := by
      rcases List.prefix_or_prefix_of_prefix found (List.prefix_append _ _) with
        inside | ⟨more, rfl⟩
      · exact inside
      · -- Behind the line comes a line break, which is a blank.
        cases more with
        | nil => simp
        | cons c more =>
            obtain ⟨tail, rejoined⟩ := found
            rw [List.append_assoc, List.append_cancel_left_eq] at rejoined
            have newline : c = '\n' := (List.cons.inj rejoined).1
            have blank : isBlank c = false := filled c (by simp)
            rw [newline] at blank
            exact absurd blank (by decide)
    have cut : (trimEnd line).toList <+: line.toList := by
      rw [trimEnd, String.toList_ofList]
      exact List.rdropWhile_prefix _ _
    exact (List.prefix_of_prefix_length_le (onLine.trans cut) starts same.le).eq_of_length same
  · rintro rfl
    exact (prefix_trimEnd filled starts).trans (List.prefix_append _ _)

namespace Emitter

variable {layout : Layout} {e next : Emitter} {front : List Char} {events : List Event}

structure Midway (front : List Char) (e : Emitter) : Prop where
  level : e.level = 0
  saved : ∀ level ∈ e.saved, level = 0
  starts : front <+: e.line.toList

theorem line_push (text : String) (before after : Option Bool) (fallback : Bool) :
    (e.push text before after fallback).line = e.line ++ text ∨
      e.line ≠ "" ∧ (before <|> e.pending).getD fallback = true ∧
        (e.push text before after fallback).line = e.line ++ " " ++ text := by
  simp only [push]
  split
  · rename_i gap
    simp only [Bool.and_eq_true, Bool.not_eq_true', String.isEmpty_eq_false_iff] at gap
    exact .inr ⟨gap.1.1, gap.1.2, rfl⟩
  · exact .inl rfl

theorem Midway.push (midway : Midway front e) (text : String) (before after : Option Bool)
    (fallback : Bool) : Midway front (e.push text before after fallback) := by
  refine ⟨midway.level, midway.saved, midway.starts.trans ?_⟩
  rcases line_push text before after fallback with glued | ⟨-, -, apart⟩
  · rw [glued, String.toList_append]
    exact List.prefix_append _ _
  · rw [apart, String.toList_append, String.toList_append, List.append_assoc]
    exact List.prefix_append _ _

theorem Midway.line_ne (midway : Midway front e) (filled : front ≠ []) : e.line ≠ "" := by
  intro empty
  simpa [empty, filled] using midway.starts

theorem indentation_zero (layout : Layout) : indentation layout 0 = "" := by
  simp only [indentation]
  split <;> simp [String.join]

theorem Midway.flush (midway : Midway front e) (filled : front ≠ []) :
    FirstLine front (e.flush layout).2 := by
  refine ⟨e.line, [], ?_, midway.starts⟩
  simp [Emitter.flush, midway.line_ne filled, Event.line?, midway.level, indentation_zero]

/-- What a step makes of a line that starts with the given characters: it hands it on, or leaves
it to go on. -/
def Begins (front : List Char) (result : Emitter × List Event) : Prop :=
  FirstLine front result.2 ∨ result.2.filterMap Event.line? = [] ∧ Midway front result.1

theorem operator_behind {op : String} {context : Option String}
    (behind : (layout.spacing op context).newlineBefore = false ∨ e.line = "") :
    ∃ before after, ∃ breaks : Bool, e.operator layout op context =
      if breaks then (e.push op before after false).flush layout
      else (e.push op before after false, []) := by
  unfold operator
  refine ⟨if (layout.spacing op context).newlineBefore then none
    else (layout.spacing op context).spaceBefore, (layout.spacing op context).spaceAfter,
    (layout.spacing op context).newlineAfter, ?_⟩
  rcases behind with inLine | between
  · simp [inLine]
  · simp [flush, between]

theorem events_operator_apart {op : String} {context : Option String}
    (breaksBefore : (layout.spacing op context).newlineBefore = true) :
    ∃ more, (e.operator layout op context).2 = (e.flush layout).2 ++ more := by
  unfold operator
  simp only [breaksBefore, if_true]
  exact ⟨_, rfl⟩

theorem begins_pushed {pushed : Emitter} (filled : front ≠ []) (midway : Midway front pushed)
    (breaks : Bool) : Begins front (if breaks then pushed.flush layout else (pushed, [])) := by
  cases breaks with
  | true => exact .inl (midway.flush filled)
  | false => exact .inr ⟨rfl, midway⟩

theorem begins_operator (filled : front ≠ []) (midway : Midway front e) (op : String)
    (context : Option String) : Begins front (e.operator layout op context) := by
  by_cases breaksBefore : (layout.spacing op context).newlineBefore = true
  · obtain ⟨more, handed⟩ := events_operator_apart (e := e) breaksBefore
    exact .inl (handed ▸ (midway.flush filled).append more)
  · obtain ⟨before, after, breaks, pushed⟩ :=
      operator_behind (e := e) (.inl (Bool.not_eq_true _ ▸ breaksBefore))
    rw [pushed]
    exact begins_pushed filled (midway.push _ _ _ _) breaks

theorem firstLine_blankLine (filled : front ≠ []) (midway : Midway front e) :
    FirstLine front (e.blankLine layout).2 := by
  unfold blankLine
  dsimp only
  split
  · exact (midway.flush filled).append _
  · exact midway.flush filled

theorem begins_step (filled : front ≠ []) (midway : Midway front e) {op : Op}
    (stepped : e.step layout op = .ok (next, events)) : Begins front (next, events) := by
  have begun := midway.line_ne filled
  cases op with
  | start target =>
      cases stepped
      exact .inr ⟨rfl, midway⟩
  | emit text | keyword word | token text before after =>
      cases stepped
      exact .inr ⟨rfl, midway.push _ _ _ _⟩
  | operator op context =>
      rw [step, Except.ok.injEq] at stepped
      exact stepped ▸ begins_operator filled midway op context
  | endOfStatement context =>
      rw [step, Except.ok.injEq] at stepped
      exact stepped ▸ begins_operator filled midway ";" _
  | line text =>
      rw [step, Except.ok.injEq] at stepped
      exact stepped ▸ .inl ((midway.flush filled).append _)
  | flush =>
      rw [step, Except.ok.injEq] at stepped
      exact stepped ▸ .inl (midway.flush filled)
  | blankLine =>
      rw [step, Except.ok.injEq] at stepped
      exact stepped ▸ .inl (firstLine_blankLine filled midway)
  | blankLineIf path =>
      rw [step] at stepped
      split at stepped
      · rw [Except.ok.injEq] at stepped
        exact stepped ▸ .inl (firstLine_blankLine filled midway)
      · cases stepped
        exact .inr ⟨rfl, midway⟩
  | indent =>
      simp only [step, String.isEmpty_iff, begun, if_false, Except.ok.injEq, Prod.mk.injEq]
        at stepped
      obtain ⟨rfl, rfl⟩ := stepped
      exact .inr ⟨rfl, midway⟩
  | unindent =>
      simp only [step, String.isEmpty_iff, begun, if_false, Except.ok.injEq, Prod.mk.injEq]
        at stepped
      obtain ⟨rfl, rfl⟩ := stepped
      exact .inr ⟨rfl, midway⟩
  | pushIndent =>
      cases stepped
      exact .inr ⟨rfl, midway.level, by simpa [midway.level] using midway.saved, midway.starts⟩
  | popIndent =>
      rw [step] at stepped
      split at stepped
      · contradiction
      · rename_i level saved remembered
        cases stepped
        -- What was remembered on the way is the margin too.
        have margin := midway.saved
        rw [remembered, List.forall_mem_cons] at margin
        exact .inr ⟨rfl, margin.1, margin.2, midway.starts⟩

theorem Begins.firstLine {ops : List Op} (begins : Begins front (next, events))
    (goesOn : Midway front next → FirstLine front ((next.run layout ops).lines layout)) :
    FirstLine front (events ++ (next.run layout ops).lines layout) := by
  rcases begins with handed | ⟨silent, midway⟩
  · exact handed.append _
  · exact .after silent (goesOn midway)

/-- Whatever is run, a line without indentation is written with the characters that it starts
with. -/
theorem firstLine_run (filled : front ≠ []) (midway : Midway front e) {ops : List Op}
    (calm : (e.run layout ops).fault = none) :
    FirstLine front ((e.run layout ops).lines layout) := by
  induction ops generalizing e with
  | nil => exact midway.flush filled
  | cons op rest ih =>
      cases stepped : e.step layout op with
      | error fault => simp [run_cons_error stepped] at calm
      | ok result =>
          obtain ⟨next, events⟩ := result
          rw [run_cons_ok stepped] at calm ⊢
          rw [Outcome.lines, List.append_assoc]
          exact (begins_step filled midway stepped).firstLine fun midway => ih midway calm

theorem firstLine_begun {result : Emitter × List Event} (filled : front ≠ []) {op : Op}
    {rest : List Op} (stepped : e.step layout op = .ok result) (begins : Begins front result)
    (calm : (e.run layout (op :: rest)).fault = none) :
    FirstLine front ((e.run layout (op :: rest)).lines layout) := by
  obtain ⟨next, events⟩ := result
  rw [run_cons_ok stepped] at calm ⊢
  rw [Outcome.lines, List.append_assoc]
  exact begins.firstLine fun midway => firstLine_run filled midway calm

/-- An operation whose text stays close to what stands in front of it, if that wants no blank
behind it. -/
inductive Clings : Op → String → Prop
  | emit {text} : Clings (.emit text) text
  | keyword {word} : Clings (.keyword word) word
  | token {text after} : Clings (.token text none after) text

/-- What comes first in operations: a character, or nothing if they are the text of an empty name
or literal. Behind such a text, or for an array, it is the character of an operator, around which
the layout may put something. -/
inductive Opens : Option Char → List Op → Prop
  | silent : Opens none [.emit ""]
  | late {op context c rest} (first : op.toList.head? = some c) :
      Opens (some c) (.emit "" :: .operator op context :: rest)
  | array {context rest} : Opens (some '[') (.operator "[" context :: rest)
  | soon {op text c rest} (clings : Clings op text) (first : text.toList.head? = some c) :
      Opens (some c) (op :: rest)

structure Close (e : Emitter) : Prop where
  level : e.level = 0
  saved : ∀ level ∈ e.saved, level = 0
  close : e.line = "" ∨ e.pending = some false

theorem Close.line_push (at_ : Close e) (text : String) (after : Option Bool) (fallback : Bool) :
    (e.push text none after fallback).line = e.line ++ text := by
  rcases Emitter.line_push text none after fallback with glued | ⟨begun, space, -⟩
  · exact glued
  · obtain pending := at_.close.resolve_left begun
    simp [pending] at space

theorem prefix_glued {line text : String} {c : Char} (starts : text.toList.head? = some c) :
    line.toList ++ [c] <+: (line ++ text).toList := by
  obtain ⟨rest, chars⟩ := List.head?_eq_some_iff.mp starts
  simp [chars]

theorem Clings.firstLine {op : Op} {rest : List Op} {text : String} {c : Char}
    (clings : Clings op text) (starts : text.toList.head? = some c) (at_ : Close e)
    (calm : (e.run layout (op :: rest)).fault = none) :
    FirstLine (e.line.toList ++ [c]) ((e.run layout (op :: rest)).lines layout) := by
  have midway (after : Option Bool) (fallback : Bool) :
      Midway (e.line.toList ++ [c]) (e.push text none after fallback) :=
    ⟨at_.level, at_.saved, at_.line_push text after fallback ▸ prefix_glued starts⟩
  cases clings <;> exact firstLine_begun (by simp) rfl (.inr ⟨rfl, midway _ _⟩) calm

theorem firstLine_break (margin : e.level = 0) (begun : e.line ≠ "") :
    FirstLine (e.line.toList ++ ['\n']) (e.flush layout).2 := by
  have cut : trimEnd (e.line ++ "\n") = trimEnd e.line := by
    rw [trimEnd, trimEnd, String.toList_append]
    exact congrArg String.ofList (List.rdropWhile_concat_pos _ _ _ rfl)
  refine ⟨e.line ++ "\n", [], ?_, by simp⟩
  simp [Emitter.flush, begun, Event.line?, margin, indentation_zero, cut]

theorem firstLine_operator {op : String} {context : Option String} {rest : List Op} {c : Char}
    (starts : op.toList.head? = some c) (margin : e.level = 0)
    (saved : ∀ level ∈ e.saved, level = 0)
    (calm : (e.run layout (.operator op context :: rest)).fault = none) :
    ∃ d, (d = c ∨ isBlank d = true ∧ e.line ≠ "") ∧ FirstLine (e.line.toList ++ [d])
      ((e.run layout (.operator op context :: rest)).lines layout) := by
  by_cases behind : (layout.spacing op context).newlineBefore = false ∨ e.line = ""
  · obtain ⟨before, after, breaks, pushed⟩ := operator_behind behind
    have begun {d : Char} (next : Midway (e.line.toList ++ [d]) (e.push op before after false)) :
        FirstLine (e.line.toList ++ [d])
          ((e.run layout (.operator op context :: rest)).lines layout) := by
      refine firstLine_begun (by simp) rfl ?_ calm
      rw [pushed]
      exact begins_pushed (by simp) next breaks
    rcases line_push (e := e) op before after false with glued | ⟨filled, -, apart⟩
    · exact ⟨c, .inl rfl, begun ⟨margin, saved, glued ▸ prefix_glued starts⟩⟩
    · refine ⟨' ', .inr ⟨rfl, filled⟩, begun ⟨margin, saved, ?_⟩⟩
      rw [apart, String.toList_append, String.toList_append]
      exact List.prefix_append _ _
  · simp only [not_or, Bool.not_eq_false] at behind
    obtain ⟨more, handed⟩ := events_operator_apart (e := e) behind.1
    refine ⟨'\n', .inr ⟨rfl, behind.2⟩, firstLine_begun (by simp) rfl (.inl ?_) calm⟩
    rw [handed]
    exact (firstLine_break margin behind.2).append more

/-- The first character of operations comes right behind what is on the line. Where it is that of
an operator, a blank may come between. -/
theorem Opens.firstLine {ops : List Op} {c : Char} (opens : Opens (some c) ops)
    (at_ : Close e) (calm : (e.run layout ops).fault = none) :
    ∃ d, (d = c ∨ isBlank d = true ∧ e.line ≠ "" ∧ (ops.head? = some (.emit "") ∨ c = '[')) ∧
      FirstLine (e.line.toList ++ [d]) ((e.run layout ops).lines layout) := by
  cases opens with
  | soon clings starts => exact ⟨c, .inl rfl, clings.firstLine starts at_ calm⟩
  | array =>
      obtain ⟨d, next, begun⟩ := firstLine_operator (c := '[') rfl at_.level at_.saved calm
      exact ⟨d, next.imp_right fun blank => ⟨blank.1, blank.2, .inr rfl⟩, begun⟩
  | @late op context _ rest starts =>
      have same : (e.push "" none none false).line = e.line := by
        rw [at_.line_push "" none, String.append_empty]
      have stepped : e.step layout (.emit "") = .ok (e.push "" none none false, []) := rfl
      rw [run_cons_ok stepped] at calm ⊢
      simp only [Outcome.lines, List.nil_append] at calm ⊢
      obtain ⟨d, next, begun⟩ := firstLine_operator (e := e.push "" none none false) starts
        at_.level at_.saved calm
      rw [same] at next begun
      exact ⟨d, next.imp_right fun blank => ⟨blank.1, blank.2, .inl rfl⟩, begun⟩

end Emitter

def opsText (layout : Layout) (ops : List Op) : String :=
  joinLines (((Emitter.run layout {} ops).lines layout).filterMap Event.line?)

end Zephir
