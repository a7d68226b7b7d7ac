import Zephir.Proofs.Emit.Lookup
import Zephir.Proofs.Php.Declared

/-!
How the generator's operators are spaced. All of them are answered for by the longest key of their
hierarchy, except the two that are made of bars. The path for one of these is cut at the operator's
own bar, and none of the keys of its hierarchy is asked.
-/

namespace Zephir

def Op.operator? : Op → Option String
  | .operator op _ => some op
  | .endOfStatement _ => some ";"
  | _ => none

namespace Php

open Layout

/-- No text among those of the generator mixes a bar with other characters. -/
theorem bars_of_isWithin {op : Op} (within : op.isWithin = true) {text : String}
    (asks : op.operator? = some text) : '|' ∉ text.toList ∨ text = "|" ∨ text = "||" := by
  have braces : ∀ text ∈ ["\x7b", "\x7d", ";"], '|' ∉ text.toList := by decide +kernel
  have others : ∀ text ∈ operatorTexts, '|' ∉ text.toList ∨ text = "|" ∨ text = "||" := by
    decide +kernel
  cases op with
  | operator sign context =>
      cases asks
      simp only [Op.isWithin, Bool.or_eq_true, beq_iff_eq, List.contains_iff_mem] at within
      obtain (rfl | rfl) | among := within
      · exact .inl (braces _ (by simp))
      · exact .inl (braces _ (by simp))
      · exact others text among
  | endOfStatement context =>
      cases asks
      exact .inl (braces _ (by simp))
  | _ => contradiction

theorem unit_isWithin (nodes : List Node) : ∀ op ∈ (unit nodes).ops, op.isWithin = true := by
  have declared : Declared (fun _ => True) (unit nodes) := declared_unit fun _ _ => trivial
  exact declared.tame.within

/-- Whatever a unit is made of, no operator in its text has a bar, except those that are nothing but
one or two bars. In every layout and every context of words, each side of an operator without a bar
is spaced as the longest key of its hierarchy says. For an operator of bars other keys are asked,
with the operator behind an empty part or with no operator at all, and none of its hierarchy. -/
theorem spacing_follows_hierarchy (layout : Layout) (words : List String)
    (plain : ∀ word ∈ words, IsWord word) :
    (∀ nodes, ∀ op ∈ (unit nodes).ops, ∀ text ∈ op.operator?,
      '|' ∉ text.toList ∨ text = "|" ∨ text = "||") ∧
    (∀ op : String, '|' ∉ op.toList →
      SpacedBy layout (hierarchy op words) (layout.spacing op (contextOf words))) ∧
    ∀ op : String, op = "|" ∨ op = "||" →
      SpacedBy layout (barKeys op words) (layout.spacing op (contextOf words)) ∧
        ∀ family side,
          (barKeys op words family side).Disjoint (hierarchy op words family side) := by
  refine ⟨?_, ?_, ?_⟩
  · intro nodes op among text asks
    exact bars_of_isWithin (unit_isWithin nodes op among) asks
  · exact fun op noBar => spacedBy_hierarchy layout plain noBar
  · intro op bars
    exact ⟨spacedBy_barKeys layout plain bars, barKeys_disjoint_hierarchy bars words⟩

def barLayout : Layout :=
  Layout.empty.override [("spaces.|", .flag true), ("spaces.(", .flag false),
    ("spaces.(.before.control", .flag true)]

/-- The longer key answers for the parenthesis, and the key of the bar does not for the bar. -/
theorem barLayout_spacing :
    IsWord "control" ∧
    SpacedBy barLayout (hierarchy "(" ["control"])
      (barLayout.spacing "(" (contextOf ["control"])) ∧
    barLayout.spacing "(" (contextOf ["control"]) = ⟨some true, some false, false, false⟩ ∧
    SpacedBy barLayout (barKeys "|" ["control"])
      (barLayout.spacing "|" (contextOf ["control"])) ∧
    barLayout.spacing "|" (contextOf ["control"]) = ⟨none, none, false, false⟩ ∧
    Longest barLayout (hierarchy "|" ["control"] "spaces" "before") (some (.flag true)) := by
  have plain : ∀ word ∈ ["control"], IsWord word := by decide +kernel
  obtain ⟨-, barless, bars⟩ := spacing_follows_hierarchy barLayout ["control"] plain
  refine ⟨plain _ List.mem_cons_self, barless "(" (by decide +kernel), by decide +kernel,
    (bars "|" (.inl rfl)).1, by decide +kernel, "spaces.|", ?_⟩
  decide +kernel

end Php

end Zephir
