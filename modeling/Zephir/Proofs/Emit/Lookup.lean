import Mathlib.Data.List.Infix
import Zephir.Layout
import Zephir.Proofs.Text.Cutting

/-!
Which setting answers for an operator. A question names a family of keys, the operator, a side of it
and a context; the keys that are asked are those with more and more words of the context left out,
and last that of the operator alone. Of the keys that a layout has, the longest one answers. The
bar that separates the operator from the side is the first one of the path, so that this only holds
of operators without a bar.
-/

namespace Zephir.Layout

def IsWord (word : String) : Prop :=
  ∀ c ∈ word.toList, c ≠ '.' ∧ c ≠ '|' ∧ Text.isBlank c = false

instance (word : String) : Decidable (IsWord word) :=
  List.decidableBAll (fun c => c ≠ '.' ∧ c ≠ '|' ∧ Text.isBlank c = false) word.toList

def extend (key : String) (words : List String) : String :=
  String.join (key :: words.map ("." ++ ·))

def contextOf : List String → Option String
  | [] => none
  | word :: rest => some (extend word rest)

/-- The keys from one with all words down to one without any, and then a last one. -/
def ladder (key last : String) (words : List String) : List String :=
  (words.inits.map (extend key)).reverse ++ [last]

/-- The keys that speak of a side of an operator in a context: the longest one has the whole
context, and the shortest one has neither context nor side. -/
def hierarchy (op : String) (words : List String) (family side : String) : List String :=
  ladder (family ++ "." ++ operatorKey op ++ "." ++ side) (family ++ "." ++ operatorKey op) words

/-- The keys that are asked for an operator made of bars, of which the first is taken for the
separator. -/
def barKeys (op : String) (words : List String) (family side : String) : List String :=
  ladder (family ++ ".." ++ op ++ side) (family ++ ".") words

theorem toList_extend (key : String) (words : List String) :
    (extend key words).toList = key.toList ++ words.flatMap fun word => '.' :: word.toList := by
  rw [extend, String.join_cons, String.toList_append]
  congr 1
  induction words with
  | nil => rfl
  | cons word rest ih => simp [ih]

theorem extend_cons (key word : String) (rest : List String) :
    extend key (word :: rest) = extend (key ++ "." ++ word) rest := by
  apply String.toList_injective
  simp [toList_extend]

theorem sidePath_contextOf (family op side : String) (words : List String) :
    (sidePath family op side (contextOf words)).toList =
      family.toList ++ '.' :: ((operatorKey op).toList ++ '|' :: (extend side words).toList) := by
  cases words <;> simp [sidePath, contextOf, toList_extend]

/-! ## The keys of a path -/

theorem tail_inits {α : Type} (parts : List α) :
    parts.inits.tail = (List.range parts.length).map fun n => parts.take (n + 1) := by
  apply List.ext_getElem
  · simp
  · intro n _ _
    simp

theorem intercalate_cons_parents {parts : List (List Char)} (filled : parts ≠ []) :
    ['.'].intercalate parts :: parents parts =
      (parts.inits.tail.map (['.'].intercalate ·)).reverse := by
  obtain ⟨count, length⟩ := Nat.exists_eq_succ_of_ne_zero (mt List.length_eq_zero_iff.mp filled)
  have whole : parts.take (count + 1) = parts := List.take_of_length_le length.le
  rw [tail_inits, length, List.range_succ, parents, length]
  simp [whole, Function.comp_def]

theorem tail_inits_cons_cons {α : Type} (first second : α) (rest : List α) :
    (first :: second :: rest).inits.tail =
      [first] :: rest.inits.map fun front => first :: second :: front := by
  simp

theorem inits_map {α β : Type} (f : α → β) (parts : List α) :
    (parts.map f).inits = parts.inits.map (List.map f) := by
  induction parts with
  | nil => rfl
  | cons part rest ih => simp [ih]

theorem ofList_intercalate_dot (lead second : String) (words : List String) :
    String.ofList (['.'].intercalate (lead.toList :: second.toList :: words.map String.toList)) =
      extend (lead ++ "." ++ second) words := by
  apply String.toList_injective
  simp [Text.intercalate_cons, toList_extend, List.flatMap_map]

theorem pieces_extend {side : String} {words : List String} (noDot : '.' ∉ side.toList)
    (plain : ∀ word ∈ words, IsWord word) :
    Text.pieces '.' (extend side words).toList = side.toList :: words.map String.toList := by
  induction words generalizing side with
  | nil =>
      rw [toList_extend, List.flatMap_nil, List.append_nil]
      exact Text.pieces_of_notMem noDot
  | cons word rest ih =>
      rw [List.forall_mem_cons] at plain
      have noDotWord : '.' ∉ word.toList := fun among => (plain.1 '.' among).1 rfl
      have follows := ih noDotWord plain.2
      rw [toList_extend] at follows ⊢
      rw [List.flatMap_cons, List.cons_append, Text.pieces_append noDot, follows, List.map_cons]

/-- The keys of a path with a bar are the fronts of its parts. The path has to start and end with
characters that trimming leaves, and no bar may stand at its end. -/
theorem keys_of_cut {path : String} {first last : Char} {between lead tail : List Char}
    (shape : path.toList = first :: between ++ [last]) (inkedFirst : Text.isBlank first = false)
    (inkedLast : Text.isBlank last = false) (noBar : last ≠ '|')
    (cut : path.toList = lead ++ '|' :: tail) (whole : '|' ∉ lead) :
    keys path = (((lead :: Text.pieces '.' tail).inits.tail.map (['.'].intercalate ·)).reverse).map
      String.ofList := by
  have trimmed : Text.trimChars path.toList = path.toList := by
    rw [shape]
    exact Text.trimChars_of_ends inkedFirst inkedLast between
  have noEnd : Text.beforeLast? '|' path.toList = none := by
    rw [shape]
    exact Text.beforeLast?_concat_ne noBar _
  have joined : ['.'].intercalate (lead :: Text.pieces '.' tail) = lead ++ '.' :: tail := by
    rw [Text.intercalate_cons]
    exact congrArg (lead ++ ·) (Text.flatMap_pieces '.' tail)
  rw [keys, trimmed, ← intercalate_cons_parents (List.cons_ne_nil _ _), joined]
  -- in a step of its own, since `cut` would rewrite the path of which `noEnd` speaks
  simp only [noEnd]
  simp only [dotted, parts, cut, Text.cutAt_append whole]

theorem extend_eq_concat {side : String} {words : List String} (isSide : IsWord side)
    (named : side ≠ "") (plain : ∀ word ∈ words, IsWord word) :
    ∃ before last, (extend side words).toList = before ++ [last] ∧
      Text.isBlank last = false ∧ last ≠ '|' := by
  have dotFine : Text.isBlank '.' = false ∧ '.' ≠ '|' := by decide
  have inked : ∀ c ∈ (extend side words).toList, Text.isBlank c = false ∧ c ≠ '|' := by
    intro c among
    -- a character is one of the side, a dot, or one of a word
    rw [toList_extend, List.mem_append, List.mem_flatMap] at among
    obtain ofSide | ⟨word, ofWords, inWord⟩ := among
    · exact ⟨(isSide c ofSide).2.2, (isSide c ofSide).2.1⟩
    · obtain rfl | ofWord := List.mem_cons.mp inWord
      · exact dotFine
      · exact ⟨(plain word ofWords c ofWord).2.2, (plain word ofWords c ofWord).2.1⟩
  have nonempty : (extend side words).toList ≠ [] := by
    simp [toList_extend, named]
  refine ⟨_, _, (List.dropLast_concat_getLast nonempty).symm, ?_⟩
  exact inked _ (List.getLast_mem nonempty)

theorem keys_eq_ladder {path lead first side : String} {words : List String}
    (cut : path.toList = lead.toList ++ '|' :: (first.toList ++ (extend side words).toList))
    (whole : '|' ∉ lead.toList) (inked : ∃ c rest, lead.toList = c :: rest ∧ Text.isBlank c = false)
    (isSide : IsWord side) (named : side ≠ "") (noDot : '.' ∉ first.toList)
    (plain : ∀ word ∈ words, IsWord word) :
    keys path = ladder (lead ++ "." ++ first ++ side) lead words := by
  obtain ⟨c, rest, starts, inkedFirst⟩ := inked
  obtain ⟨before, last, ends, inkedLast, noBar⟩ := extend_eq_concat isSide named plain
  have shape : path.toList = c :: (rest ++ '|' :: (first.toList ++ before)) ++ [last] := by
    simp [cut, starts, ends]
  have noDotSide : '.' ∉ (first ++ side).toList := by
    rw [String.toList_append, List.mem_append, not_or]
    exact ⟨noDot, fun among => (isSide '.' among).1 rfl⟩
  have tail : first.toList ++ (extend side words).toList =
      (extend (first ++ side) words).toList := by
    simp [toList_extend]
  rw [keys_of_cut shape inkedFirst inkedLast noBar cut whole, tail, pieces_extend noDotSide plain,
    tail_inits_cons_cons, List.map_cons, List.reverse_cons, List.map_append, ladder]
  congr 1
  -- the fronts with two parts or more, and then the front that is `lead` alone
  · simp only [List.map_reverse, List.map_map, inits_map, Function.comp_def,
      ofList_intercalate_dot, String.append_assoc]
  · simp

/-! ## The keys of an operator -/

theorem bar_notMem_operatorKey {op : String} (noBar : '|' ∉ op.toList) :
    '|' ∉ (operatorKey op).toList := by
  unfold operatorKey
  split
  · rename_i rest spelled
    rw [spelled, List.mem_cons, not_or] at noBar
    simp [noBar.2]
  · exact noBar

structure Asks (family side : String) : Prop where
  inked : ∃ c rest, family.toList = c :: rest ∧ Text.isBlank c = false
  noBar : '|' ∉ family.toList
  word : IsWord side
  named : side ≠ ""

variable {family side op : String} {words : List String}

theorem asks_about (isFamily : family = "spaces" ∨ family = "newlines")
    (isSide : side = "before" ∨ side = "after") : Asks family side where
  inked := by
    obtain rfl | rfl := isFamily
    · exact ⟨'s', "paces".toList, by decide +kernel, by decide⟩
    · exact ⟨'n', "ewlines".toList, by decide +kernel, by decide⟩
  noBar := by obtain rfl | rfl := isFamily <;> decide +kernel
  word := by obtain rfl | rfl := isSide <;> decide +kernel
  named := by obtain rfl | rfl := isSide <;> decide

theorem keys_sidePath (asks : Asks family side) (plain : ∀ word ∈ words, IsWord word)
    (noBar : '|' ∉ op.toList) :
    keys (sidePath family op side (contextOf words)) = hierarchy op words family side := by
  obtain ⟨c, rest, starts, inkedFirst⟩ := asks.inked
  have cut : (sidePath family op side (contextOf words)).toList =
      (family ++ "." ++ operatorKey op).toList ++
        '|' :: ("".toList ++ (extend side words).toList) := by
    simp [sidePath_contextOf]
  have whole : '|' ∉ (family ++ "." ++ operatorKey op).toList := by
    simp [asks.noBar, bar_notMem_operatorKey noBar]
  have inked : ∃ c rest, (family ++ "." ++ operatorKey op).toList = c :: rest ∧
      Text.isBlank c = false :=
    ⟨c, rest ++ '.' :: (operatorKey op).toList, by simp [starts], inkedFirst⟩
  rw [keys_eq_ladder cut whole inked asks.word asks.named (by simp) plain, hierarchy,
    String.append_empty]

theorem keys_sidePath_bars (asks : Asks family side) (plain : ∀ word ∈ words, IsWord word)
    (bars : op = "|" ∨ op = "||") :
    keys (sidePath family op side (contextOf words)) = barKeys op words family side := by
  obtain ⟨c, rest, starts, inkedFirst⟩ := asks.inked
  have cut : (sidePath family op side (contextOf words)).toList =
      (family ++ ".").toList ++ '|' :: (op.toList ++ (extend side words).toList) := by
    obtain rfl | rfl := bars <;> simp [sidePath_contextOf, operatorKey]
  have whole : '|' ∉ (family ++ ".").toList := by
    simp [asks.noBar]
  have inked : ∃ c rest, (family ++ ".").toList = c :: rest ∧ Text.isBlank c = false :=
    ⟨c, rest ++ ['.'], by simp [starts], inkedFirst⟩
  have noDot : '.' ∉ op.toList := by
    obtain rfl | rfl := bars <;> simp
  have dots : family ++ "." ++ "." = family ++ ".." := by
    simp [String.append_assoc]
  rw [keys_eq_ladder cut whole inked asks.word asks.named noDot plain, barKeys, dots]

/-! ## The longest key -/

/-- The setting of the longest key that the layout has among some; none if it has none of them. -/
def Longest (layout : Layout) (keys : List String) : Option Setting → Prop
  | none => ∀ key ∈ keys, layout.settings.get? key = none
  | some setting => ∃ key ∈ keys, layout.settings.get? key = some setting ∧
      ∀ other ∈ keys, layout.settings.get? other ≠ none → other = key ∨ other.length < key.length

theorem longest_findSome? (layout : Layout) {keys : List String}
    (falling : keys.Pairwise fun key other => other.length < key.length) :
    Longest layout keys (keys.findSome? layout.settings.get?) := by
  induction keys with
  | nil => simp [Longest]
  | cons key rest ih =>
      obtain ⟨below, falling⟩ := List.pairwise_cons.mp falling
      cases asked : layout.settings.get? key with
      | some setting =>
          rw [List.findSome?_cons, asked]
          refine ⟨key, List.mem_cons_self, asked, ?_⟩
          intro other among _
          exact (List.mem_cons.mp among).imp_right (below other)
      | none =>
          rw [List.findSome?_cons, asked]
          have longest := ih falling
          cases found : rest.findSome? layout.settings.get? with
          | none =>
              rw [found] at longest
              exact List.forall_mem_cons.mpr ⟨asked, longest⟩
          | some setting =>
              rw [found] at longest
              obtain ⟨best, among, present, others⟩ := longest
              refine ⟨best, List.mem_cons_of_mem key among, present, ?_⟩
              intro other inKeys known
              obtain rfl | inRest := List.mem_cons.mp inKeys
              · exact absurd asked known
              · exact others other inRest known

theorem length_le_extend (key : String) (words : List String) :
    key.length ≤ (extend key words).length := by
  simp [← String.length_toList, toList_extend]

theorem map_extend_inits_cons (key word : String) (rest : List String) :
    (word :: rest).inits.map (extend key) =
      key :: rest.inits.map (extend (key ++ "." ++ word)) := by
  have bare : extend key [] = key := by
    apply String.toList_injective
    simp [toList_extend]
  simp [bare, Function.comp_def, extend_cons]

theorem extend_rising (key : String) (words : List String) :
    (words.inits.map (extend key)).Pairwise fun key other => key.length < other.length := by
  induction words generalizing key with
  | nil => simp
  | cons word rest ih =>
      rw [map_extend_inits_cons, List.pairwise_cons]
      refine ⟨?_, ih _⟩
      intro other among
      obtain ⟨front, -, rfl⟩ := List.mem_map.mp among
      have longer := length_le_extend (key ++ "." ++ word) front
      have dot : ".".length = 1 := by decide
      rw [String.length_append, String.length_append, dot] at longer
      omega

theorem ladder_falling {key last : String} (shorter : last.length < key.length)
    (words : List String) :
    (ladder key last words).Pairwise fun key other => other.length < key.length := by
  rw [ladder, List.pairwise_append]
  refine ⟨List.pairwise_reverse.mpr (extend_rising key words), List.pairwise_singleton _ _, ?_⟩
  intro rung among other isLast
  obtain rfl := List.mem_singleton.mp isLast
  obtain ⟨front, -, rfl⟩ := List.mem_map.mp (List.mem_reverse.mp among)
  exact Nat.lt_of_lt_of_le shorter (length_le_extend key front)

/-- Each answer about an operator is that of the longest key that the layout has, among those for
a family and a side. Without such a key there is no opinion about a blank, and no line ends. -/
structure SpacedBy (layout : Layout) (keys : String → String → List String) (spacing : Spacing) :
    Prop where
  spaceBefore : ∃ found, Longest layout (keys "spaces" "before") found ∧
    spacing.spaceBefore = found.map Setting.asFlag
  spaceAfter : ∃ found, Longest layout (keys "spaces" "after") found ∧
    spacing.spaceAfter = found.map Setting.asFlag
  newlineBefore : ∃ found, Longest layout (keys "newlines" "before") found ∧
    spacing.newlineBefore = (found.map Setting.asFlag).getD false
  newlineAfter : ∃ found, Longest layout (keys "newlines" "after") found ∧
    spacing.newlineAfter = (found.map Setting.asFlag).getD false

/-- What is asked in the order of falling length is answered by the longest key. -/
theorem spacedBy_of_keys {layout : Layout} {context : Option String}
    {asked : String → String → List String}
    (same : ∀ family side, Asks family side →
      keys (sidePath family op side context) = asked family side)
    (falling : ∀ family side,
      (asked family side).Pairwise fun key other => other.length < key.length) :
    SpacedBy layout asked (layout.spacing op context) := by
  have answer (family side : String) (isFamily : family = "spaces" ∨ family = "newlines")
      (isSide : side = "before" ∨ side = "after") :
      ∃ found, Longest layout (asked family side) found ∧
        layout.flag? (sidePath family op side context) = found.map Setting.asFlag := by
    have asks := asks_about isFamily isSide
    refine ⟨layout.get? (sidePath family op side context), ?_, rfl⟩
    rw [get?, same family side asks]
    exact longest_findSome? layout (falling family side)
  have opinion (side : String) (isSide : side = "before" ∨ side = "after") :
      ∃ found, Longest layout (asked "newlines" side) found ∧
        (layout.flag? (sidePath "newlines" op side context)).getD false =
          (found.map Setting.asFlag).getD false := by
    obtain ⟨found, longest, flag⟩ := answer "newlines" side (.inr rfl) isSide
    exact ⟨found, longest, by rw [flag]⟩
  constructor <;> simp only [spacing]
  · exact answer "spaces" "before" (.inl rfl) (.inl rfl)
  · exact answer "spaces" "after" (.inl rfl) (.inr rfl)
  · exact opinion "before" (.inl rfl)
  · exact opinion "after" (.inr rfl)

theorem spacedBy_hierarchy (layout : Layout) (plain : ∀ word ∈ words, IsWord word)
    (noBar : '|' ∉ op.toList) :
    SpacedBy layout (hierarchy op words) (layout.spacing op (contextOf words)) := by
  refine spacedBy_of_keys (fun _ _ asks => keys_sidePath asks plain noBar) ?_
  intro family side
  apply ladder_falling
  have dot : ".".length = 1 := by decide
  simp only [String.length_append]
  omega

theorem spacedBy_barKeys (layout : Layout) (plain : ∀ word ∈ words, IsWord word)
    (bars : op = "|" ∨ op = "||") :
    SpacedBy layout (barKeys op words) (layout.spacing op (contextOf words)) := by
  refine spacedBy_of_keys (fun _ _ asks => keys_sidePath_bars asks plain bars) ?_
  intro family side
  apply ladder_falling
  have dot : ".".length = 1 := by decide
  have dots : "..".length = 2 := by decide
  simp only [String.length_append]
  omega

theorem toList_of_mem_ladder {key last rung : String} {words : List String}
    (among : rung ∈ ladder key last words) :
    (∃ more, rung.toList = key.toList ++ more) ∨ rung = last := by
  obtain inRungs | isLast := List.mem_append.mp among
  · obtain ⟨front, -, rfl⟩ := List.mem_map.mp (List.mem_reverse.mp inRungs)
    exact .inl ⟨_, toList_extend key front⟩
  · exact .inr (List.mem_singleton.mp isLast)

/-- No key of the hierarchy is asked for an operator made of bars. -/
theorem barKeys_disjoint_hierarchy (bars : op = "|" ∨ op = "||") (words : List String)
    (family side : String) :
    (barKeys op words family side).Disjoint (hierarchy op words family side) := by
  intro key asked inHierarchy
  -- behind the family and its dot stands a bar in the one list, and a dot or nothing in the other
  have bar : ∃ more, key.toList = family.toList ++ '.' :: '|' :: more := by
    obtain ⟨more, rest⟩ | rfl := toList_of_mem_ladder inHierarchy
    · obtain rfl | rfl := bars <;> simp [rest, operatorKey]
    · obtain rfl | rfl := bars <;> simp [operatorKey]
  have noBar : (∃ more, key.toList = family.toList ++ '.' :: '.' :: more) ∨
      key.toList = family.toList ++ ['.'] := by
    obtain ⟨more, rest⟩ | rfl := toList_of_mem_ladder asked
    · exact .inl ⟨op.toList ++ side.toList ++ more, by simp [rest]⟩
    · exact .inr (by simp)
  obtain ⟨more, spelled⟩ := bar
  obtain ⟨other, dots⟩ | dots := noBar <;> simp [spelled] at dots

end Zephir.Layout
