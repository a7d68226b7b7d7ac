import Mathlib.Data.List.Nodup
import Zephir.Lowering.Visibility

/-!
The canonical modifiers of a method. Words that make sense together have exactly one canonical
form, and it depends on what is said and not on how often or in which order. The modifiers that
are gathered hold what the words say; the rest follows from the form alone.
-/

namespace Zephir

def knownModifiers : List String :=
  ["public", "protected", "private", "internal", "static", "abstract", "final", "inline",
    "deprecated"]

def modifierOrder : List String :=
  ["abstract", "final", "public", "protected", "private", "static"]

def Says (words : List String) (word : String) : Prop :=
  ∃ raw ∈ words, Text.trim raw = word

def Grants (words : List String) (access : Access) : Prop :=
  Says words access.text ∨ access = .private_ ∧ Says words "internal"

/-- All words are known, and they agree on who has access. -/
@[mk_iff]
structure Sensible (words : List String) : Prop where
  known : ∀ raw ∈ words, Text.trim raw ∈ knownModifiers
  agree : ∀ first second, Grants words first → Grants words second → first = second

/-- The canonical form of the words: in order and without repetition, with the one access that the
words give, or else public access, and with exactly the flags that they hold. -/
@[mk_iff]
structure IsCanonical (words result : List String) : Prop where
  ordered : result.Sublist modifierOrder
  distinct : result.Nodup
  oneAccess : ∃! access : Access, access.text ∈ result
  access : ∀ access : Access, access.text ∈ result ↔
    Grants words access ∨ access = .public_ ∧ ∀ other, ¬Grants words other
  flags : ∀ flag ∈ ["abstract", "final", "static"], flag ∈ result ↔ Says words flag

def Modifier.spellings : Modifier → List String
  | .access .public_ => ["public"]
  | .access .protected_ => ["protected"]
  | .access .private_ => ["private", "internal"]
  | .isAbstract => ["abstract"]
  | .isFinal => ["final"]
  | .isStatic => ["static"]
  | .ignored => ["inline", "deprecated"]

theorem Modifier.ofText?_eq_some_iff {text : String} {modifier : Modifier} :
    Modifier.ofText? text = some modifier ↔ text ∈ modifier.spellings := by
  constructor
  · intro found
    unfold Modifier.ofText? at found
    split at found <;> cases found <;> simp [spellings]
  · have read : ∀ word ∈ modifier.spellings, Modifier.ofText? word = some modifier := by
      rcases modifier with (_ | _ | _) | _ | _ | _ | _ <;> decide
    exact read text

theorem Modifier.isSome_ofText?_iff {text : String} :
    (Modifier.ofText? text).isSome ↔ text ∈ knownModifiers := by
  constructor
  · intro found
    obtain ⟨modifier, found⟩ := Option.isSome_iff_exists.mp found
    have known : ∀ word ∈ modifier.spellings, word ∈ knownModifiers := by
      rcases modifier with (_ | _ | _) | _ | _ | _ | _ <;> decide
    exact known text (Modifier.ofText?_eq_some_iff.mp found)
  · have read : ∀ word ∈ knownModifiers, (Modifier.ofText? word).isSome := by decide
    exact read text

namespace Modifiers

variable {m next result : Modifiers} {method : String} {pos : Position} {words : List String}

def Holds (m : Modifiers) : Modifier → Prop
  | .access access => m.access = some access
  | .isAbstract => m.isAbstract
  | .isFinal => m.isFinal
  | .isStatic => m.isStatic
  | .ignored => True

theorem ext_holds (same : ∀ modifier, m.Holds modifier ↔ next.Holds modifier) : m = next := by
  obtain ⟨access, isAbstract, isFinal, isStatic⟩ := m
  obtain ⟨access', isAbstract', isFinal', isStatic'⟩ := next
  have sameAccess : access = access' := Option.ext fun given => same (.access given)
  have sameAbstract : isAbstract = isAbstract' := Bool.eq_iff_iff.mpr (same .isAbstract)
  have sameFinal : isFinal = isFinal' := Bool.eq_iff_iff.mpr (same .isFinal)
  have sameStatic : isStatic = isStatic' := Bool.eq_iff_iff.mpr (same .isStatic)
  rw [sameAccess, sameAbstract, sameFinal, sameStatic]

theorem add_cases (method : String) (pos : Position) (m : Modifiers) (modifier : Modifier) :
    (∃ next, m.add method pos modifier = .ok next ∧
      ∀ other, next.Holds other ↔ m.Holds other ∨ other = modifier) ∨
    ∃ first second d, m.access = some first ∧ modifier = .access second ∧ first ≠ second ∧
      m.add method pos modifier = .error d := by
  cases modifier with
  | access access =>
      cases held : m.access with
      | none =>
          refine .inl ⟨{ m with access := some access }, by simp [add, held], ?_⟩
          intro other
          cases other <;> simp [Holds, held, eq_comm (a := access)]
      | some first =>
          by_cases same : first = access
          · refine .inl ⟨m, by simp [add, held, same], ?_⟩
            intro other
            cases other <;> simp [Holds, held, same, eq_comm (a := access)]
          · let cause := Cause.conflictingVisibility method first.text access.text
            exact .inr ⟨first, access, cause.at pos, rfl, rfl, same,
              by simp only [add, held, same, if_false, cause]⟩
  | isAbstract =>
      refine .inl ⟨{ m with isAbstract := true }, rfl, ?_⟩
      intro other
      cases other <;> simp [Holds]
  | isFinal =>
      refine .inl ⟨{ m with isFinal := true }, rfl, ?_⟩
      intro other
      cases other <;> simp [Holds]
  | isStatic =>
      refine .inl ⟨{ m with isStatic := true }, rfl, ?_⟩
      intro other
      cases other <;> simp [Holds]
  | ignored =>
      refine .inl ⟨m, rfl, ?_⟩
      intro other
      cases other <;> simp [Holds]

def Names (words : List String) (modifier : Modifier) : Prop :=
  ∃ raw ∈ words, Modifier.ofText? (Text.trim raw) = some modifier

theorem names_cons {raw : String} {modifier : Modifier}
    (read : Modifier.ofText? (Text.trim raw) = some modifier) (other : Modifier) :
    Names (raw :: words) other ↔ other = modifier ∨ Names words other := by
  simp [Names, read, eq_comm]

/-- Words are gathered exactly if all of them are known and there is something that holds what was
held before and what they name. -/
theorem addAll_eq_ok_iff :
    addAll method pos m words = .ok result ↔
      (∀ raw ∈ words, (Modifier.ofText? (Text.trim raw)).isSome) ∧
      ∀ modifier, result.Holds modifier ↔ m.Holds modifier ∨ Names words modifier := by
  induction words generalizing m with
  | nil =>
      simp only [addAll, Names, List.not_mem_nil, false_and, exists_false, or_false, false_imp_iff,
        implies_true, true_and, Except.ok.injEq]
      exact ⟨fun same modifier => same ▸ Iff.rfl, fun same => (ext_holds same).symm⟩
  | cons raw rest ih =>
      rw [addAll, List.forall_mem_cons]
      cases read : Modifier.ofText? (Text.trim raw) with
      | none => simp
      | some modifier =>
          simp only [names_cons read, Option.isSome_some, true_and]
          rcases add_cases method pos m modifier with ⟨next, added, holds⟩ |
            ⟨first, second, d, held, rfl, differs, refused⟩
          · simp only [added, ih, holds, or_assoc]
          · simp only [refused, reduceCtorEq, false_iff, not_and]
            intro _ holds
            have holdsFirst : result.access = some first := (holds (.access first)).mpr (.inl held)
            have holdsSecond : result.access = some second :=
              (holds (.access second)).mpr (.inr (.inl rfl))
            exact differs (Option.some.inj (holdsFirst.symm.trans holdsSecond))

theorem names_iff {modifier : Modifier} :
    Names words modifier ↔ ∃ word ∈ modifier.spellings, Says words word := by
  constructor
  · rintro ⟨raw, among, read⟩
    exact ⟨Text.trim raw, Modifier.ofText?_eq_some_iff.mp read, raw, among, rfl⟩
  · rintro ⟨word, spelled, raw, among, same⟩
    exact ⟨raw, among, Modifier.ofText?_eq_some_iff.mpr (same ▸ spelled)⟩

theorem grants_iff {access : Access} :
    Grants words access ↔ ∃ word ∈ (Modifier.access access).spellings, Says words word := by
  cases access <;> simp [Grants, Modifier.spellings, Access.text]

theorem agree_of_access {given : Option Access}
    (said : ∀ access, given = some access ↔ Grants words access) (first second : Access)
    (grantsFirst : Grants words first) (grantsSecond : Grants words second) : first = second := by
  have isFirst := (said first).mpr grantsFirst
  have isSecond := (said second).mpr grantsSecond
  exact Option.some.inj (isFirst.symm.trans isSecond)

theorem addAll_start_iff :
    addAll method pos {} words = .ok result ↔
      (∀ raw ∈ words, Text.trim raw ∈ knownModifiers) ∧
      (∀ access, result.access = some access ↔ Grants words access) ∧
      (result.isAbstract ↔ Says words "abstract") ∧ (result.isFinal ↔ Says words "final") ∧
      (result.isStatic ↔ Says words "static") := by
  simp only [addAll_eq_ok_iff, names_iff, Modifier.isSome_ofText?_iff]
  refine and_congr_right fun _ => ?_
  constructor
  · intro holds
    have access (given : Access) : result.access = some given ↔ Grants words given := by
      simpa [Holds, grants_iff] using holds (.access given)
    exact ⟨access, by simpa [Holds, Modifier.spellings] using holds .isAbstract,
      by simpa [Holds, Modifier.spellings] using holds .isFinal,
      by simpa [Holds, Modifier.spellings] using holds .isStatic⟩
  · rintro ⟨access, isAbstract, isFinal, isStatic⟩ modifier
    cases modifier with
    | access given => simpa [Holds, grants_iff] using access given
    | isAbstract => simpa [Holds, Modifier.spellings] using isAbstract
    | isFinal => simpa [Holds, Modifier.spellings] using isFinal
    | isStatic => simpa [Holds, Modifier.spellings] using isStatic
    | ignored => simp [Holds]

theorem exists_addAll_iff (method : String) (pos : Position) :
    (∃ result, addAll method pos {} words = .ok result) ↔ Sensible words := by
  classical
  constructor
  · rintro ⟨result, gathered⟩
    obtain ⟨known, access, -⟩ := addAll_start_iff.mp gathered
    exact ⟨known, agree_of_access access⟩
  · rintro ⟨known, agree⟩
    have given : ∃ given : Option Access, ∀ access, given = some access ↔ Grants words access := by
      by_cases anyone : ∃ access, Grants words access
      · obtain ⟨first, grants⟩ := anyone
        refine ⟨some first, fun access => ?_⟩
        simp only [Option.some.injEq]
        exact ⟨fun same => same ▸ grants, agree first access grants⟩
      · exact ⟨none, fun access => by simpa using fun grants => anyone ⟨access, grants⟩⟩
    obtain ⟨given, said⟩ := given
    exact ⟨⟨given, decide (Says words "abstract"), decide (Says words "final"),
      decide (Says words "static")⟩, addAll_start_iff.mpr ⟨known, said, by simp, by simp, by simp⟩⟩

theorem toList_sublist (m : Modifiers) : m.toList.Sublist modifierOrder := by
  have flag (held : Bool) (word : String) : (if held then [word] else []).Sublist [word] := by
    cases held <;> simp
  have access : [(m.access.getD .public_).text].Sublist ["public", "protected", "private"] := by
    cases m.access.getD .public_ <;> simp [Access.text]
  exact (((flag m.isAbstract "abstract").append (flag m.isFinal "final")).append access).append
    (flag m.isStatic "static")

theorem access_mem_toList {access : Access} :
    access.text ∈ m.toList ↔ m.access.getD .public_ = access := by
  have words : access.text ≠ "abstract" ∧ access.text ≠ "final" ∧ access.text ≠ "static" := by
    cases access <;> decide
  have injective : ∀ other : Access, access.text = other.text ↔ other = access := by
    intro other
    cases access <;> cases other <;> decide
  simp [toList, words, injective]

theorem flags_mem_toList (m : Modifiers) :
    ("abstract" ∈ m.toList ↔ m.isAbstract) ∧ ("final" ∈ m.toList ↔ m.isFinal) ∧
      ("static" ∈ m.toList ↔ m.isStatic) := by
  have words (access : Access) : access.text ≠ "abstract" ∧ access.text ≠ "final" ∧
      access.text ≠ "static" := by
    cases access <;> decide
  obtain ⟨noAbstract, noFinal, noStatic⟩ := words (m.access.getD .public_)
  simp [toList, noAbstract.symm, noFinal.symm, noStatic.symm]

theorem isCanonical_toList (gathered : addAll method pos {} words = .ok result) :
    IsCanonical words result.toList := by
  obtain ⟨-, access, isAbstract, isFinal, isStatic⟩ := addAll_start_iff.mp gathered
  obtain ⟨hasAbstract, hasFinal, hasStatic⟩ := flags_mem_toList result
  have ordered := toList_sublist result
  refine ⟨ordered, ordered.nodup (by decide), ?_, ?_, ?_⟩
  · simp only [access_mem_toList]
    exact ⟨_, rfl, fun other same => same.symm⟩
  · intro given
    rw [access_mem_toList]
    cases held : result.access with
    | none =>
        have nobody (other : Access) : ¬Grants words other := by simp [← access, held]
        simp [nobody, eq_comm]
    | some first => simp [← access, held]
  · simp [hasAbstract, hasFinal, hasStatic, isAbstract, isFinal, isStatic]

end Modifiers

theorem mem_modifierOrder {word : String} (ordered : word ∈ modifierOrder) :
    word ∈ ["abstract", "final", "static"] ∨ ∃ access : Access, access.text = word := by
  simp only [modifierOrder, List.mem_cons, List.not_mem_nil, or_false] at ordered
  rcases ordered with rfl | rfl | rfl | rfl | rfl | rfl
  · exact .inl (by simp)
  · exact .inl (by simp)
  · exact .inr ⟨.public_, rfl⟩
  · exact .inr ⟨.protected_, rfl⟩
  · exact .inr ⟨.private_, rfl⟩
  · exact .inl (by simp)

namespace IsCanonical

variable {words others first second result : List String}

theorem subset (one : IsCanonical words first) (other : IsCanonical words second) :
    first ⊆ second := by
  intro word among
  rcases mem_modifierOrder (one.ordered.subset among) with flag | ⟨access, rfl⟩
  · exact (other.flags word flag).mpr ((one.flags word flag).mp among)
  · exact (other.access access).mpr ((one.access access).mp among)

theorem unique (one : IsCanonical words first) (other : IsCanonical words second) :
    first = second := by
  have ranked : modifierOrder.Pairwise fun a b =>
      modifierOrder.idxOf a < modifierOrder.idxOf b := by
    decide
  have perm : first.Perm second := (List.perm_ext_iff_of_nodup one.distinct other.distinct).mpr
    fun _ => ⟨fun among => subset one other among, fun among => subset other one among⟩
  refine perm.eq_of_pairwise ?_ (ranked.sublist one.ordered) (ranked.sublist other.ordered)
  intro a b _ _ before after
  omega

theorem says_iff (canonical : IsCanonical words result) {word : String} :
    Says result word ↔ word ∈ result := by
  have trimmed : ∀ word ∈ modifierOrder, Text.trim word = word := by decide
  have same : ∀ raw ∈ result, Text.trim raw = raw := fun raw among =>
    trimmed raw (canonical.ordered.subset among)
  constructor
  · rintro ⟨raw, among, rfl⟩
    rwa [same raw among]
  · intro among
    exact ⟨word, among, same word among⟩

theorem grants_iff (canonical : IsCanonical words result) {access : Access} :
    Grants result access ↔ access.text ∈ result := by
  have noAlias : "internal" ∉ result := fun among =>
    absurd (canonical.ordered.subset among) (by decide)
  simp [Grants, canonical.says_iff, noAlias]

theorem again (canonical : IsCanonical words result) :
    Sensible result ∧ IsCanonical result result := by
  have known : ∀ word ∈ modifierOrder, Text.trim word ∈ knownModifiers := by decide
  obtain ⟨given, has, only⟩ := canonical.oneAccess
  refine ⟨⟨fun raw among => known raw (canonical.ordered.subset among), ?_⟩, canonical.ordered,
    canonical.distinct, canonical.oneAccess, ?_, fun flag _ => canonical.says_iff.symm⟩
  · intro first second grantsFirst grantsSecond
    rw [canonical.grants_iff] at grantsFirst grantsSecond
    rw [only first grantsFirst, only second grantsSecond]
  · intro access
    rw [canonical.grants_iff]
    refine ⟨.inl, fun said => said.elim id fun nobody => ?_⟩
    exact absurd (canonical.grants_iff.mpr has) (nobody.2 given)

end IsCanonical

section Agreement

variable {words others : List String}

theorem grants_congr (same : ∀ word, Says words word ↔ Says others word) (access : Access) :
    Grants words access ↔ Grants others access := by
  simp only [Grants, same]

theorem sensible_congr (same : ∀ word, Says words word ↔ Says others word) :
    Sensible words ↔ Sensible others := by
  have known (words : List String) : (∀ raw ∈ words, Text.trim raw ∈ knownModifiers) ↔
      ∀ word, Says words word → word ∈ knownModifiers :=
    ⟨fun known word ⟨raw, among, said⟩ => said ▸ known raw among,
      fun known raw among => known _ ⟨raw, among, rfl⟩⟩
  simp only [sensible_iff, known, same, grants_congr same]

theorem isCanonical_congr (same : ∀ word, Says words word ↔ Says others word)
    (result : List String) : IsCanonical words result ↔ IsCanonical others result := by
  simp only [isCanonical_iff, same, grants_congr same]

end Agreement

theorem canonicalVisibility_eq_ok_iff {m : Method} {result : List String} :
    m.canonicalVisibility = .ok result ↔
      Sensible m.visibility ∧ IsCanonical m.visibility result := by
  constructor
  · intro made
    cases gathered : Modifiers.addAll m.name m.pos {} m.visibility with
    | error d => simp [Method.canonicalVisibility, gathered, Except.map] at made
    | ok held =>
        have canonical := Modifiers.isCanonical_toList gathered
        simp only [Method.canonicalVisibility, gathered, Except.map, Except.ok.injEq] at made
        exact ⟨(Modifiers.exists_addAll_iff _ _).mp ⟨held, gathered⟩, made ▸ canonical⟩
  · rintro ⟨sensible, canonical⟩
    obtain ⟨held, gathered⟩ :=
      (Modifiers.exists_addAll_iff m.name m.pos).mpr sensible
    rw [Method.canonicalVisibility, gathered,
      canonical.unique (Modifiers.isCanonical_toList gathered)]
    rfl

/-- The modifiers of a method are accepted exactly if each is known and they agree on who has
access. What comes of them is their canonical form. It is the same for all lists with the same
modifiers, in whatever order and however often, and it is left as it is by a second time. -/
theorem canonicalVisibility_exact (m : Method) :
    ((∃ result, m.canonicalVisibility = .ok result) ↔ Sensible m.visibility) ∧
    (∀ result, m.canonicalVisibility = .ok result →
      IsCanonical m.visibility result ∧
        { m with visibility := result }.canonicalVisibility = .ok result) ∧
    ∀ words, (∀ word, word ∈ words ↔ word ∈ m.visibility) → ∀ result,
      { m with visibility := words }.canonicalVisibility = .ok result ↔
        m.canonicalVisibility = .ok result := by
  simp only [canonicalVisibility_eq_ok_iff]
  refine ⟨⟨fun ⟨_, sensible, _⟩ => sensible, fun sensible => ?_⟩,
    fun result made => ⟨made.2, made.2.again⟩, ?_⟩
  · obtain ⟨held, gathered⟩ :=
      (Modifiers.exists_addAll_iff m.name m.pos).mpr sensible
    exact ⟨held.toList, sensible, Modifiers.isCanonical_toList gathered⟩
  · intro words members result
    have same (word : String) : Says words word ↔ Says m.visibility word := by
      simp only [Says, members]
    rw [sensible_congr same, isCanonical_congr same]

def repeatedSample : Method :=
  { Method.plain "run" {} with visibility := ["static ", "internal", "final", "inline", "static"] }

theorem repeatedSample_canonical :
    let result := ["final", "private", "static"]
    repeatedSample.canonicalVisibility = .ok result ∧
      IsCanonical repeatedSample.visibility result ∧
      { repeatedSample with visibility := result }.canonicalVisibility = .ok result ∧
      { repeatedSample with visibility := ["final", "static", "inline", "internal", "static ",
        "final"] }.canonicalVisibility = .ok result := by
  have made : repeatedSample.canonicalVisibility = .ok ["final", "private", "static"] := rfl
  have members (word : String) : word ∈ ["final", "static", "inline", "internal", "static ",
      "final"] ↔ word ∈ repeatedSample.visibility := by
    simp only [repeatedSample, List.mem_cons, List.not_mem_nil, or_false]
    tauto
  obtain ⟨-, form, same⟩ := canonicalVisibility_exact repeatedSample
  obtain ⟨canonical, again⟩ := form _ made
  exact ⟨made, canonical, again, (same _ members _).mpr made⟩

end Zephir
