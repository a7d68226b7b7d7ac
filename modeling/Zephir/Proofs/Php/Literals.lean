import Zephir.Proofs.Php.Plain

/-!
Literals of strings, read the way PHP reads them: first the end of the literal is found, which is
the first quote without a backslash that escapes it, and then the escapes inside are replaced. What
is printed for a text reads back as that text, and no quote in the text ends the literal early.
-/

namespace Zephir.Php

/-- The inside of a literal up to the first quote that is not escaped, and what comes after that
quote. A backslash escapes the next character, whatever it is. -/
def inside : List Char → Option (List Char × List Char)
  | [] => none
  | '\'' :: rest => some ([], rest)
  | ['\\'] => none
  | '\\' :: c :: rest => (inside rest).map fun (raw, rest) => ('\\' :: c :: raw, rest)
  | c :: rest => (inside rest).map fun (raw, rest) => (c :: raw, rest)

/-- What the inside of a literal stands for. A backslash is taken away in front of a quote or of
another backslash; any other one is part of the text. -/
def unescape : List Char → List Char
  | '\\' :: '\\' :: rest => '\\' :: unescape rest
  | '\\' :: '\'' :: rest => '\'' :: unescape rest
  | c :: rest => c :: unescape rest
  | [] => []

def readLiteral : List Char → Option (String × List Char)
  | '\'' :: rest => (inside rest).map fun (raw, rest) => (String.ofList (unescape raw), rest)
  | _ => none

theorem inside_cons {c : Char} (noMark : c ≠ '\'') (noBackslash : c ≠ '\\') (rest : List Char) :
    inside (c :: rest) = (inside rest).map fun (raw, rest) => (c :: raw, rest) := by
  rw [inside]
  all_goals simp_all

theorem unescape_cons {c : Char} (noBackslash : c ≠ '\\') (raw : List Char) :
    unescape (c :: raw) = c :: unescape raw := by
  rw [unescape]
  all_goals simp_all

theorem unescape_backslash {c : Char} (noMark : c ≠ '\'') (noBackslash : c ≠ '\\')
    (raw : List Char) : unescape ('\\' :: c :: raw) = '\\' :: c :: unescape raw := by
  rw [unescape, unescape_cons noBackslash]
  all_goals simp_all

theorem unquote_eq_inside (chars : List Char) :
    unquote chars = (inside chars).map fun (raw, rest) => (unescape raw, rest) := by
  fun_induction unquote chars with
  | case1 => rfl
  | case2 rest => rfl
  | case3 rest ih =>
      rw [ih, inside]
      cases inside rest <;> rfl
  | case4 rest ih =>
      rw [ih, inside]
      cases inside rest <;> rfl
  | case5 c rest noMark noPair noEscape ih =>
      have mark : c ≠ '\'' := fun same => noMark same
      by_cases backslash : c = '\\'
      · subst backslash
        cases rest with
        | nil => rfl
        | cons d rest =>
            have plain : d ≠ '\\' := fun same => noPair rest rfl (by rw [same])
            have noQuote : d ≠ '\'' := fun same => noEscape rest rfl (by rw [same])
            rw [ih, inside_cons noQuote plain, inside]
            cases inside rest with
            | none => rfl
            | some found => simp [unescape_backslash noQuote plain, unescape_cons plain]
      · rw [ih, inside_cons mark backslash]
        cases inside rest with
        | none => rfl
        | some found => simp [unescape_cons backslash]

/-- Text that ends no literal: no quote stands in it without a backslash that escapes it, and no
backslash at its end is left to escape what follows. -/
inductive Enclosed : List Char → Prop
  | nil : Enclosed []
  | plain {c raw} (noMark : c ≠ '\'') (noBackslash : c ≠ '\\') (others : Enclosed raw) :
      Enclosed (c :: raw)
  | escaped {c raw} (others : Enclosed raw) : Enclosed ('\\' :: c :: raw)

theorem inside_of_enclosed {raw : List Char} (enclosed : Enclosed raw) (rest : List Char) :
    inside (raw ++ '\'' :: rest) = some (raw, rest) := by
  induction enclosed with
  | nil => rfl
  | plain noMark noBackslash _ ih =>
      rw [List.cons_append, inside_cons noMark noBackslash, ih]
      rfl
  | escaped _ ih =>
      rw [List.cons_append, List.cons_append, inside, ih]
      rfl

theorem enclosed_of_inside {chars raw rest : List Char} (found : inside chars = some (raw, rest)) :
    chars = raw ++ '\'' :: rest ∧ Enclosed raw := by
  fun_induction inside chars generalizing raw with
  | case1 => contradiction
  | case2 after =>
      cases found
      exact ⟨rfl, .nil⟩
  | case3 => contradiction
  | case4 c after ih =>
      obtain ⟨⟨inner, left⟩, foundInner, built⟩ := Option.map_eq_some_iff.mp found
      cases built
      obtain ⟨same, enclosed⟩ := ih foundInner
      exact ⟨by rw [same]; rfl, .escaped enclosed⟩
  | case5 c after noMark noEnd noEscape ih =>
      obtain ⟨⟨inner, left⟩, foundInner, built⟩ := Option.map_eq_some_iff.mp found
      cases built
      obtain ⟨same, enclosed⟩ := ih foundInner
      have noBackslash : c ≠ '\\' := by
        rintro rfl
        cases after with
        | nil => exact noEnd rfl rfl
        | cons d after => exact noEscape d after rfl rfl
      exact ⟨by rw [same]; rfl, .plain noMark noBackslash enclosed⟩

theorem inside_eq_some_iff {chars raw rest : List Char} :
    inside chars = some (raw, rest) ↔ chars = raw ++ '\'' :: rest ∧ Enclosed raw := by
  constructor
  · exact enclosed_of_inside
  · rintro ⟨rfl, enclosed⟩
    exact inside_of_enclosed enclosed rest

theorem enclosed_flatMap (text : List Char) :
    Enclosed (text.flatMap quoteChar) ∧ unescape (text.flatMap quoteChar) = text := by
  have read := unquote_flatMap text []
  rw [unquote_eq_inside] at read
  obtain ⟨⟨raw, rest⟩, found, built⟩ := Option.map_eq_some_iff.mp read
  obtain ⟨decoded, noRest⟩ := Prod.mk.inj built
  obtain ⟨same, enclosed⟩ := inside_eq_some_iff.mp found
  obtain rfl : text.flatMap quoteChar = raw := by
    rw [noRest] at same
    exact List.append_cancel_right same
  exact ⟨enclosed, decoded⟩

theorem toList_quote (text : String) :
    (quote text).toList = '\'' :: (text.toList.flatMap quoteChar ++ ['\'']) := by
  simp [quote]

theorem readLiteral_quote (text : String) (after : List Char) :
    readLiteral ((quote text).toList ++ after) = some (text, after) := by
  obtain ⟨enclosed, decoded⟩ := enclosed_flatMap text.toList
  have found := inside_of_enclosed enclosed after
  rw [toList_quote, List.cons_append, List.append_assoc, List.singleton_append, readLiteral, found]
  simp [decoded]

/-- The text as the parser stores it, with two backslashes in place of each one. -/
def doubled (text : String) : String :=
  String.ofList (text.toList.flatMap fun c => if c = '\\' then ['\\', '\\'] else [c])

theorem singleBackslashes_cons {c : Char} (noBackslash : c ≠ '\\') (rest : List Char) :
    singleBackslashes (c :: rest) = c :: singleBackslashes rest := by
  rw [singleBackslashes]
  all_goals simp_all

/-- Runs of backslashes have an even length there, so taking pairs from the left undoes it. -/
theorem singleBackslashes_doubled (text : String) :
    singleBackslashes (doubled text).toList = text.toList := by
  rw [doubled, String.toList_ofList]
  induction text.toList with
  | nil => rfl
  | cons c rest ih =>
      rw [List.flatMap_cons]
      by_cases backslash : c = '\\'
      · simp [backslash, singleBackslashes, ih]
      · simp [backslash, singleBackslashes_cons backslash, ih]

theorem stringLiteral_doubled (text : String) : stringLiteral (doubled text) = quote text := by
  rw [stringLiteral, singleBackslashes_doubled, String.ofList_toList]

/-- A text's literal is one literal: between its first and last character stands nothing that ends
it, and reading takes it as a whole and gives the text back, whatever follows. A string of the
source, which the parser stores with its backslashes doubled, is printed as the same literal. -/
theorem literals_read_back (text : String) :
    (∃ raw, (quote text).toList = '\'' :: (raw ++ ['\'']) ∧ Enclosed raw ∧
      unescape raw = text.toList) ∧
    (∀ after, readLiteral ((quote text).toList ++ after) = some (text, after)) ∧
    (∃ raw, (stringLiteral (doubled text)).toList = '\'' :: (raw ++ ['\'']) ∧ Enclosed raw ∧
      unescape raw = text.toList) ∧
    ∀ after, readLiteral ((stringLiteral (doubled text)).toList ++ after) = some (text, after) := by
  have one : ∃ raw, (quote text).toList = '\'' :: (raw ++ ['\'']) ∧ Enclosed raw ∧
      unescape raw = text.toList :=
    ⟨text.toList.flatMap quoteChar, toList_quote text, enclosed_flatMap text.toList⟩
  rw [stringLiteral_doubled]
  exact ⟨one, readLiteral_quote text, one, readLiteral_quote text⟩

example : quote "it\\'s\\" = "'it\\\\\\'s\\\\'" := by decide +kernel

end Zephir.Php
