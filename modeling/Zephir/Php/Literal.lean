/-!
String literals of PHP in single quotes. Inside them a backslash takes away the meaning of a quote
or of another backslash.
-/

namespace Zephir.Php

def quoteChar (c : Char) : List Char :=
  if c = '\\' then ['\\', '\\'] else if c = '\'' then ['\\', '\''] else [c]

def quote (text : String) : String :=
  String.ofList ('\'' :: text.toList.flatMap quoteChar ++ ['\''])

/-- The text with each pair of backslashes turned into one, from left to right. -/
def singleBackslashes : List Char → List Char
  | '\\' :: '\\' :: rest => '\\' :: singleBackslashes rest
  | c :: rest => c :: singleBackslashes rest
  | [] => []

/-- The literal for a string of the source, for which the parser stores two backslashes in place
of each one. -/
def stringLiteral (text : String) : String :=
  quote (String.ofList (singleBackslashes text.toList))

end Zephir.Php
