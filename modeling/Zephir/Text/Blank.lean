/-!
Blank characters and the trimming built on them. Blank means the Unicode property White_Space,
which is wider than the blanks that JSON allows between its tokens.
-/

namespace Zephir.Text

def isBlank (c : Char) : Bool :=
  let code := c.toNat
  (0x09 ≤ code && code ≤ 0x0D) || code == 0x20 || code == 0x85 || code == 0xA0 ||
    code == 0x1680 || (0x2000 ≤ code && code ≤ 0x200A) || code == 0x2028 || code == 0x2029 ||
    code == 0x202F || code == 0x205F || code == 0x3000

def dropBlank (chars : List Char) : List Char :=
  chars.dropWhile isBlank

def dropBlankEnd (chars : List Char) : List Char :=
  (dropBlank chars.reverse).reverse

def trimChars (chars : List Char) : List Char :=
  dropBlankEnd (dropBlank chars)

def trimEnd (text : String) : String :=
  String.ofList (dropBlankEnd text.toList)

def trim (text : String) : String :=
  String.ofList (trimChars text.toList)

end Zephir.Text
