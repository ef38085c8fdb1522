import Vitae.Text.Printable

/-! Quoted text in messages.

A text is quoted with a single mark, or with a double one when it holds a single
mark and no double one. The mark in use and the backslash are escaped, the line
and tab controls have letters, and an unprintable character is written by its
code point in the shortest of three widths. -/

namespace Vitae.Text

/-- The hexadecimal digits of a number, filled with zeros up to a width. -/
def hex (width n : Nat) : String :=
  let digits := Nat.toDigits 16 n
  String.ofList (List.replicate (width - digits.length) '0' ++ digits)

def quotedChar (mark c : Char) : String :=
  if c = mark ∨ c = '\\' then "\\" ++ c.toString
  else if c = '\n' then "\\n"
  else if c = '\r' then "\\r"
  else if c = '\t' then "\\t"
  else if isPrintable c then c.toString
  else if c.toNat < 0x100 then "\\x" ++ hex 2 c.toNat
  else if c.toNat < 0x10000 then "\\u" ++ hex 4 c.toNat
  else "\\U" ++ hex 8 c.toNat

def quoted (text : String) : String :=
  let mark := if text.contains '\'' && !text.contains '"' then '"' else '\''
  mark.toString ++ String.join (text.toList.map (quotedChar mark)) ++ mark.toString

end Vitae.Text
