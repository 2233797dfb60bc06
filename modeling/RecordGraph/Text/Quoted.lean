import RecordGraph.Text.Hex
import RecordGraph.Text.Printable

/-!
# Quoted text

A text between double quotes. Quote and backslash are written with a backslash, the usual control
characters by their letters, and every other character that cannot stand by itself (a control, a
format character, a combining mark) by its code point in hexadecimal.
-/

namespace RecordGraph.Text

/-- The number of hexadecimal digits of a number, at least one. -/
def hexWidth (n : Nat) : Nat := if n = 0 then 1 else n.log2 / 4 + 1

/-- How one character stands inside quotes. -/
def quoteChar (c : Char) : List Char :=
  if c = '\x00' then ['\\', '0']
  else if c = '\t' then ['\\', 't']
  else if c = '\n' then ['\\', 'n']
  else if c = '\r' then ['\\', 'r']
  else if c = '"' then ['\\', '"']
  else if c = '\\' then ['\\', '\\']
  else if isPrintable c && !isExtending c then [c]
  else ['\\', 'u', '{'] ++ hexDigits (hexWidth c.toNat) c.toNat ++ ['}']

def quoted (s : String) : String :=
  String.ofList ('"' :: s.toList.flatMap quoteChar ++ ['"'])

/-- A list in square brackets, its items separated by a comma and a blank. -/
def bracketed (items : List String) : String := "[" ++ ", ".intercalate items ++ "]"

end RecordGraph.Text
