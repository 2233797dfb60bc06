import RecordGraph.Text.Hex

/-!
# Universally unique identifiers

Sixteen bytes. The canonical text has 32 small hexadecimal digits in groups of 8, 4, 4, 4 and 12.
Reading also accepts the digits without hyphens, the hyphenated form in braces, and the one after
`urn:uuid:`, all in either case.
-/

namespace RecordGraph

/-- An identifier of sixteen bytes. -/
structure Uuid where
  bytes : List UInt8
  length_bytes : bytes.length = 16
  deriving DecidableEq, Repr

namespace Uuid

def zero : Uuid := ⟨List.replicate 16 0, rfl⟩

instance : Inhabited Uuid := ⟨zero⟩

def ofBytes? (bytes : List UInt8) : Option Uuid :=
  if h : bytes.length = 16 then some ⟨bytes, h⟩ else none

def text (u : Uuid) : String :=
  let digits := Text.hexOfBytes u.bytes
  String.ofList (digits.take 8 ++ '-' :: (digits.drop 8).take 4 ++ '-' :: (digits.drop 12).take 4
    ++ '-' :: (digits.drop 16).take 4 ++ '-' :: digits.drop 20)

def ofDigits? (s : List Char) : Option Uuid := (Text.bytesOfHex? s).bind ofBytes?

def ofHyphenated? (s : List Char) : Option Uuid :=
  if s[8]? = some '-' && s[13]? = some '-' && s[18]? = some '-' && s[23]? = some '-' then
    ofDigits? (s.take 8 ++ (s.drop 9).take 4 ++ (s.drop 14).take 4 ++ (s.drop 19).take 4
      ++ s.drop 24)
  else none

/-- What an identifier begins with when it is written as a resource name. -/
def resourceName : List Char := ['u', 'r', 'n', ':', 'u', 'u', 'i', 'd', ':']

/-- Reads an identifier in any of its forms. -/
def read? (s : String) : Option Uuid :=
  let cs := s.toList
  if cs.length = 32 then ofDigits? cs
  else if cs.length = 36 then ofHyphenated? cs
  else if cs.length = 38 && cs.head? = some '{' && cs.getLast? = some '}' then
    ofHyphenated? ((cs.drop 1).take 36)
  else if cs.length = 45 && (cs.take 9).map Char.toLower = resourceName then
    ofHyphenated? (cs.drop 9)
  else none

end Uuid

end RecordGraph
