import Phrasebook.Text.Hidden

/-!
# Quotations in Messages

A text between double quotes as an error message cites it. Quotes, backslashes
and the usual controls are escaped by a letter, and characters without a shape
of their own by their number in braces, so the citation can be read on any
terminal.

## Main definitions

* `quote`: A text as it is cited.
-/

namespace Phrasebook

namespace Text

/-- A code point in lower-case hexadecimal digits. -/
def hexDigits (code : Nat) : List Char := Nat.toDigits 16 code

/-- A character as it is cited. -/
def quoteChar (c : Char) : List Char :=
  if c = '\x00' then ['\\', '0']
  else if c = '\t' then ['\\', 't']
  else if c = '\r' then ['\\', 'r']
  else if c = '\n' then ['\\', 'n']
  else if c = '"' then ['\\', '"']
  else if c = '\\' then ['\\', '\\']
  else if isHidden c then ['\\', 'u', '\x7b'] ++ hexDigits c.toNat ++ ['\x7d']
  else [c]

/-- A text as it is cited, between quotes. -/
def quote (s : String) : String :=
  String.ofList ('"' :: s.toList.flatMap quoteChar ++ ['"'])

end Text

end Phrasebook
