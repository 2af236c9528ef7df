import UnitCalculus.Text.Printable

/-! # Quoted text

A text between quotes, on one line and free of hidden characters: the quote, the backslash and
everything that is not printable are escaped.  The quote is `'`, unless the text holds `'` and no
`"`. -/

namespace UnitCalculus.Text

/-- `n` in lower-case hexadecimal digits, at least `width` of them. -/
def hex (width n : Nat) : List Char :=
  let ds := Nat.toDigits 16 n
  List.replicate (width - ds.length) '0' ++ ds

/-- The quote that goes around `cs`. -/
def quoteMark (cs : List Char) : Char :=
  if cs.contains '\'' && !cs.contains '"' then '"' else '\''

/-- One character inside quotes `q`. -/
def escapeChar (q c : Char) : List Char :=
  if c == q || c == '\\' then ['\\', c]
  else if c == '\t' then ['\\', 't']
  else if c == '\n' then ['\\', 'n']
  else if c == '\r' then ['\\', 'r']
  else if isPrintable c then [c]
  else if c.toNat < 0x100 then '\\' :: 'x' :: hex 2 c.toNat
  else if c.toNat < 0x10000 then '\\' :: 'u' :: hex 4 c.toNat
  else '\\' :: 'U' :: hex 8 c.toNat

/-- A text in quotes. -/
def quoted (s : String) : String :=
  let cs := s.toList
  let q := quoteMark cs
  String.ofList (q :: cs.flatMap (escapeChar q) ++ [q])

/-- A text in quotes, with everything beyond ASCII escaped too. -/
def quotedAscii (s : String) : String :=
  let cs := s.toList
  let q := quoteMark cs
  let escape := fun c : Char =>
    if c.toNat < 0x80 then escapeChar q c
    else if c.toNat < 0x100 then '\\' :: 'x' :: hex 2 c.toNat
    else if c.toNat < 0x10000 then '\\' :: 'u' :: hex 4 c.toNat
    else '\\' :: 'U' :: hex 8 c.toNat
  String.ofList (q :: cs.flatMap escape ++ [q])

end UnitCalculus.Text
