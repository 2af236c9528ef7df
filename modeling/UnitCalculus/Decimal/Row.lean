import UnitCalculus.Decimal.Layout

/-! # Rows of numbers

Several floating-point numbers written one after the other in columns of one width: the points stand
below each other, at most eight decimal places are shown, and one notation serves the whole row.  A
row that is too long for a line goes on in the next one. -/

namespace UnitCalculus.Decimal

/-- The most decimal places that a row shows. -/
def rowPlaces : Nat := 8

/-- The shortest digits of a number, cut to the places of a row. -/
def rowPositional (e : Expansion) : Numeral :=
  let n := shortestNumeral e
  if rowPlaces < n.fractional.length then (fixedNumeral e rowPlaces).trimZeros else n

/-- The shortest digits of a number, cut to the places of a row after the first digit. -/
def rowScientific (e : Expansion) : Numeral :=
  let n := shortestNumeral e
  if rowPlaces + 1 < n.digits.length then (significantNumeral e (rowPlaces + 1)).trimZeros else n

/-- How the columns of a row are written. -/
structure RowLayout where
  scientific : Bool
  /-- The characters before the point. -/
  left : Nat
  /-- The digits after the point. -/
  right : Nat
  /-- The digits of the exponent. -/
  exponent : Nat

/-- The finite numbers of a row. -/
def finiteOf (xs : List Float) : List Expansion :=
  xs.filterMap fun x =>
    match expand x with
    | .finite e => some e
    | _ => none

/-- The greatest of some natural numbers, zero if there are none. -/
def greatest (ns : List Nat) : Nat :=
  ns.foldl max 0

/-- Whether a row needs exponents: a number is large or small, or the numbers are far apart. -/
def needsExponents (xs : List Float) : Bool :=
  let sizes := xs.filterMap fun x =>
    match expand x with
    | .finite e => if e.significand == 0 then none else some x.abs
    | _ => none
  match sizes with
  | [] => false
  | s :: ss =>
    let most := ss.foldl (fun a b => if a < b then b else a) s
    let least := ss.foldl (fun a b => if b < a then b else a) s
    100000000.0 ≤ most || least < 0.0001 || 1000.0 < most / least

/-- The digits before the point, with the sign. -/
def signedWhole (e : Expansion) (cs : List Char) : List Char :=
  if e.negative then '-' :: cs else cs

/-- The digits of an exponent. -/
def exponentDigits (e : Int) : List Char :=
  let ds := Nat.toDigits 10 e.natAbs
  List.replicate (2 - ds.length) '0' ++ ds

/-- The text of an infinite or undefined number in a row. -/
def specialText (x : Float) : Option (List Char) :=
  match expand x with
  | .finite _ => none
  | .infinite negative => some (if negative then "-inf".toList else "inf".toList)
  | .undefined => some "nan".toList

namespace RowLayout

/-- The characters after the point. -/
def tail (l : RowLayout) : Nat :=
  if l.scientific then l.exponent + 2 + l.right else l.right

/-- The layout that fits the finite numbers of a row. -/
def ofFinite (scientific : Bool) (es : List Expansion) : RowLayout :=
  if scientific then
    let ns := es.map rowScientific
    { scientific
      left := greatest (es.map fun e => (signedWhole e ['0']).length)
      right := greatest (ns.map fun n => n.digits.length - 1)
      exponent := greatest (ns.map fun n => (exponentDigits n.leading).length) }
  else
    { scientific
      left := greatest (es.map fun e => (signedWhole e (rowPositional e).whole).length)
      right := greatest (es.map fun e => (rowPositional e).fractional.length)
      exponent := 0 }

/-- The layout that fits all numbers of a row. -/
def ofRow (xs : List Float) : RowLayout :=
  let l := ofFinite (needsExponents xs) (finiteOf xs)
  let specials := xs.filterMap specialText
  match finiteOf xs with
  | [] => { l with left := greatest (specials.map List.length) - 1 }
  | _ => { l with left := greatest (l.left :: specials.map fun cs => cs.length - (l.tail + 1)) }

/-- One number in its column. -/
def cell (l : RowLayout) (x : Float) : List Char :=
  match expand x with
  | .finite e =>
    let n := if l.scientific then rowScientific e else rowPositional e
    let whole := signedWhole e (if l.scientific then n.digits.take 1 else n.whole)
    let start := List.replicate (l.left - whole.length) ' ' ++ whole ++ ['.']
    if l.scientific then
      let fractional := n.digits.drop 1
      let ds := exponentDigits n.leading
      start ++ fractional ++ List.replicate (l.right - fractional.length) '0'
        ++ ['e', if n.leading < 0 then '-' else '+']
        ++ List.replicate (l.exponent - ds.length) '0' ++ ds
    else start ++ n.fractional ++ List.replicate (l.right - n.fractional.length) ' '
  | _ =>
    let cs := (specialText x).getD []
    List.replicate (l.left + l.tail + 1 - cs.length) ' ' ++ cs

end RowLayout

/-- A text without the spaces at its end. -/
def trimSpaces (cs : List Char) : List Char :=
  (cs.reverse.dropWhile (· == ' ')).reverse

/-- Words one after the other in lines of at most `width` characters; every line starts with the
same indent. -/
def fillLines (width : Nat) (separator indent : List Char) :
    List (List Char) → List Char → List Char
  | [], line => line
  | w :: ws, line =>
    let wraps := width < line.length + w.length && indent.length < line.length
    let line' := (if wraps then indent else line) ++ w
    (if wraps then trimSpaces line ++ ['\n'] else [])
      ++ fillLines width separator indent ws (if ws.isEmpty then line' else line' ++ separator)

/-- The width of a line of numbers. -/
def lineWidth : Nat := 75

/-- Cells between brackets; `lead` stands before the opening one and `close` after the closing
one. -/
def bracketed (separator : List Char) (lead close : Nat) (cells : List (List Char)) : List Char :=
  let indent := List.replicate (lead + 1) ' '
  let width := lineWidth - close - max (trimSpaces separator).length 1
  '[' :: (fillLines width separator indent cells indent).drop (lead + 1) ++ [']']

/-- A row of numbers between brackets. -/
def rowText (separator : List Char) (lead close : Nat) (xs : List Float) : List Char :=
  bracketed separator lead close (xs.map (RowLayout.ofRow xs).cell)

end UnitCalculus.Decimal
