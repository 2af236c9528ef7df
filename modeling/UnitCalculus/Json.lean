import UnitCalculus.Decimal.Layout
import UnitCalculus.Text.Quoted

/-! # Structured documents

Documents of texts, numbers, lists and objects, whose members keep their order, and their indented
text. -/

namespace UnitCalculus

/-- A structured document. -/
inductive Json where
  | null
  | bool (b : Bool)
  | integer (n : Int)
  | real (x : Float)
  | text (s : String)
  | list (js : List Json)
  | object (members : List (String × Json))

instance : Inhabited Json := ⟨.null⟩

namespace Json

/-- The member of an object with the given name. -/
def get? (j : Json) (name : String) : Option Json :=
  match j with
  | object members => (members.find? (·.1 == name)).map (·.2)
  | _ => none

/-- A list of texts. -/
def texts (ss : List String) : Json := list (ss.map text)

/-- An object whose members are texts. -/
def textMembers (ms : List (String × String)) : Json := object (ms.map fun m => (m.1, text m.2))

/-! ### Indented text -/

/-- A character of a text in quotes. -/
def escape (c : Char) : List Char :=
  if c == '"' then ['\\', '"']
  else if c == '\\' then ['\\', '\\']
  else if c == '\n' then ['\\', 'n']
  else if c == '\r' then ['\\', 'r']
  else if c == '\t' then ['\\', 't']
  else if c.toNat == 8 then ['\\', 'b']
  else if c.toNat == 12 then ['\\', 'f']
  else if c.toNat < 32 then '\\' :: 'u' :: Text.hex 4 c.toNat
  else [c]

/-- A text in quotes. -/
def quote (s : String) : String :=
  "\"" ++ String.ofList (s.toList.flatMap escape) ++ "\""

/-- A floating-point number; the infinite and the undefined ones have names. -/
def realText (x : Float) : String :=
  match Decimal.expand x with
  | .finite _ => Decimal.floatText x
  | .infinite negative => if negative then "-Infinity" else "Infinity"
  | .undefined => "NaN"

/-- A new line with the indent of a depth. -/
def newline (depth : Nat) : String :=
  "\n" ++ String.ofList (List.replicate (2 * depth) ' ')

mutual

/-- The document at a depth, every entry on a line of its own. -/
def prettyAt (depth : Nat) : Json → String
  | null => "null"
  | bool b => if b then "true" else "false"
  | integer n => toString n
  | real x => realText x
  | text s => quote s
  | list [] => "[]"
  | list (j :: js) =>
    "[" ++ newline (depth + 1) ++ prettyAt (depth + 1) j ++ prettyRest (depth + 1) js
      ++ newline depth ++ "]"
  | object [] => "\x7b\x7d"
  | object ((name, j) :: ms) =>
    "\x7b" ++ newline (depth + 1) ++ quote name ++ ": " ++ prettyAt (depth + 1) j
      ++ prettyMembers (depth + 1) ms ++ newline depth ++ "\x7d"

/-- The entries of a list after the first. -/
def prettyRest (depth : Nat) : List Json → String
  | [] => ""
  | j :: js => "," ++ newline depth ++ prettyAt depth j ++ prettyRest depth js

/-- The members of an object after the first. -/
def prettyMembers (depth : Nat) : List (String × Json) → String
  | [] => ""
  | (name, j) :: ms =>
    "," ++ newline depth ++ quote name ++ ": " ++ prettyAt depth j ++ prettyMembers depth ms

end

/-- The document with every entry on a line of its own. -/
def pretty (j : Json) : String := prettyAt 0 j

/-! ### Numbers without a value -/

/-- Whether a floating-point number is neither infinite nor undefined. -/
def isFinite (x : Float) : Bool :=
  match Decimal.expand x with
  | .finite _ => true
  | _ => false

mutual

/-- The document with null in place of infinite and undefined numbers. -/
def finite : Json → Json
  | real x => if isFinite x then real x else null
  | list js => list (finiteList js)
  | object ms => object (finiteMembers ms)
  | j => j

/-- The entries of a list, made finite. -/
def finiteList : List Json → List Json
  | [] => []
  | j :: js => finite j :: finiteList js

/-- The members of an object, made finite. -/
def finiteMembers : List (String × Json) → List (String × Json)
  | [] => []
  | (name, j) :: ms => (name, finite j) :: finiteMembers ms

end

end Json

end UnitCalculus
