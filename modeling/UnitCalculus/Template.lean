import UnitCalculus.SI
import UnitCalculus.Text.Digit

/-! # Templates

A template is a text with fields in braces, such as `{:.2f} km/h`; a doubled brace stands for itself.
A field has a name, which may be a position, an optional conversion after `!` and an optional
specification after `:`, which may hold fields itself.  `Template.showIn` converts a quantity to the
unit that is written after the first field, and fills the fields with the result. -/

namespace UnitCalculus

open UnitCalculus.Text

/-- The opening brace. -/
def openBrace : Char := '\x7b'

/-- The closing brace. -/
def closeBrace : Char := '\x7d'

/-- A field of a template. -/
structure TemplateField where
  name : List Char
  conversion : Option Char
  spec : List Char
  deriving DecidableEq, Repr

/-- Literal text and the field after it, if one follows. -/
structure TemplatePiece where
  literal : List Char
  field : Option TemplateField
  deriving DecidableEq, Repr

namespace Template

/-! ### Pieces -/

/-- The text up to a field: its characters, whether a field follows, and the text after the opening
brace.  A doubled brace ends the literal with a single one. -/
def literalPart : List Char → Except TemplateFault (List Char × Bool × List Char)
  | [] => .ok ([], false, [])
  | [c] =>
    if c == closeBrace then .error .singleClose
    else if c == openBrace then .error .singleOpen
    else .ok ([c], false, [])
  | c :: d :: r =>
    if c == closeBrace then
      if d == closeBrace then .ok ([c], false, r) else .error .singleClose
    else if c == openBrace then
      if d == openBrace then .ok ([c], false, r) else .ok ([], true, d :: r)
    else do
      let (literal, field, rest) ← literalPart (d :: r)
      return (c :: literal, field, rest)

/-- The name of a field, the character that ends it, and the text after that; `bracket` tells that
an opening bracket waits for the closing one. -/
def namePart (bracket : Bool) : List Char → Except TemplateFault (List Char × Char × List Char)
  | [] => .error .endOfName
  | c :: r =>
    if bracket then do
      let (name, stop, rest) ← namePart (c != ']') r
      return (c :: name, stop, rest)
    else if c == openBrace then .error .openInName
    else if c == closeBrace || c == ':' || c == '!' then .ok ([], c, r)
    else do
      let (name, stop, rest) ← namePart (c == '[') r
      return (c :: name, stop, rest)

/-- A specification up to the brace that closes its field; `depth` counts the braces that are open
inside it. -/
def specPart (depth : Nat) : List Char → Except TemplateFault (List Char × List Char)
  | [] => .error .endOfSpec
  | c :: r =>
    if c == closeBrace && depth == 0 then .ok ([], r)
    else do
      let depth' := if c == openBrace then depth + 1 else if c == closeBrace then depth - 1 else depth
      let (spec, rest) ← specPart depth' r
      return (c :: spec, rest)

/-- A field after its opening brace, and the text after it. -/
def fieldPart (cs : List Char) : Except TemplateFault (TemplateField × List Char) := do
  let (name, stop, r) ← namePart false cs
  if stop == closeBrace then return (⟨name, none, []⟩, r)
  if stop == ':' then
    let (spec, r) ← specPart 0 r
    return (⟨name, none, spec⟩, r)
  match r with
  | [] => throw .endOfConversion
  | c :: r =>
    match r with
    | d :: r' =>
      if d == closeBrace then return (⟨name, some c, []⟩, r')
      if d != ':' then throw .afterConversion
      let (spec, r) ← specPart 0 r'
      return (⟨name, some c, spec⟩, r)
    | [] =>
      let (spec, r) ← specPart 0 r
      return (⟨name, some c, spec⟩, r)

/-- The first piece of a text, and the text after it. -/
def piecePart (cs : List Char) : Except TemplateFault (TemplatePiece × List Char) := do
  let (literal, field, r) ← literalPart cs
  if field then
    let (f, r) ← fieldPart r
    return (⟨literal, some f⟩, r)
  return (⟨literal, none⟩, r)

/-- The pieces of a text; every piece takes at least one character, so that `fuel` may be the length
of the text. -/
def piecesFrom : Nat → List Char → Except TemplateFault (List TemplatePiece)
  | _, [] => .ok []
  | 0, _ => .ok []
  | fuel + 1, cs => do
    let (p, r) ← piecePart cs
    return p :: (← piecesFrom fuel r)

/-- The pieces of a template. -/
def pieces (template : String) : Except TemplateFault (List TemplatePiece) :=
  piecesFrom template.toList.length template.toList

/-! ### Values of fields -/

/-- How fields without a name find their values. -/
inductive Numbering where
  | undecided
  /-- Fields have no positions; the next one takes this value. -/
  | automatic (next : Nat)
  /-- Fields name their positions. -/
  | manual
  deriving DecidableEq, Repr

/-- The values that fields may ask for. -/
structure Values where
  positional : List Magnitude
  named : List (String × Magnitude)

/-- The largest position that can be named. -/
def maxPosition : Nat := 9223372036854775807

/-- The digits of a position, unless a character is no digit. -/
def positionFrom (acc : Nat) : List Char → Except TemplateFault (Option Nat)
  | [] => .ok (some acc)
  | c :: r =>
    match digitValue? c with
    | none => .ok none
    | some d =>
      if maxPosition / 10 < acc then .error .tooManyDigits else positionFrom (acc * 10 + d) r

/-- The position that a name stands for, if it is one. -/
def position? (cs : List Char) : Except TemplateFault (Option Nat) :=
  if cs.isEmpty then .ok none else positionFrom 0 cs

/-- The fault of a template as one of the library. -/
def liftTemplate {α : Type} : Except TemplateFault α → Except Fault α
  | .ok a => .ok a
  | .error f => .error (.template f)

/-- The position that a field without a name takes, and the numbering after it. -/
def nextPosition : Numbering → Except TemplateFault (Nat × Numbering)
  | .undecided => .ok (0, .automatic 1)
  | .automatic n => .ok (n, .automatic (n + 1))
  | .manual => .error .manualToAutomatic

/-- The numbering after a field that names its position. -/
def usePosition : Numbering → Except TemplateFault Numbering
  | .automatic _ => .error .automaticToManual
  | _ => .ok .manual

/-- The value at a position. -/
def atPosition (vs : Values) (n : Nat) : Except Fault Magnitude :=
  match vs.positional[n]? with
  | some m => .ok m
  | none => .error .unknownPosition

/-- The value under a name. -/
def underName (vs : Values) (name : List Char) : Except Fault Magnitude :=
  match vs.named.find? (·.1 == String.ofList name) with
  | some e => .ok e.2
  | none => .error .unknownName

/-- A part of a number by its name. -/
def namedPart (m : Magnitude) (name : String) : Except Fault Magnitude :=
  match m, name with
  | .integer n, "real" => .ok (.integer n)
  | .integer _, "imag" => .ok (.integer 0)
  | .integer n, "numerator" => .ok (.integer n)
  | .integer _, "denominator" => .ok (.integer 1)
  | .ratio q, "real" => .ok (.ratio q)
  | .ratio _, "imag" => .ok (.integer 0)
  | .ratio q, "numerator" => .ok (.integer q.num)
  | .ratio q, "denominator" => .ok (.integer q.den)
  | .real x, "real" => .ok (.real x)
  | .real _, "imag" => .ok (.real 0.0)
  | .unchecked x, "real" => .ok (.unchecked x)
  | .unchecked _, "imag" => .ok (.unchecked 0.0)
  | .word n, "real" => .ok (.word n)
  | .word _, "imag" => .ok (.word 0)
  | .complex z, "real" => .ok (.real z.re)
  | .complex z, "imag" => .ok (.real z.im)
  | .uncheckedComplex z, "real" => .ok (.unchecked z.re)
  | .uncheckedComplex z, "imag" => .ok (.unchecked z.im)
  | _, _ => .error .noSuchPart

/-- An entry of a vector by its position. -/
def entry (m : Magnitude) (position : Option Nat) : Except Fault Magnitude :=
  match m with
  | .vector xs =>
    match position.bind (xs[·]?) with
    | some x => .ok (.unchecked x)
    | none => .error .unknownPosition
  | _ => .error .unsupported

/-- The part of a value that is asked for after its name; `fuel` may be the length of the text. -/
def partOf : Nat → Magnitude → List Char → Except Fault Magnitude
  | _, m, [] => .ok m
  | 0, m, _ => .ok m
  | fuel + 1, m, c :: r =>
    if c == '.' then
      let name := r.takeWhile fun d => d != '.' && d != '['
      if name.isEmpty then .error (.template .emptyAttribute)
      else do partOf fuel (← namedPart m (String.ofList name)) (r.drop name.length)
    else if c == '[' then
      let name := r.takeWhile (· != ']')
      if name.length == r.length then .error (.template .missingBracket)
      else do
        let position ← liftTemplate (position? name)
        if name.isEmpty then throw (.template .emptyAttribute)
        partOf fuel (← entry m position) (r.drop (name.length + 1))
    else .error (.template .afterBracket)

/-- The value that a field asks for, and the numbering after it. -/
def valueOf (vs : Values) (n : Numbering) (name : List Char) :
    Except Fault (Magnitude × Numbering) := do
  let first := name.takeWhile fun c => c != '.' && c != '['
  let rest := name.drop first.length
  let position ← liftTemplate (position? first)
  let (m, n) ← match position with
    | some p => do
      let n ← liftTemplate (usePosition n)
      pure (← atPosition vs p, n)
    | none =>
      if first.isEmpty then do
        let (p, n) ← liftTemplate (nextPosition n)
        pure (← atPosition vs p, n)
      else do pure (← underName vs first, n)
  return (← partOf rest.length m rest, n)

/-! ### Filling -/

/-- The value after a conversion: its text, or its display. -/
def convert (m : Magnitude) : Option Char → Except Fault Magnitude
  | none => .ok m
  | some 's' => .ok (.text m.toText)
  | some 'r' => .ok (.text m.display)
  | some 'a' =>
    match m with
    | .text s => .ok (.text (quotedAscii s))
    | m => .ok (.text m.display)
  | some c => .error (.template (.unknownConversion c))

/-- A specification, with the fields in it filled by `nested`. -/
def specText (nested : Numbering → List Char → Except Fault (List Char × Numbering))
    (n : Numbering) (spec : List Char) : Except Fault (List Char × Numbering) :=
  if spec.contains openBrace then nested n spec else .ok (spec, n)

/-- A filled field, and the numbering after it. -/
def fillField (vs : Values)
    (nested : Numbering → List Char → Except Fault (List Char × Numbering)) (n : Numbering)
    (f : TemplateField) : Except Fault (List Char × Numbering) := do
  let (m, n) ← valueOf vs n f.name
  let m ← convert m f.conversion
  let (spec, n) ← specText nested n f.spec
  return ((← liftDisplay (m.inField (String.ofList spec))).toList, n)

/-- The pieces of a text, filled one after the other; `fuel` may be the length of the text. -/
def fillPieces (vs : Values)
    (nested : Numbering → List Char → Except Fault (List Char × Numbering)) :
    Nat → Numbering → List Char → Except Fault (List Char × Numbering)
  | _, n, [] => .ok ([], n)
  | 0, n, _ => .ok ([], n)
  | fuel + 1, n, cs => do
    let (p, r) ← liftTemplate (piecePart cs)
    let (body, n) ← match p.field with
      | some f => fillField vs nested n f
      | none => pure ([], n)
    let (tail, n) ← fillPieces vs nested fuel n r
    return (p.literal ++ body ++ tail, n)

/-- A text with its fields filled; fields may be nested less deep than `depth`. -/
def fillAt (vs : Values) : Nat → Numbering → List Char → Except Fault (List Char × Numbering)
  | 0, _, _ => .error (.template .nestedTooDeep)
  | depth + 1, n, cs => fillPieces vs (fillAt vs depth) cs.length n cs

/-- A template with its fields filled. -/
def fill (template : String) (vs : Values) : Except Fault String := do
  let (cs, _) ← fillAt vs 2 .undecided template.toList
  return String.ofList cs

/-! ### Quantities -/

/-- The literal text after the first field, up to the next field. -/
def textAfterField : List TemplatePiece → Option (TemplateField × List Char)
  | [] => none
  | p :: ps =>
    match p.field with
    | some f => some (f, (ps.head?.map (·.literal)).getD [])
    | none => textAfterField ps

/-- The values for a field: by position if its name is one or is missing, else by its name. -/
def valuesFor (f : TemplateField) (m : Magnitude) : Values :=
  if !f.name.isEmpty && !f.name.all isDigitLike then ⟨[], [(String.ofList f.name, m)]⟩
  else ⟨[m], []⟩

/-- A quantity in the unit that the template names after its first field; `convertTo` expresses the
quantity in that unit. -/
def showIn (table : UnitTable) (template : String)
    (convertTo : Quantity → Except Fault Magnitude) : Except Fault String := do
  match textAfterField (← liftTemplate (pieces template)) with
  | none => throw (.template (.noField template))
  | some (f, unit) =>
    let target ← Expression.readUnit table (String.ofList (trimBlank unit))
    fill template (valuesFor f (← convertTo target))

end Template

end UnitCalculus
