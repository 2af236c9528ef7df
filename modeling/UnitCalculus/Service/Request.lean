import UnitCalculus.Catalog
import UnitCalculus.Json

/-! # Requests

What a request to the service asks for, and what is wrong with a body that does not have the asked
form.  `Body` readers take a member of a body or say what is wrong with it. -/

namespace UnitCalculus.Service

/-- A request. -/
structure Request where
  method : String
  path : String
  headers : List (String × String)
  body : Option Json

namespace Request

/-- A header; letter case does not count in its name. -/
def header? (r : Request) (name : String) : Option String :=
  (r.headers.find? fun h => h.1.toLower == name.toLower).map (·.2)

/-- The path without a query. -/
def route (r : Request) : String :=
  String.ofList (r.path.toList.takeWhile fun c => c != '?' && c != '#')

end Request

/-- What is wrong with a part of a body. -/
inductive IssueKind where
  | missing
  | notAText
  | notAnObject
  /-- The whole body is no object. -/
  | notABody
  deriving DecidableEq, Repr

/-- The name of an issue. -/
def IssueKind.name : IssueKind → String
  | missing => "missing"
  | notAText => "string_type"
  | notAnObject => "dict_type"
  | notABody => "model_attributes_type"

/-- What is wrong with a body, and where. -/
structure Issue where
  kind : IssueKind
  location : List String
  deriving DecidableEq, Repr

/-- The issue as a document. -/
def Issue.toJson (i : Issue) : Json :=
  .list [.text i.kind.name, .texts i.location]

namespace Body

/-- A member of a body that was read, or the issues with it. -/
abbrev Reading (α : Type) := Except (List Issue) α

/-- The location of a member. -/
def location (names : List String) : List String := "body" :: names

/-- A text at a location. -/
def textAt (names : List String) : Json → Reading String
  | .text s => .ok s
  | _ => .error [⟨.notAText, location names⟩]

/-- A member that must be a text. -/
def text (members : List (String × Json)) (name : String) : Reading String :=
  match (Json.object members).get? name with
  | none => .error [⟨.missing, location [name]⟩]
  | some j => textAt [name] j

/-- A member that must be a text and has a default. -/
def textOr (members : List (String × Json)) (name standard : String) : Reading String :=
  match (Json.object members).get? name with
  | none => .ok standard
  | some j => textAt [name] j

/-- A member that may be missing or null and must be a text otherwise. -/
def text? (members : List (String × Json)) (name : String) : Reading (Option String) :=
  match (Json.object members).get? name with
  | none => .ok none
  | some .null => .ok none
  | some j => some <$> textAt [name] j

/-- Two readings, with the issues of both. -/
def both {α β : Type} (x : Reading α) (y : Reading β) : Reading (α × β) :=
  match x, y with
  | .ok a, .ok b => .ok (a, b)
  | .error e, .ok _ => .error e
  | .ok _, .error f => .error f
  | .error e, .error f => .error (e ++ f)

/-- The members of an object that must all be texts. -/
def textMembers (name : String) : List (String × Json) → Reading (List (String × String))
  | [] => .ok []
  | (key, j) :: r => do
    let (s, rest) ← both (textAt [name, key] j) (textMembers name r)
    return (key, s) :: rest

/-- A member that must be an object of texts. -/
def texts (members : List (String × Json)) (name : String) : Reading (List (String × String)) :=
  match (Json.object members).get? name with
  | none => .error [⟨.missing, location [name]⟩]
  | some (.object ms) => textMembers name ms
  | some _ => .error [⟨.notAnObject, location [name]⟩]

/-- The members of a whole body. -/
def members (body : Option Json) : Reading (List (String × Json)) :=
  match body with
  | none => .error [⟨.missing, location []⟩]
  | some .null => .error [⟨.missing, location []⟩]
  | some (.object ms) => .ok ms
  | some _ => .error [⟨.notABody, location []⟩]

end Body

end UnitCalculus.Service
