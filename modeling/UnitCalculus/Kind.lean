import UnitCalculus.Fault

/-! # Kinds of quantities

A kind stands for one dimension and gives it a name, such as `Length`.  `Kinds` holds the kinds that
exist; `Kinds.intern` returns the kind of a dimension and makes a new one only if there is none, so
that no two kinds have the same dimension and no kind ever changes.  Computations that may need new
kinds run in `Interning`, where the kinds survive a failure. -/

namespace UnitCalculus

/-- A named dimension. -/
structure Kind where
  name : String
  dimension : Dimension
  deriving DecidableEq, Repr

namespace Kind

/-- Whether two kinds stand for the same dimension. -/
def same (a b : Kind) : Bool := a.dimension.same b.dimension

/-- The name of a kind that nobody named. -/
def defaultName (d : Dimension) : String := "Quantity" ++ d.text

end Kind

/-- The kinds that exist, the oldest first. -/
structure Kinds where
  all : List Kind
  deriving DecidableEq, Repr

/-- A computation that may make new kinds and may fail. -/
abbrev Interning (α : Type) := ExceptT Fault (StateM Kinds) α

namespace Kinds

/-- No kinds. -/
def empty : Kinds := ⟨[]⟩

/-- The kind of a dimension, if it exists. -/
def find? (ks : Kinds) (d : Dimension) : Option Kind :=
  ks.all.find? fun k => k.dimension.same d

/-- The name of a new kind: the given one unless it is empty. -/
def newName (d : Dimension) (name : Option String) : String :=
  match name with
  | some s => if s == "" then Kind.defaultName d else s
  | none => Kind.defaultName d

/-- The kind of a dimension, and the kinds that exist then. -/
def intern (d : Dimension) (name : Option String) (ks : Kinds) : Kind × Kinds :=
  match ks.find? d with
  | some k => (k, ks)
  | none =>
    let k : Kind := ⟨newName d name, d⟩
    (k, ⟨ks.all ++ [k]⟩)

end Kinds

namespace Interning

/-- The kind of a dimension; the name counts only if the kind is new. -/
def kind (d : Dimension) (name : Option String) : Interning Kind :=
  fun ks => let (k, ks) := ks.intern d name; (.ok k, ks)

/-- A computation that needs no kinds. -/
def lift {α : Type} (r : Except Fault α) : Interning α :=
  fun ks => (r, ks)

/-- The result, and the kinds that exist afterwards. -/
def runWith {α : Type} (ks : Kinds) (x : Interning α) : Except Fault α × Kinds := x ks

end Interning

end UnitCalculus
