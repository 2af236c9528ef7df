import UnitCalculus.Magnitude.Arithmetic

/-! # Comparison of magnitudes

Numbers of different families are compared by their exact values; only a whole number beside an
unchecked number, and a word beside any number with a floating-point part, is rounded first.
Undefined numbers compare with nothing.  `hashKey` is a key made of the exact value, whatever the
family. -/

namespace UnitCalculus

/-- A comparison. -/
inductive Relation where
  | eq
  | ne
  | lt
  | le
  | gt
  | ge
  deriving DecidableEq, Repr

namespace Relation

/-- Whether the relation holds between values that compare in the given way, or not at all. -/
def holds : Relation → Option Ordering → Bool
  | eq, o => o == some .eq
  | ne, o => o != some .eq
  | lt, o => o == some .lt
  | le, o => o == some .lt || o == some .eq
  | gt, o => o == some .gt
  | ge, o => o == some .gt || o == some .eq

/-- The relation with its sides exchanged. -/
def swap : Relation → Relation
  | eq => eq
  | ne => ne
  | lt => gt
  | le => ge
  | gt => lt
  | ge => le

/-- Whether the relation asks for no order. -/
def isEquality : Relation → Bool
  | eq | ne => true
  | _ => false

/-- The sign of the relation. -/
def symbol : Relation → String
  | eq => "=="
  | ne => "!="
  | lt => "<"
  | le => "<="
  | gt => ">"
  | ge => ">="

end Relation

/-- A real number, an infinity or the undefined number. -/
inductive Extended where
  | finite (q : Rat)
  | infinite (negative : Bool)
  | undefined
  deriving DecidableEq, Repr

namespace Extended

open UnitCalculus.Decimal

/-- The exact value of a floating-point number. -/
def ofFloat (x : Float) : Extended :=
  match expand x with
  | .finite e => finite e.toRat
  | .infinite negative => infinite negative
  | .undefined => undefined

/-- How two values compare, unless one is undefined. -/
def order? : Extended → Extended → Option Ordering
  | finite p, finite q => some (if p < q then .lt else if q < p then .gt else .eq)
  | undefined, _ => none
  | _, undefined => none
  | infinite a, infinite b => some (if a == b then .eq else if a then .lt else .gt)
  | infinite a, finite _ => some (if a then .lt else .gt)
  | finite _, infinite b => some (if b then .gt else .lt)

end Extended

namespace Magnitude

/-- The exact value of a single real number. -/
def exact : Magnitude → Except NumberFault Extended
  | integer n => .ok (.finite n)
  | ratio q => .ok (.finite q)
  | real x => .ok (.ofFloat x)
  | unchecked x => .ok (.ofFloat x)
  | word n => .ok (.finite n.toInt)
  | _ => .error .unsupported

/-- How two real numbers compare. -/
def order (a b : Magnitude) : Except NumberFault (Option Ordering) :=
  match a, b with
  | integer m, unchecked y => do return (Extended.ofFloat (← floatOfInt m)).order? (.ofFloat y)
  | unchecked x, integer n => do return (Extended.ofFloat x).order? (.ofFloat (← floatOfInt n))
  | word m, unchecked y => .ok ((Extended.ofFloat (floatOfWord m)).order? (.ofFloat y))
  | unchecked x, word n => .ok ((Extended.ofFloat x).order? (.ofFloat (floatOfWord n)))
  | word m, real y => .ok ((Extended.ofFloat (floatOfWord m)).order? (.ofFloat y))
  | real x, word n => .ok ((Extended.ofFloat x).order? (.ofFloat (floatOfWord n)))
  | a, b => do return (← a.exact).order? (← b.exact)

/-- The parts of a complex number, and a real number as a complex one. -/
def complexParts : Magnitude → Except NumberFault (Extended × Extended)
  | complex z => .ok (.ofFloat z.re, .ofFloat z.im)
  | uncheckedComplex z => .ok (.ofFloat z.re, .ofFloat z.im)
  | m => do return (← m.exact, .finite 0)

/-- The parts of a number that is compared with another, one of the two being complex. -/
def partsBeside (m other : Magnitude) : Except NumberFault (Extended × Extended) :=
  match m, other with
  | integer n, uncheckedComplex _ => do return (.ofFloat (← floatOfInt n), .finite 0)
  | word n, complex _ => .ok (.ofFloat (floatOfWord n), .finite 0)
  | word n, uncheckedComplex _ => .ok (.ofFloat (floatOfWord n), .finite 0)
  | m, _ => m.complexParts

/-- Whether two pairs of parts are equal. -/
def equalParts (a b : Extended × Extended) : Bool :=
  a.1.order? b.1 == some .eq && a.2.order? b.2 == some .eq

/-- Whether a magnitude is a complex number. -/
def isComplex : Magnitude → Bool
  | complex _ | uncheckedComplex _ => true
  | _ => false

/-- Whether a magnitude is a single number. -/
def isNumber : Magnitude → Bool
  | vector _ | mask _ | truth _ | text _ | absent => false
  | _ => true

/-- The answer for values that cannot be compared: they differ, and have no order. -/
def incomparable (r : Relation) : Except NumberFault Magnitude :=
  match r with
  | .eq => .ok (truth false)
  | .ne => .ok (truth true)
  | _ => .error .unsupported

/-- Entry by entry, whether the relation holds. -/
def relateEntries (r : Relation) (xs ys : List Float) : List Bool :=
  List.zipWith (fun x y => r.holds ((Extended.ofFloat x).order? (.ofFloat y))) xs ys

/-- Whether the relation holds between two numbers. -/
def relateNumbers (r : Relation) (a b : Magnitude) : Except NumberFault Magnitude :=
  if a.isComplex || b.isComplex then
    if r.isEquality then do
      let same := equalParts (← a.partsBeside b) (← b.partsBeside a)
      return truth (if r == .eq then same else !same)
    else .error .unsupported
  else do return truth (r.holds (← order a b))

/-- Whether the relation holds: a truth value, or one for every entry of a vector. -/
def relate (r : Relation) (a b : Magnitude) : Except NumberFault Magnitude :=
  match a.numeric, b.numeric with
  | vector xs, vector ys => do
    let (xs, ys) ← matchLengths xs ys
    return mask (relateEntries r xs ys)
  | vector xs, n =>
    if n.isNumber then do
      let y ← n.toFloat
      return mask (xs.map fun x => r.holds ((Extended.ofFloat x).order? (.ofFloat y)))
    else if r.isEquality then .ok (mask (xs.map fun _ => r == .ne))
    else .error .unsupported
  | m, vector ys =>
    if m.isNumber then do
      let x ← m.toFloat
      return mask (ys.map fun y => r.holds ((Extended.ofFloat x).order? (.ofFloat y)))
    else if r.isEquality then .ok (mask (ys.map fun _ => r == .ne))
    else .error .unsupported
  | text s, text t => .ok (truth (r.holds (some (compare s t))))
  | absent, absent =>
    if r.isEquality then .ok (truth (r == .eq)) else .error .unsupported
  | m, n => if m.isNumber && n.isNumber then relateNumbers r m n else incomparable r

/-! ### Keys -/

/-- What magnitudes that hash alike have in common. -/
inductive HashKey where
  | number (re im : Extended)
  | text (s : String)
  | absent
  deriving DecidableEq, Repr

namespace HashKey

/-- Whether the key belongs to an undefined number, which equals nothing. -/
def isUndefined : HashKey → Bool
  | number re im => re == .undefined || im == .undefined
  | _ => false

/-- Whether two values with these keys hash alike. -/
def agrees (a b : HashKey) : Bool :=
  a == b && !a.isUndefined

end HashKey

/-- The key of a magnitude; vectors have none. -/
def hashKey (m : Magnitude) : Except NumberFault HashKey :=
  match m.numeric with
  | text s => .ok (.text s)
  | absent => .ok .absent
  | n => do
    let (re, im) ← n.complexParts
    return .number re im

end Magnitude

end UnitCalculus
