import UnitCalculus.Proofs.Expression.Symbols

/-! # New symbols in a table

A unit that is added to a table is met in the symbols that are built from its name: the name itself
and the name after a factor.  A factor is met in the symbols that start with it, unless they are
units of their own.  No other symbol changes its quantity or the fault it is refused for, and no
text without such symbols is read otherwise than before (`lookup_and_read_of_added`).

A text is read in two steps, its number and then the unit expression after it; only the symbols of
the second are looked up (`read_of_agree`). -/

namespace UnitCalculus

/-! ### The symbols that a text is read with -/

namespace Expression

variable {t t' : UnitTable} {reader : NumberReader} {text : String}

/-- What follows the number that a text starts with, or all of it if it starts with none. -/
def unitPart (reader : NumberReader) (text : String) : String :=
  match reader.read text with
  | .ok (some (_, rest)) => rest
  | _ => text

/-- The symbols of a text, in order; there are none if it cannot be cut into tokens. -/
def symbolsOf (reader : NumberReader) (text : String) : List String :=
  match Token.lex (unitPart reader text) with
  | .ok ts => (ts.filter fun x => x.kind == .symbol).map Token.text
  | .error _ => []

/-- Tables in which the symbols of a text stand for the same read the text alike. -/
theorem read_of_agree (h : ∀ symbol ∈ symbolsOf reader text, t.lookup symbol = t'.lookup symbol) :
    read t reader text = read t' reader text := by
  have hunit : readUnit t (unitPart reader text) = readUnit t' (unitPart reader text) := by
    refine readUnit_of_agree fun ts hlex x hx hsymbol => h x.text ?_
    rw [symbolsOf, hlex]
    exact List.mem_map_of_mem (List.mem_filter.mpr ⟨hx, beq_iff_eq.mpr hsymbol⟩)
  unfold read
  unfold unitPart at hunit
  cases hread : reader.read text with
  | error f => simp only [error_bind]
  | ok found =>
    rw [hread] at hunit
    rcases found with _ | ⟨m, rest⟩ <;>
      simp only [ok_bind, Option.getD_none, Option.getD_some] at hunit ⊢ <;>
      rw [hunit]

end Expression

/-! ### One more symbol -/

namespace UnitTable

variable {t t' : UnitTable}

/-- The symbols of a set are looked up in the second table as in the first, and texts that have no
other symbols are read as in the first. -/
structure Keeps (old : String → Prop) (t t' : UnitTable) : Prop where
  lookup : ∀ symbol, old symbol → t'.lookup symbol = t.lookup symbol
  read : ∀ reader text, (∀ symbol ∈ Expression.symbolsOf reader text, old symbol) →
    Expression.read t' reader text = Expression.read t reader text

theorem Keeps.of_lookup {old : String → Prop}
    (h : ∀ symbol, old symbol → t'.lookup symbol = t.lookup symbol) : Keeps old t t' where
  lookup := h
  read _ _ hold := Expression.read_of_agree fun symbol hsymbol => h symbol (hold symbol hsymbol)

/-- **A new symbol is met in the names that are built from it only.**  After a unit is added, every
symbol stands for the same quantity as before, or is refused for the same reason, unless it is that
of the unit or that of a factor and the unit; after a factor is added, unless the symbol starts with
it and is no unit itself.  So are texts read as before, if they have none of these symbols. -/
theorem lookup_and_read_of_added (ht : t.Reachable) :
    (∀ unit value t', t.addUnit unit value = .ok t' →
      t.Keeps (fun symbol => symbol ≠ unit ∧
        ∀ factor ∈ t.factors.keys, symbol ≠ factor ++ unit) t') ∧
    (∀ factor value t', t.addFactor factor value = .ok t' →
      t.Keeps (fun symbol => symbol ∈ t.units.keys ∨ ¬ factor.toList <+: symbol.toList) t') := by
  constructor
  · intro unit value t' hadd
    obtain ⟨-, -, q, -, rfl⟩ := addUnit_eq_ok_iff.mp hadd
    refine .of_lookup fun symbol hold => lookup_insertUnit ?_ q
    rintro (heq | ⟨factor, m, hfactor, heq⟩)
    · exact hold.1 heq
    · exact hold.2 factor (List.mem_map_of_mem (Catalog.find?_eq_some_iff.mp hfactor)) heq
  · intro factor value t' hadd
    obtain ⟨-, -, m, -, -, rfl⟩ := addFactor_eq_ok_iff.mp hadd
    refine .of_lookup fun symbol hold => lookup_insertFactor ht.indexed ?_ m
    exact hold.imp_left Catalog.exists_find?_of_mem_keys

/-- Neither the hectare nor a factor `a` makes a difference to areas in decametres and `am`. -/
theorem lookup_and_read_of_added_arealTable :
    arealTable.Reachable ∧
      (∃ t', arealTable.addUnit "ha" (.quantity ⟨.real 10000.0, SI.length.pow 2⟩) = .ok t' ∧
        t'.lookup "dha" ≠ arealTable.lookup "dha" ∧
        Expression.read t' .decimal "25 dam.am" =
          Expression.read arealTable .decimal "25 dam.am") ∧
      ∃ t', arealTable.addFactor "a" (.magnitude (.real 0.001)) = .ok t' ∧
        t'.lookup "aa" ≠ arealTable.lookup "aa" ∧
        Expression.read t' .decimal "25 dam.am" =
          Expression.read arealTable .decimal "25 dam.am" := by
  have hsymbols : Expression.symbolsOf .decimal "25 dam.am" = ["dam", "am"] := by decide +kernel
  have hhectare : arealTable.addUnit "ha" (.quantity ⟨.real 10000.0, SI.length.pow 2⟩) =
      .ok (arealTable.insertUnit "ha" ⟨.real 10000.0, SI.length.pow 2⟩) := rfl
  have hfactor : arealTable.addFactor "a" (.magnitude (.real 0.001)) =
      .ok (arealTable.insertFactor "a" (.real 0.001)) := rfl
  obtain ⟨hunits, hfactors⟩ := lookup_and_read_of_added reachable_arealTable
  refine ⟨reachable_arealTable, ⟨_, hhectare, by decide +kernel, ?_⟩,
    ⟨_, hfactor, by decide +kernel, ?_⟩⟩
  · refine (hunits _ _ _ hhectare).read _ _ ?_
    rw [hsymbols]
    decide +kernel
  · refine (hfactors _ _ _ hfactor).read _ _ ?_
    rw [hsymbols]
    decide +kernel

end UnitTable

end UnitCalculus
