import UnitCalculus.Proofs.UnitTable
import UnitCalculus.SI

/-! # Finding a symbol

A symbol that is no unit is split into a factor symbol and a unit symbol.  In the tables that
definitions, loads and copies lead to (`Reachable`), no factor symbol is longer than the table says,
so that the search meets every split, longer factors first (`lookupSplit_spec`): a symbol with a
split stands for the multiple of the unit by the longest factor, and only a symbol without any is
unknown (`lookup_longest_split`).

There is one exception.  A symbol that is itself that of a factor is refused at once, whatever
shorter factor it may start with: where the are is defined, `da` is no tenth of it
(`not_lookup_longest_split`). -/

namespace UnitCalculus

namespace UnitTable

/-! ### Tables that can be reached -/

/-- The tables that definitions, loads and copies lead to.  Of a load that ends early, what it
defined until then stays. -/
inductive Reachable : UnitTable → Prop
  | empty : Reachable .empty
  | addUnit {t t' : UnitTable} (symbol : String) (value : Operand) (h : Reachable t)
      (ht : t.addUnit symbol value = .ok t') : Reachable t'
  | addFactor {t t' : UnitTable} (symbol : String) (value : Operand) (h : Reachable t)
      (ht : t.addFactor symbol value = .ok t') : Reachable t'
  | load {t : UnitTable} (text : Option String) (h : Reachable t) :
      Reachable (t.load text).loading.table
  | copy {t : UnitTable} (h : Reachable t) : Reachable t.copy
  | freeze {t : UnitTable} (h : Reachable t) : Reachable t.freeze

/-- Units and factors have symbols, and the symbols of factors are not longer than the table
says. -/
structure Indexed (t : UnitTable) : Prop where
  units : ∀ u ∈ t.units.entries, u.1 ≠ ""
  factors : ∀ f ∈ t.factors.entries, f.1 ≠ ""
  longest : ∀ f ∈ t.factors.entries, f.1.length ≤ t.longestFactor

section reachable

variable {t : UnitTable} {symbol : String}

theorem indexed_empty : Indexed .empty := ⟨nofun, nofun, nofun⟩

theorem Indexed.insertUnit (ht : t.Indexed) (hs : symbol ≠ "") (q : Quantity) :
    (t.insertUnit symbol q).Indexed := by
  refine ⟨fun u hu => ?_, ht.factors, ht.longest⟩
  rcases Catalog.mem_entries_insert hu with rfl | hu
  · exact hs
  · exact ht.units u hu

theorem Indexed.insertFactor (ht : t.Indexed) (hs : symbol ≠ "") (m : Magnitude) :
    (t.insertFactor symbol m).Indexed := by
  refine ⟨ht.units, fun f hf => ?_, fun f hf => ?_⟩
  · rcases Catalog.mem_entries_insert hf with rfl | hf
    · exact hs
    · exact ht.factors f hf
  · rcases Catalog.mem_entries_insert hf with rfl | hf
    · exact Nat.le_max_right _ _
    · exact (ht.longest f hf).trans (Nat.le_max_left _ _)

/-- What entering units and factors keeps, and copying and freezing, holds of all tables that can be
reached. -/
theorem Reachable.keeps {P : UnitTable → Prop} (hempty : P .empty)
    (hunit : ∀ t symbol q, symbol ≠ "" → P t → P (t.insertUnit symbol q))
    (hfactor : ∀ t symbol m, symbol ≠ "" → P t → P (t.insertFactor symbol m))
    (hcopy : ∀ t, P t → P t.copy) (hfreeze : ∀ t, P t → P t.freeze) (ht : t.Reachable) : P t := by
  have addUnit : ∀ t symbol value, P t → Yields P (t.addUnit symbol value) := by
    intro t symbol value ht t' h
    obtain ⟨hs, -, q, -, rfl⟩ := addUnit_eq_ok_iff.mp h
    exact hunit t symbol q hs ht
  have addFactor : ∀ t symbol value, P t → Yields P (t.addFactor symbol value) := by
    intro t symbol value ht t' h
    obtain ⟨hs, -, m, -, -, rfl⟩ := addFactor_eq_ok_iff.mp h
    exact hfactor t symbol m hs ht
  induction ht with
  | empty => exact hempty
  | addUnit symbol value _ ht ih => exact addUnit _ symbol value ih _ ht
  | addFactor symbol value _ ht ih => exact addFactor _ symbol value ih _ ht
  | load text _ ih =>
    exact load_keeps (fun t symbol _ q ht _ => addUnit t symbol (.quantity q) ht)
      (fun t symbol x ht => addFactor t symbol (.magnitude (.real x)) ht) ih text
  | copy _ ih => exact hcopy _ ih
  | freeze _ ih => exact hfreeze _ ih

theorem Reachable.indexed (ht : t.Reachable) : t.Indexed :=
  ht.keeps indexed_empty (fun _ _ q hs h => h.insertUnit hs q)
    (fun _ _ m hs h => h.insertFactor hs m) (fun _ h => ⟨h.units, h.factors, h.longest⟩)
    (fun _ h => ⟨h.units, h.factors, h.longest⟩)

/-- The table can be reached, and takes more definitions. -/
def Growing (t : UnitTable) : Prop := t.Reachable ∧ t.frozen = false

theorem growing_empty : Growing .empty := ⟨.empty, rfl⟩

theorem Growing.insertUnit (ht : t.Growing) (hs : symbol ≠ "") (q : Quantity) :
    (t.insertUnit symbol q).Growing :=
  ⟨.addUnit symbol (.quantity q) ht.1 (addUnit_eq_ok_iff.mpr ⟨hs, ht.2, q, rfl, rfl⟩), ht.2⟩

theorem Growing.insertFactor (ht : t.Growing) (hs : symbol ≠ "") (x : Float) :
    (t.insertFactor symbol (.real x)).Growing :=
  ⟨.addFactor symbol (.magnitude (.real x)) ht.1
    (addFactor_eq_ok_iff.mpr ⟨hs, ht.2, .real x, rfl, rfl, rfl⟩), ht.2⟩

/-- The international system can be reached. -/
theorem reachable_openTable : SI.openTable.Reachable := by
  have hunits : ∀ u ∈ SI.unitSymbols, u.1 ≠ "" := by decide
  have hfactors : ∀ f ∈ SI.namedFactors, f.symbol ≠ "" := by decide
  have hothers : ∀ f ∈ SI.otherFactors, f.1 ≠ "" := by decide
  suffices h : SI.openTable.Growing from h.1
  unfold SI.openTable
  refine List.foldlRecOn (motive := Growing) _ _ ?_
    fun t ht f hf => ht.insertFactor (hothers f hf) f.2
  refine List.foldlRecOn (motive := Growing) _ _ ?_
    fun t ht f hf => ht.insertFactor (hfactors f hf) f.value
  exact List.foldlRecOn (motive := Growing) _ _ growing_empty
    fun t ht u hu => ht.insertUnit (hunits u hu) (SI.unit u.2)

end reachable

/-! ### Splits -/

/-- A way to read a symbol as that of a factor, and behind it that of a unit. -/
structure Split (t : UnitTable) (symbol : String) where
  factor : String
  unit : String
  value : Magnitude
  quantity : Quantity
  symbol_eq : symbol = factor ++ unit
  find_factor : t.factors.find? factor = some value
  find_unit : t.units.find? unit = some quantity

namespace Split

variable {t : UnitTable} {symbol : String}

/-- The multiple of the unit by the factor. -/
def multiple (s : t.Split symbol) : Except Fault Quantity := s.quantity.numberWith .mul s.value

/-- No split of the symbol has a longer factor. -/
def IsLongest (s : t.Split symbol) : Prop :=
  ∀ s' : t.Split symbol, s'.factor.length ≤ s.factor.length

/-- A split is determined by the length of its factor. -/
theorem ext_length {s s' : t.Split symbol} (h : s.factor.length = s'.factor.length) : s = s' := by
  obtain ⟨p, u, m, q, hs, hp, hu⟩ := s
  obtain ⟨p', u', m', q', hs', hp', hu'⟩ := s'
  have happend : p.toList ++ u.toList = p'.toList ++ u'.toList := by
    rw [← String.toList_append, ← String.toList_append, ← hs, ← hs']
  obtain ⟨hfactor, hunit⟩ := List.append_inj happend (by simpa only [String.length_toList] using h)
  obtain rfl := String.toList_inj.mp hfactor
  obtain rfl := String.toList_inj.mp hunit
  obtain rfl := Option.some.inj (hp.symm.trans hp')
  obtain rfl := Option.some.inj (hu.symm.trans hu')
  rfl

theorem length_eq (s : t.Split symbol) : symbol.length = s.factor.length + s.unit.length := by
  rw [← String.length_append, ← s.symbol_eq]

theorem factor_pos (ht : t.Indexed) (s : t.Split symbol) : 0 < s.factor.length := by
  have hne := ht.factors _ (Catalog.find?_eq_some_iff.mp s.find_factor)
  exact Nat.pos_of_ne_zero fun h => hne (String.length_eq_zero_iff.mp h)

theorem unit_pos (ht : t.Indexed) (s : t.Split symbol) : 0 < s.unit.length := by
  have hne := ht.units _ (Catalog.find?_eq_some_iff.mp s.find_unit)
  exact Nat.pos_of_ne_zero fun h => hne (String.length_eq_zero_iff.mp h)

theorem factor_le (ht : t.Indexed) (s : t.Split symbol) :
    s.factor.length ≤ min t.longestFactor symbol.length := by
  have hlength := s.length_eq
  have hlongest := ht.longest _ (Catalog.find?_eq_some_iff.mp s.find_factor)
  exact Nat.le_min.mpr ⟨hlongest, by omega⟩

theorem splitAt_length (s : t.Split symbol) :
    splitAt symbol s.factor.length = (s.factor, s.unit) := by
  simp [splitAt, s.symbol_eq, ← String.length_toList]

end Split

section lookup

variable {t : UnitTable} {symbol : String}

theorem splitAt_append (symbol : String) (n : ℕ) :
    (splitAt symbol n).1 ++ (splitAt symbol n).2 = symbol := by
  rw [splitAt, ← String.ofList_append, List.take_append_drop, String.ofList_toList]

/-- One length of the search: there is a split with a factor of this length, which is taken, or
there is none and the search goes on with shorter factors. -/
theorem lookupSplit_succ (hwhole : t.factors.find? symbol = none) {n : ℕ}
    (hn : n + 1 ≤ symbol.length) :
    (∃ s : t.Split symbol, s.factor.length = n + 1 ∧ t.lookupSplit symbol (n + 1) = s.multiple) ∨
      ((∀ s : t.Split symbol, s.factor.length ≠ n + 1) ∧
        t.lookupSplit symbol (n + 1) = t.lookupSplit symbol n) := by
  have happend := splitAt_append symbol (n + 1)
  have hlength : (splitAt symbol (n + 1)).1.length = n + 1 := by
    simpa [splitAt, ← String.length_toList] using hn
  have hsplit : ∀ s : t.Split symbol, s.factor.length = n + 1 →
      splitAt symbol (n + 1) = (s.factor, s.unit) := fun s hs => hs ▸ s.splitAt_length
  rw [lookupSplit]
  generalize splitAt symbol (n + 1) = parts at happend hlength hsplit
  obtain ⟨head, rest⟩ := parts
  dsimp only at happend hlength ⊢
  cases hfactor : t.factors.find? head with
  | none =>
    refine .inr ⟨fun s hs => ?_, rfl⟩
    cases hsplit s hs
    rw [s.find_factor] at hfactor
    cases hfactor
  | some m =>
    have hrest : rest ≠ "" := by
      rintro rfl
      rw [String.append_empty] at happend
      rw [happend, hwhole] at hfactor
      cases hfactor
    simp only [beq_eq_false_iff_ne.mpr hrest, Bool.false_eq_true, if_false]
    cases hunit : t.units.find? rest with
    | none =>
      refine .inr ⟨fun s hs => ?_, rfl⟩
      cases hsplit s hs
      rw [s.find_unit] at hunit
      cases hunit
    | some q => exact .inl ⟨⟨head, rest, m, q, happend.symm, hfactor, hunit⟩, hlength, rfl⟩

/-- The search for factors of at most a given length: the split with the longest of them is taken,
and where there is none the symbol is unknown. -/
theorem lookupSplit_spec (ht : t.Indexed) (hwhole : t.factors.find? symbol = none) {n : ℕ}
    (hn : n ≤ symbol.length) :
    (∃ s : t.Split symbol,
      (∀ s' : t.Split symbol, s'.factor.length ≤ n → s'.factor.length ≤ s.factor.length) ∧
        t.lookupSplit symbol n = s.multiple) ∨
      ((∀ s : t.Split symbol, n < s.factor.length) ∧
        t.lookupSplit symbol n = .error (.expression ⟨.unknownSymbol symbol, symbol, 0⟩)) := by
  induction n with
  | zero => exact .inr ⟨fun s => s.factor_pos ht, rfl⟩
  | succ n ih =>
    rcases lookupSplit_succ hwhole hn with ⟨s, hs, hlookup⟩ | ⟨hnone, hlookup⟩
    · exact .inl ⟨s, fun s' hs' => hs ▸ hs', hlookup⟩
    · rw [hlookup]
      rcases ih (by omega) with ⟨s, hs, hmultiple⟩ | ⟨hlong, hunknown⟩
      · refine .inl ⟨s, fun s' hs' => hs s' ?_, hmultiple⟩
        have hne := hnone s'
        omega
      · refine .inr ⟨fun s => ?_, hunknown⟩
        have hlt := hlong s
        have hne := hnone s
        omega

/-- A symbol that is no unit is split at its longest factor, and unknown if it has no split. -/
theorem lookup_split (ht : t.Indexed) (hunit : t.units.find? symbol = none)
    (hwhole : t.factors.find? symbol = none) :
    (∃ s : t.Split symbol, s.IsLongest ∧ t.lookup symbol = s.multiple) ∨
      (IsEmpty (t.Split symbol) ∧
        t.lookup symbol = .error (.expression ⟨.unknownSymbol symbol, symbol, 0⟩)) := by
  rw [lookup, hunit]
  dsimp only
  rcases lookupSplit_spec ht hwhole (Nat.min_le_right t.longestFactor symbol.length) with
    ⟨s, hs, hmultiple⟩ | ⟨hlong, hunknown⟩
  · exact .inl ⟨s, fun s' => hs s' (s'.factor_le ht), hmultiple⟩
  · exact .inr ⟨⟨fun s => absurd (hlong s) (Nat.not_lt.mpr (s.factor_le ht))⟩, hunknown⟩

/-- A symbol that is that of a factor, and of no unit, is refused. -/
theorem lookup_factor (ht : t.Indexed) (hunit : t.units.find? symbol = none) {m : Magnitude}
    (hwhole : t.factors.find? symbol = some m) :
    t.lookup symbol = .error (.expression ⟨.unitMissing symbol, symbol, symbol.length⟩) := by
  have hmem := Catalog.find?_eq_some_iff.mp hwhole
  have hpos : symbol.length ≠ 0 := fun h => ht.factors _ hmem (String.length_eq_zero_iff.mp h)
  obtain ⟨n, hn⟩ := Nat.exists_eq_succ_of_ne_zero hpos
  have hsplit : splitAt symbol (n + 1) = (symbol, "") := by
    simp [splitAt, ← Nat.succ_eq_add_one, ← hn, ← String.length_toList]
  rw [lookup, hunit, Nat.min_eq_right (ht.longest _ hmem)]
  dsimp only
  rw [hn, lookupSplit, hsplit]
  dsimp only
  rw [hwhole]
  rfl

/-! ### One more symbol -/

/-- The symbol is that of the unit, or that of a factor and the unit. -/
def Builds (t : UnitTable) (unit symbol : String) : Prop :=
  symbol = unit ∨ ∃ factor m, t.factors.find? factor = some m ∧ symbol = factor ++ unit

theorem Builds.suffix {unit : String} (h : t.Builds unit symbol) :
    unit.toList <:+ symbol.toList := by
  rcases h with rfl | ⟨factor, -, -, rfl⟩
  · exact List.suffix_rfl
  · rw [String.toList_append]
    exact List.suffix_append _ _

/-- One more unit makes no difference to the symbols that are not built from its symbol. -/
theorem lookup_insertUnit {unit : String} (h : ¬ t.Builds unit symbol) (q : Quantity) :
    (t.insertUnit unit q).lookup symbol = t.lookup symbol := by
  have hfind : ∀ {rest : String}, rest ≠ unit →
      (t.insertUnit unit q).units.find? rest = t.units.find? rest := fun hrest => by
    rw [insertUnit, Catalog.find?_insert, if_neg hrest]
  have hsplit : ∀ n, (t.insertUnit unit q).lookupSplit symbol n = t.lookupSplit symbol n := by
    intro n
    induction n with
    | zero => rfl
    | succ n ih =>
      have happend := splitAt_append symbol (n + 1)
      rw [lookupSplit, lookupSplit]
      generalize splitAt symbol (n + 1) = parts at happend ⊢
      obtain ⟨head, rest⟩ := parts
      dsimp only at happend ⊢
      rw [ih, show (t.insertUnit unit q).factors = t.factors from rfl]
      cases hfactor : t.factors.find? head with
      | none => rfl
      | some m =>
        have hrest : rest ≠ unit := by
          rintro rfl
          exact h (.inr ⟨head, m, hfactor, happend.symm⟩)
        rw [hfind hrest]
  rw [lookup, lookup, hfind fun heq => h (.inl heq), hsplit]
  rfl

/-- No factor is longer than the longest one. -/
theorem lookupSplit_of_longest_le (ht : t.Indexed) {n : ℕ} (hn : n ≤ symbol.length)
    (hlongest : t.longestFactor ≤ n) :
    t.lookupSplit symbol n = t.lookupSplit symbol t.longestFactor := by
  induction n, hlongest using Nat.le_induction with
  | base => rfl
  | succ n hlongest ih =>
    rw [← ih (by omega), lookupSplit]
    have hhead : t.factors.find? (splitAt symbol (n + 1)).1 = none := by
      refine Option.eq_none_iff_forall_ne_some.mpr fun m hm => ?_
      have hle := ht.longest _ (Catalog.find?_eq_some_iff.mp hm)
      have hlength : (splitAt symbol (n + 1)).1.length = n + 1 := by
        simpa [splitAt, ← String.length_toList] using hn
      dsimp only at hle
      omega
    generalize splitAt symbol (n + 1) = parts at hhead ⊢
    obtain ⟨head, rest⟩ := parts
    dsimp only at hhead ⊢
    rw [hhead]

/-- One more factor makes no difference to the units, and to the symbols that do not start with its
symbol. -/
theorem lookup_insertFactor (ht : t.Indexed) {factor : String}
    (h : (∃ q, t.units.find? symbol = some q) ∨ ¬ factor.toList <+: symbol.toList)
    (m : Magnitude) : (t.insertFactor factor m).lookup symbol = t.lookup symbol := by
  rw [lookup, lookup, show (t.insertFactor factor m).units = t.units from rfl]
  rcases h with ⟨q, hq⟩ | hprefix
  · rw [hq]
  · cases t.units.find? symbol with
    | some q => rfl
    | none =>
      have hsplit : ∀ n, (t.insertFactor factor m).lookupSplit symbol n = t.lookupSplit symbol n := by
        intro n
        induction n with
        | zero => rfl
        | succ n ih =>
          have hhead : (splitAt symbol (n + 1)).1 ≠ factor := by
            rintro rfl
            rw [splitAt, String.toList_ofList] at hprefix
            exact hprefix (List.take_prefix _ _)
          rw [lookupSplit, lookupSplit]
          generalize splitAt symbol (n + 1) = parts at hhead ⊢
          obtain ⟨head, rest⟩ := parts
          dsimp only at hhead ⊢
          rw [ih, insertFactor, Catalog.find?_insert, if_neg hhead]
      -- Longer factors are looked for, but there is none of them in front of the symbol.
      dsimp only
      rw [hsplit, show (t.insertFactor factor m).longestFactor =
        max t.longestFactor factor.length from rfl]
      rcases Nat.le_total symbol.length t.longestFactor with hle | hle
      · rw [Nat.min_eq_right hle, Nat.min_eq_right (hle.trans (Nat.le_max_left _ _))]
      · rw [Nat.min_eq_left hle]
        exact lookupSplit_of_longest_le ht (Nat.min_le_right _ _)
          (Nat.le_min.mpr ⟨Nat.le_max_left _ _, hle⟩)

/-! ### The quantity of a symbol -/

theorem multiple_ne_expression (s : t.Split symbol) (f : ExpressionFault) :
    s.multiple ≠ .error (.expression f) := by
  have hfaults : OnlyFaults Arithmetic s.multiple :=
    (onlyFaults_liftNumber _).bind fun _ _ => onlyFaults_ok _
  intro h
  obtain ⟨n, hn⟩ := hfaults _ h
  cases hn

/-- What a symbol stands for: a unit of that name; else, unless the symbol is that of a factor, the
multiple of a unit by the longest factor that leaves one.  It is refused when it is that of a factor
or can be split in no way. -/
theorem lookup_longest_split (ht : t.Reachable) (symbol : String) :
    (∀ q, t.units.find? symbol = some q → t.lookup symbol = .ok q) ∧
    (t.units.find? symbol = none → t.factors.find? symbol = none →
      ∀ s : t.Split symbol, s.IsLongest → t.lookup symbol = s.multiple) ∧
    (t.units.find? symbol = none → t.factors.find? symbol ≠ none →
      t.lookup symbol = .error (.expression ⟨.unitMissing symbol, symbol, symbol.length⟩)) ∧
    ((∃ f, t.lookup symbol = .error (.expression f)) ↔
      t.units.find? symbol = none ∧
        (t.factors.find? symbol ≠ none ∨ IsEmpty (t.Split symbol))) := by
  have hindexed := ht.indexed
  have hnamed : ∀ q, t.units.find? symbol = some q → t.lookup symbol = .ok q := by
    intro q hq
    rw [lookup, hq]
  have hrefused : t.units.find? symbol = none → t.factors.find? symbol ≠ none →
      t.lookup symbol = .error (.expression ⟨.unitMissing symbol, symbol, symbol.length⟩) := by
    intro hunit hwhole
    obtain ⟨m, hm⟩ := Option.ne_none_iff_exists'.mp hwhole
    exact lookup_factor hindexed hunit hm
  refine ⟨hnamed, fun hunit hwhole s hs => ?_, hrefused, ?_, ?_⟩
  · rcases lookup_split hindexed hunit hwhole with ⟨s', hs', hmultiple⟩ | ⟨hempty, -⟩
    · rw [hmultiple, Split.ext_length (Nat.le_antisymm (hs' s) (hs s'))]
    · exact hempty.elim s
  · rintro ⟨f, hf⟩
    cases hunit : t.units.find? symbol with
    | some q =>
      rw [hnamed q hunit] at hf
      cases hf
    | none =>
      refine ⟨rfl, or_iff_not_imp_left.mpr fun hwhole => ?_⟩
      rcases lookup_split hindexed hunit (not_not.mp hwhole) with ⟨s, -, hmultiple⟩ | ⟨hempty, -⟩
      · exact absurd (hmultiple ▸ hf) (multiple_ne_expression s f)
      · exact hempty
  · rintro ⟨hunit, hwhole | hempty⟩
    · exact ⟨_, hrefused hunit hwhole⟩
    · by_cases hwhole : t.factors.find? symbol = none
      · rcases lookup_split hindexed hunit hwhole with ⟨s, -, -⟩ | ⟨-, hunknown⟩
        · exact hempty.elim s
        · exact ⟨_, hunknown⟩
      · exact ⟨_, hrefused hunit hwhole⟩

end lookup

/-- The metre, the are and a unit that makes `dam` ambiguous, with the factors of a tenth and of
ten. -/
def arealTable : UnitTable :=
  let t := (empty.insertFactor "d" (.real 0.1)).insertFactor "da" (.real 10.0)
  let t := (t.insertUnit "m" ⟨.real 1.0, SI.length⟩).insertUnit "a" ⟨.real 100.0, SI.length.pow 2⟩
  t.insertUnit "am" ⟨.real 2.0, SI.length⟩

theorem reachable_arealTable : arealTable.Reachable := by
  have hfactors := (growing_empty.insertFactor (show "d" ≠ "" by decide) 0.1).insertFactor
    (show "da" ≠ "" by decide) 10.0
  exact (((hfactors.insertUnit (show "m" ≠ "" by decide) _).insertUnit
    (show "a" ≠ "" by decide) _).insertUnit (show "am" ≠ "" by decide) _).1

/-- `dam` is ten metres, not a tenth of the unit `am`. -/
theorem lookup_longest_split_dam :
    arealTable.Reachable ∧ ∃ s : arealTable.Split "dam", s.factor = "da" ∧ s.IsLongest ∧
      arealTable.lookup "dam" = s.multiple ∧ s.multiple = .ok ⟨.real 10.0, SI.length⟩ := by
  have hfactor : arealTable.factors.find? "da" = some (.real 10.0) := by decide +kernel
  have hunit : arealTable.units.find? "m" = some ⟨.real 1.0, SI.length⟩ := by decide +kernel
  let s : arealTable.Split "dam" := ⟨"da", "m", _, _, rfl, hfactor, hunit⟩
  have hlongest : s.IsLongest := by
    intro s'
    have htwo : s.factor.length = 2 := (by decide : "da".length = 2)
    have hlength : 3 = s'.factor.length + s'.unit.length := s'.length_eq
    have hpos := s'.unit_pos reachable_arealTable.indexed
    omega
  have hmultiple : Quantity.numberWith .mul (.real 10.0) ⟨.real 1.0, SI.length⟩ =
      .ok ⟨.real 10.0, SI.length⟩ := by
    decide +kernel
  exact ⟨reachable_arealTable, s, rfl, hlongest,
    (lookup_longest_split reachable_arealTable "dam").2.1 (by decide +kernel) (by decide +kernel) s
      hlongest, hmultiple⟩

/-- `da` is refused for being the factor of ten, though `d` leaves the unit `a`. -/
theorem not_lookup_longest_split :
    ¬ ∀ t : UnitTable, t.Reachable → ∀ symbol, t.units.find? symbol = none →
      ∀ s : t.Split symbol, s.IsLongest → t.lookup symbol = s.multiple := by
  intro h
  have hfactor : arealTable.factors.find? "d" = some (.real 0.1) := by decide +kernel
  have hunit : arealTable.units.find? "a" = some ⟨.real 100.0, SI.length.pow 2⟩ := by
    decide +kernel
  let s : arealTable.Split "da" := ⟨"d", "a", _, _, rfl, hfactor, hunit⟩
  have hlongest : s.IsLongest := by
    intro s'
    have hone : s.factor.length = 1 := (by decide : "d".length = 1)
    have hlength : 2 = s'.factor.length + s'.unit.length := s'.length_eq
    have hpos := s'.unit_pos reachable_arealTable.indexed
    omega
  have hlookup := h arealTable reachable_arealTable "da" (by decide +kernel) s hlongest
  have hrefused : arealTable.lookup "da" =
      .error (.expression ⟨.unitMissing "da", "da", 2⟩) := by
    decide +kernel
  exact multiple_ne_expression s _ (hlookup.symm.trans hrefused)

end UnitTable

end UnitCalculus
