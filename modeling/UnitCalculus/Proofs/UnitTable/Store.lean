import UnitCalculus.Proofs.UnitTable.Lookup

/-! # Runs over several tables

Tables are made empty, with the international system or as copies of others, and each is then asked
to define, load, freeze or look up (`UnitTable.Request`).  A run is a list of such events over a
store of tables (`Store.run`).

A frozen table stays as it is whatever it is asked (`respond_of_frozen`), and so does any table that
refuses a definition (`respond_of_refused`).  After any run a table is what its own requests have
made of it since it was there (`Store.getElem?_foldl`), so that a copy and its original do not
touch each other. -/

namespace UnitCalculus

namespace UnitTable

variable {t t' : UnitTable} {symbol : String}

/-! ### The longest factor -/

/-- Some factor is as long as the table says, unless it says zero. -/
def Attained (t : UnitTable) : Prop :=
  t.longestFactor = 0 ∨ ∃ key ∈ t.factors.keys, key.length = t.longestFactor

theorem Attained.insertFactor (ht : t.Attained) (symbol : String) (m : Magnitude) :
    (t.insertFactor symbol m).Attained := by
  have hkeys : ∀ key, key ∈ (t.insertFactor symbol m).factors.keys ↔
      key = symbol ∨ key ∈ t.factors.keys := fun _ => Catalog.mem_keys_upsert
  rcases Nat.le_total t.longestFactor symbol.length with hle | hle
  · exact .inr ⟨symbol, (hkeys symbol).mpr (.inl rfl), (Nat.max_eq_right hle).symm⟩
  · have hlongest : (t.insertFactor symbol m).longestFactor = t.longestFactor :=
      Nat.max_eq_left hle
    rcases ht with hzero | ⟨key, hkey, hlength⟩
    · exact .inl (hlongest.trans hzero)
    · exact .inr ⟨key, (hkeys key).mpr (.inr hkey), hlength.trans hlongest.symm⟩

theorem Reachable.attained (ht : t.Reachable) : t.Attained :=
  ht.keeps (.inl rfl) (fun _ _ _ _ h => h) (fun _ symbol m _ h => h.insertFactor symbol m)
    (fun _ h => h) (fun _ h => h)

/-- The table knows the length of its longest factor. -/
theorem Reachable.longestFactor_eq (ht : t.Reachable) :
    t.longestFactor = (t.factors.keys.map String.length).max?.getD 0 := by
  have hle : ∀ n ∈ t.factors.keys.map String.length, n ≤ t.longestFactor := by
    intro n hn
    obtain ⟨key, hkey, rfl⟩ := List.mem_map.mp hn
    obtain ⟨f, hf, rfl⟩ := List.mem_map.mp hkey
    exact ht.indexed.longest f hf
  cases hmax : (t.factors.keys.map String.length).max? with
  | none =>
    have hkeys : t.factors.keys = [] := List.map_eq_nil_iff.mp (List.max?_eq_none_iff.mp hmax)
    rcases ht.attained with hzero | ⟨key, hkey, -⟩
    · exact hzero
    · rw [hkeys] at hkey
      cases hkey
  | some n =>
    obtain ⟨hn, hmax⟩ := List.max?_eq_some_iff.mp hmax
    rcases ht.attained with hzero | ⟨key, hkey, hlength⟩
    · have := hle n hn
      simp only [Option.getD_some]
      omega
    · have := hmax _ (List.mem_map_of_mem hkey)
      exact le_antisymm (hlength ▸ this) (hle n hn)

/-! ### Requests -/

/-- What a table may be asked to do. -/
inductive Request where
  | addUnit (symbol : String) (value : Operand)
  | addFactor (symbol : String) (value : Operand)
  | freeze
  | load (text : Option String)
  | lookup (symbol : String)

/-- Whether the request is for one definition. -/
def Request.defines : Request → Bool
  | addUnit _ _ | addFactor _ _ => true
  | _ => false

/-- A definition takes effect where it is not refused. -/
def changed (t : UnitTable) : Except Fault UnitTable → Option Fault × UnitTable
  | .ok t' => (none, t')
  | .error f => (some f, t)

/-- The fault of a request, if it fails, and the table afterwards. -/
def respond (t : UnitTable) : Request → Option Fault × UnitTable
  | .addUnit symbol value => t.changed (t.addUnit symbol value)
  | .addFactor symbol value => t.changed (t.addFactor symbol value)
  | .freeze => (none, t.freeze)
  | .load text => ((t.load text).fault, (t.load text).loading.table)
  | .lookup symbol =>
    match t.lookup symbol with
    | .ok _ => (none, t)
    | .error f => (some f, t)

theorem changed_snd {P : UnitTable → Prop} {r : Except Fault UnitTable} (ht : P t)
    (hr : Yields P r) : P (t.changed r).2 := by
  cases r with
  | ok t' => exact hr t' rfl
  | error f => exact ht

theorem lookup_snd (t : UnitTable) (symbol : String) : (t.respond (.lookup symbol)).2 = t := by
  unfold respond
  dsimp only
  split <;> rfl

theorem Reachable.respond (ht : t.Reachable) (r : Request) : (t.respond r).2.Reachable := by
  cases r with
  | addUnit symbol value => exact changed_snd ht fun _ h => .addUnit symbol value ht h
  | addFactor symbol value => exact changed_snd ht fun _ h => .addFactor symbol value ht h
  | freeze => exact ht.freeze
  | load text => exact ht.load text
  | lookup symbol => rwa [lookup_snd]

/-- A definition that is refused leaves the table as it was. -/
theorem respond_of_refused {r : Request} {f : Fault} (hr : r.defines = true)
    (hf : (t.respond r).1 = some f) : (t.respond r).2 = t := by
  have refused : ∀ x : Except Fault UnitTable, (t.changed x).1 = some f → (t.changed x).2 = t := by
    intro x hx
    cases x with
    | ok t' => cases hx
    | error f => rfl
  cases r with
  | addUnit symbol value => exact refused _ hf
  | addFactor symbol value => exact refused _ hf
  | freeze | load | lookup => cases hr

/-- A unit is stored as a quantity, whatever its kind. -/
theorem exists_find?_of_respond {value : Operand}
    (h : (t.respond (.addUnit symbol value)).1 = none) :
    ∃ q, value.quantity? = some q ∧
      (t.respond (.addUnit symbol value)).2.units.find? symbol = some q := by
  rw [respond] at h ⊢
  cases hadd : t.addUnit symbol value with
  | error f =>
    rw [hadd] at h
    cases h
  | ok t' =>
    obtain ⟨-, -, q, hq, rfl⟩ := addUnit_eq_ok_iff.mp hadd
    refine ⟨q, hq, ?_⟩
    simp only [changed, insertUnit]
    rw [Catalog.find?_insert, if_pos rfl]

/-! ### Frozen tables -/

theorem addUnit_of_frozen (ht : t.frozen = true) {value : Operand} (hs : symbol ≠ "")
    (hv : value.quantity?.isSome = true) : t.addUnit symbol value = .error .frozen := by
  obtain ⟨q, hq⟩ := Option.isSome_iff_exists.mp hv
  simp [addUnit, requireMutable, hs, hq, ht]

theorem addFactor_of_frozen (ht : t.frozen = true) {m : Magnitude} (hs : symbol ≠ "")
    (hm : m.isScalar = true) : t.addFactor symbol (.magnitude m) = .error .frozen := by
  simp [addFactor, requireMutable, hs, hm, ht]

theorem yields_addUnit_frozen (ht : t.frozen = true) (symbol : String) (value : Operand) :
    Yields (· = t) (t.addUnit symbol value) := by
  intro t' h
  have := (addUnit_eq_ok_iff.mp h).2.1
  rw [ht] at this
  cases this

theorem yields_addFactor_frozen (ht : t.frozen = true) (symbol : String) (value : Operand) :
    Yields (· = t) (t.addFactor symbol value) := by
  intro t' h
  have := (addFactor_eq_ok_iff.mp h).2.1
  rw [ht] at this
  cases this

/-- A frozen table stays as it is. -/
theorem respond_of_frozen (ht : t.frozen = true) (r : Request) : (t.respond r).2 = t := by
  cases r with
  | addUnit symbol value =>
    exact changed_snd (P := (· = t)) rfl (yields_addUnit_frozen ht symbol value)
  | addFactor symbol value =>
    exact changed_snd (P := (· = t)) rfl (yields_addFactor_frozen ht symbol value)
  | freeze => simp [respond, freeze, ← ht]
  | load text =>
    exact load_keeps (P := (· = t))
      (fun _ symbol _ q h _ => h ▸ yields_addUnit_frozen ht symbol (.quantity q))
      (fun _ symbol x h => h ▸ yields_addFactor_frozen ht symbol (.magnitude (.real x))) rfl text
  | lookup symbol => exact lookup_snd t symbol

/-- The table after some requests, the first one first. -/
def respondAll (t : UnitTable) (rs : List Request) : UnitTable :=
  rs.foldl (fun t r => (t.respond r).2) t

theorem respondAll_of_frozen (ht : t.frozen = true) (rs : List Request) : t.respondAll rs = t := by
  induction rs with
  | nil => rfl
  | cons r rs ih =>
    unfold respondAll at ih ⊢
    rw [List.foldl_cons, respond_of_frozen ht r, ih]

end UnitTable

/-! ### Stores -/

namespace Store

open UnitTable

/-- What happens to a store of tables. -/
inductive Event where
  /-- An empty table is made. -/
  | create
  /-- A table with the international system is made. -/
  | system
  /-- The `i`-th table is copied. -/
  | copy (i : Nat)
  /-- The `i`-th table is asked to do something. -/
  | request (i : Nat) (r : Request)

/-- The request to the `i`-th table that the event is. -/
def Event.requestTo? (i : Nat) : Event → Option Request
  | .request j r => if j = i then some r else none
  | _ => none

/-- The requests to the `i`-th table. -/
def requestsTo (i : Nat) (es : List Event) : List Request := es.filterMap (·.requestTo? i)

/-- The store after an event; new tables come last. -/
def after (ts : List UnitTable) : Event → List UnitTable
  | .create => ts ++ [.empty]
  | .system => ts ++ [SI.openTable]
  | .copy i => ts ++ (ts[i]?.map UnitTable.copy).toList
  | .request i r => ts.modify i fun t => (t.respond r).2

/-- The store after some events, the first one first. -/
def run (es : List Event) : List UnitTable := es.foldl after []

variable {ts : List UnitTable} {i : Nat} {t : UnitTable}

theorem after_reachable (hts : ∀ t ∈ ts, t.Reachable) (e : Event) :
    ∀ t ∈ after ts e, t.Reachable := by
  intro t ht
  cases e with
  | create =>
    rcases List.mem_append.mp ht with ht | ht
    · exact hts t ht
    · rw [List.mem_singleton.mp ht]
      exact .empty
  | system =>
    rcases List.mem_append.mp ht with ht | ht
    · exact hts t ht
    · rw [List.mem_singleton.mp ht]
      exact reachable_openTable
  | copy i =>
    rcases List.mem_append.mp ht with ht | ht
    · exact hts t ht
    · obtain ⟨u, hu, rfl⟩ := Option.map_eq_some_iff.mp (Option.mem_toList.mp ht)
      exact (hts u (List.mem_of_getElem? hu)).copy
  | request i r =>
    obtain ⟨j, hj⟩ := List.getElem?_of_mem ht
    rw [after, List.getElem?_modify] at hj
    obtain ⟨u, hu, rfl⟩ := Option.map_eq_some_iff.mp hj
    have hu := hts u (List.mem_of_getElem? hu)
    split
    · exact hu.respond r
    · exact hu

theorem reachable_run (es : List Event) : ∀ t ∈ run es, t.Reachable :=
  List.foldlRecOn (motive := fun ts => ∀ t ∈ ts, t.Reachable) es after (by simp)
    fun _ hts e _ => after_reachable hts e

/-- An event changes a table by the request to it, if it is one. -/
theorem getElem?_after (h : ts[i]? = some t) (e : Event) :
    (after ts e)[i]? = some (t.respondAll (e.requestTo? i).toList) := by
  have hi := (List.getElem?_eq_some_iff.mp h).1
  cases e with
  | create | system | copy => exact (List.getElem?_append_left hi).trans h
  | request j r =>
    rw [after, List.getElem?_modify, h, Event.requestTo?]
    split <;> rfl

/-- Events make of a table what the requests to it make of it. -/
theorem getElem?_foldl (h : ts[i]? = some t) (es : List Event) :
    (es.foldl after ts)[i]? = some (t.respondAll (requestsTo i es)) := by
  induction es generalizing ts t with
  | nil => exact h
  | cons e es ih =>
    rw [List.foldl_cons, ih (getElem?_after h e), requestsTo, requestsTo, List.filterMap_cons]
    cases e.requestTo? i <;> rfl

theorem getElem?_run {es : List Event} (h : (run es)[i]? = some t) (later : List Event) :
    (run (es ++ later))[i]? = some (t.respondAll (requestsTo i later)) := by
  rw [run, List.foldl_append]
  exact getElem?_foldl h later

/-- A copy is the last table, and is what the requests to it make of it. -/
theorem getElem?_run_copy {es : List Event} (h : (run es)[i]? = some t) (later : List Event) :
    (run (es ++ .copy i :: later))[(run es).length]? =
      some (t.copy.respondAll (requestsTo (run es).length later)) := by
  have hcopy : (after (run es) (.copy i))[(run es).length]? = some t.copy := by
    rw [after, h, List.getElem?_append_right (Nat.le_refl _), Nat.sub_self]
    rfl
  rw [run, List.foldl_append, List.foldl_cons]
  exact getElem?_foldl hcopy later

/-- Whatever happened to the tables, and whatever happens to them later: every table knows the
length of its longest factor, has no empty symbols, stores units without their kinds, and stays as
it was when it refuses a definition; a frozen table never changes, and refuses every definition for
being frozen; and a table and its copy become what their own requests make of them. -/
theorem run_invariant (es later : List Event) :
    (∀ t ∈ run es,
      t.longestFactor = (t.factors.keys.map String.length).max?.getD 0 ∧
      (∀ key ∈ t.units.keys, key ≠ "") ∧ (∀ key ∈ t.factors.keys, key ≠ "") ∧
      (∀ symbol value, (t.respond (.addUnit symbol value)).1 = none →
        ∃ q, value.quantity? = some q ∧
          (t.respond (.addUnit symbol value)).2.units.find? symbol = some q) ∧
      (∀ r f, r.defines = true → (t.respond r).1 = some f → (t.respond r).2 = t)) ∧
    (∀ (i : Nat) (t : UnitTable), (run es)[i]? = some t → t.frozen = true →
      (run (es ++ later))[i]? = some t ∧
      ∀ symbol, symbol ≠ "" →
        (∀ value : Operand, value.quantity?.isSome = true →
          (t.respond (.addUnit symbol value)).1 = some .frozen) ∧
        (∀ m : Magnitude, m.isScalar = true →
          (t.respond (.addFactor symbol (.magnitude m))).1 = some .frozen)) ∧
    (∀ (i : Nat) (t : UnitTable), (run es)[i]? = some t →
      (run (es ++ .copy i :: later))[i]? = some (t.respondAll (requestsTo i later)) ∧
      (run (es ++ .copy i :: later))[(run es).length]? =
        some (t.copy.respondAll (requestsTo (run es).length later)) ∧
      t.copy.units = t.units ∧ t.copy.factors = t.factors ∧
      t.copy.longestFactor = t.longestFactor ∧ t.copy.frozen = false) := by
  refine ⟨fun t ht => ?_, fun i t hi hfrozen => ?_, fun i t hi => ?_⟩
  · have hreach := reachable_run es t ht
    refine ⟨hreach.longestFactor_eq, ?_, ?_, fun _ _ => exists_find?_of_respond,
      fun _ _ => respond_of_refused⟩
    · intro key hkey
      obtain ⟨u, hu, rfl⟩ := List.mem_map.mp hkey
      exact hreach.indexed.units u hu
    · intro key hkey
      obtain ⟨f, hf, rfl⟩ := List.mem_map.mp hkey
      exact hreach.indexed.factors f hf
  · refine ⟨?_, fun symbol hs => ⟨fun value hv => ?_, fun m hm => ?_⟩⟩
    · rw [getElem?_run hi, respondAll_of_frozen hfrozen]
    · rw [UnitTable.respond, addUnit_of_frozen hfrozen hs hv]
      rfl
    · rw [UnitTable.respond, addFactor_of_frozen hfrozen hs hm]
      rfl
  · exact ⟨getElem?_run hi (.copy i :: later), getElem?_run_copy hi later, rfl, rfl, rfl, rfl⟩

/-- A frozen table of bytes and their multiples. -/
def byteTable : UnitTable :=
  ((UnitTable.empty.insertFactor "Ki" (.integer 1024)).insertUnit "B"
    ⟨.integer 1, .base "B" none⟩).freeze

/-- How it is made. -/
def byteEvents : List Event :=
  [.create, .request 0 (.addFactor "Ki" (.magnitude (.integer 1024))),
    .request 0 (.addUnit "" (.magnitude (.integer 1))),
    .request 0 (.addUnit "B" (.quantity ⟨.integer 1, .base "B" none⟩)), .request 0 .freeze]

/-- A factor for the copy, and one that the frozen table refuses. -/
def kiloEvents : List Event :=
  [.request 1 (.addFactor "kilo" (.magnitude (.integer 1000))),
    .request 0 (.addFactor "kilo" (.magnitude (.integer 1000)))]

theorem run_invariant_byteEvents :
    (run byteEvents)[0]? = some byteTable ∧ byteTable.frozen = true ∧
      (byteTable.respond (.addFactor "kilo" (.magnitude (.integer 1000)))).1 = some .frozen ∧
      (run (byteEvents ++ kiloEvents))[0]? = some byteTable ∧
      (run (byteEvents ++ .copy 0 :: kiloEvents))[0]? = some byteTable ∧
      (run (byteEvents ++ .copy 0 :: kiloEvents))[1]? =
        some (byteTable.copy.insertFactor "kilo" (.integer 1000)) := by
  have hrun : (run byteEvents)[0]? = some byteTable := rfl
  obtain ⟨-, hfrozen, hcopy⟩ := run_invariant byteEvents kiloEvents
  obtain ⟨hsame, hrefused⟩ := hfrozen 0 byteTable hrun rfl
  obtain ⟨horiginal, hcopied, -⟩ := hcopy 0 byteTable hrun
  exact ⟨hrun, rfl, (hrefused "kilo" (by decide)).2 _ rfl, hsame, horiginal, hcopied⟩

end Store

end UnitCalculus
