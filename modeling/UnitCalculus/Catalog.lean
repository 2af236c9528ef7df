/-! # Catalogs

A catalog lists values under different keys, in the order in which the keys were first entered.
Entering a value under a known key replaces the value and keeps its place (`Catalog.insert`); a value
is found under its key and under no other (`find?_insert`), and what is found are the entries
(`find?_eq_some_iff`). -/

namespace UnitCalculus

/-- Values under different keys, in order. -/
structure Catalog (α : Type) where
  entries : List (String × α)
  nodup : (entries.map Prod.fst).Nodup

namespace Catalog

variable {α : Type}

/-- Enter a value in a list of entries. -/
def upsert (key : String) (value : α) : List (String × α) → List (String × α)
  | [] => [(key, value)]
  | (k, v) :: r => if k = key then (key, value) :: r else (k, v) :: upsert key value r

/-- The value under a key in a list of entries. -/
def lookup (key : String) : List (String × α) → Option α
  | [] => none
  | (k, v) :: r => if k = key then some v else lookup key r

/-! ### Keys and values of the lists -/

theorem mem_keys_upsert {key k : String} {value : α} {es : List (String × α)} :
    k ∈ (upsert key value es).map Prod.fst ↔ k = key ∨ k ∈ es.map Prod.fst := by
  induction es with
  | nil => simp [upsert]
  | cons e r ih =>
    obtain ⟨j, v⟩ := e
    by_cases h : j = key
    · simp [upsert, h]
    · simp only [upsert, if_neg h, List.map_cons, List.mem_cons, ih]
      constructor <;> rintro (h | h | h) <;> simp [h]

theorem nodup_upsert {key : String} {value : α} {es : List (String × α)}
    (h : (es.map Prod.fst).Nodup) : ((upsert key value es).map Prod.fst).Nodup := by
  induction es with
  | nil => simp [upsert]
  | cons e r ih =>
    obtain ⟨j, v⟩ := e
    simp only [List.map_cons, List.nodup_cons] at h
    by_cases hj : j = key
    · subst hj
      simp [upsert, h.1, h.2]
    · simp only [upsert, if_neg hj, List.map_cons, List.nodup_cons]
      refine ⟨fun hm => ?_, ih h.2⟩
      rcases mem_keys_upsert.1 hm with h' | h'
      · exact hj h'
      · exact h.1 h'

theorem lookup_upsert {key k : String} {value : α} {es : List (String × α)} :
    lookup k (upsert key value es) = if k = key then some value else lookup k es := by
  induction es with
  | nil => by_cases h : key = k <;> simp [upsert, lookup, h, eq_comm]
  | cons e r ih =>
    obtain ⟨j, v⟩ := e
    by_cases hj : j = key
    · subst hj
      by_cases hk : k = j
      · simp [upsert, lookup, hk]
      · simp [upsert, lookup, hk, Ne.symm hk]
    · by_cases hk : j = k
      · subst hk
        simp [upsert, lookup, hj]
      · simp [upsert, lookup, hj, hk, ih]

theorem lookup_of_mem {key : String} {value : α} {es : List (String × α)}
    (h : (es.map Prod.fst).Nodup) (hm : (key, value) ∈ es) : lookup key es = some value := by
  induction es with
  | nil => cases hm
  | cons e r ih =>
    obtain ⟨k, v⟩ := e
    simp only [List.map_cons, List.nodup_cons] at h
    rcases List.mem_cons.1 hm with he | hr
    · obtain ⟨rfl, rfl⟩ := Prod.mk.inj he
      simp [lookup]
    · have hne : k ≠ key := by
        rintro rfl
        exact h.1 (List.mem_map_of_mem hr)
      rw [lookup, if_neg hne]
      exact ih h.2 hr

theorem mem_of_lookup {key : String} {value : α} {es : List (String × α)}
    (h : lookup key es = some value) : (key, value) ∈ es := by
  induction es with
  | nil => cases h
  | cons e r ih =>
    obtain ⟨k, v⟩ := e
    rw [lookup] at h
    split at h
    · next hk =>
      cases h
      simp [hk]
    · exact List.mem_cons_of_mem _ (ih h)

/-! ### Catalogs -/

/-- The catalog without entries. -/
def empty : Catalog α := ⟨[], by simp⟩

/-- Enter a value under a key. -/
def insert (c : Catalog α) (key : String) (value : α) : Catalog α :=
  ⟨upsert key value c.entries, nodup_upsert c.nodup⟩

/-- The value under a key. -/
def find? (c : Catalog α) (key : String) : Option α := lookup key c.entries

/-- Whether there is a value under a key. -/
def contains (c : Catalog α) (key : String) : Bool := (c.find? key).isSome

/-- The keys in order. -/
def keys (c : Catalog α) : List String := c.entries.map Prod.fst

/-- The number of entries. -/
def size (c : Catalog α) : Nat := c.entries.length

/-- The catalog with the given entries, entered first to last. -/
def ofList (es : List (String × α)) : Catalog α :=
  es.foldl (fun c e => c.insert e.1 e.2) empty

theorem find?_eq_some_iff {c : Catalog α} {key : String} {value : α} :
    c.find? key = some value ↔ (key, value) ∈ c.entries :=
  ⟨mem_of_lookup, lookup_of_mem c.nodup⟩

theorem find?_insert {c : Catalog α} {key k : String} {value : α} :
    (c.insert key value).find? k = if k = key then some value else c.find? k :=
  lookup_upsert

end Catalog

end UnitCalculus
