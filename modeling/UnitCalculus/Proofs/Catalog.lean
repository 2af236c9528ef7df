import UnitCalculus.Catalog

/-! # Catalogs that grow

What entering values does to the entries of a catalog.  A value under a new key goes behind the
others, so that values under new keys that are all different are appended
(`entries_enter_of_nodup`); in general those under known keys take the places of the former ones
(`entries_enter`). -/

namespace UnitCalculus.Catalog

variable {α : Type} {c : Catalog α} {key : String} {value : α} {es fs : List (String × α)}

theorem mem_entries_insert {e : String × α} (he : e ∈ (c.insert key value).entries) :
    e = (key, value) ∨ e ∈ c.entries := by
  have hfind := find?_eq_some_iff.mpr he
  rw [find?_insert] at hfind
  split at hfind
  · next hkey =>
    cases hfind
    exact .inl (Prod.ext hkey rfl)
  · exact .inr (find?_eq_some_iff.mp hfind)

theorem exists_find?_of_mem_keys (h : key ∈ c.keys) : ∃ v, c.find? key = some v := by
  obtain ⟨e, he, rfl⟩ := List.mem_map.mp h
  exact ⟨e.2, find?_eq_some_iff.mpr he⟩

theorem upsert_append_of_not_mem (h : key ∉ es.map Prod.fst) (fs : List (String × α)) :
    upsert key value (es ++ fs) = es ++ upsert key value fs := by
  induction es with
  | nil => rfl
  | cons e es ih =>
    obtain ⟨k, v⟩ := e
    simp only [List.map_cons, List.mem_cons, not_or] at h
    rw [List.cons_append, upsert, if_neg (Ne.symm h.1), ih h.2, List.cons_append]

theorem upsert_of_not_mem (h : key ∉ es.map Prod.fst) :
    upsert key value es = es ++ [(key, value)] := by
  simpa [upsert] using upsert_append_of_not_mem h []

/-! ### Entering values one after the other -/

/-- Enter values one after the other. -/
def enter (c : Catalog α) (es : List (String × α)) : Catalog α :=
  es.foldl (fun c e => c.insert e.1 e.2) c

theorem enter_cons (e : String × α) : c.enter (e :: es) = (c.insert e.1 e.2).enter es := rfl

theorem enter_append : c.enter (es ++ fs) = (c.enter es).enter fs := List.foldl_append

/-- The entries are among those that were entered. -/
theorem mem_entries_enter {e : String × α} (he : e ∈ (c.enter es).entries) :
    e ∈ es ∨ e ∈ c.entries := by
  induction es generalizing c with
  | nil => exact .inr he
  | cons f es ih =>
    rcases ih he with he | he
    · exact .inl (List.mem_cons_of_mem _ he)
    · rcases mem_entries_insert he with rfl | he
      · exact .inl List.mem_cons_self
      · exact .inr he

theorem mem_keys_enter {k : String} :
    k ∈ (c.enter es).keys ↔ k ∈ c.keys ∨ k ∈ es.map Prod.fst := by
  induction es generalizing c with
  | nil => exact (or_iff_left (List.not_mem_nil)).symm
  | cons e es ih =>
    have hinsert : k ∈ (c.insert e.1 e.2).keys ↔ k = e.1 ∨ k ∈ c.keys := mem_keys_upsert
    rw [enter_cons, ih, hinsert, List.map_cons, List.mem_cons]
    rw [or_assoc, or_left_comm]

theorem find?_enter_of_not_mem {k : String} (h : k ∉ es.map Prod.fst) :
    (c.enter es).find? k = c.find? k := by
  induction es generalizing c with
  | nil => rfl
  | cons e es ih =>
    rw [List.map_cons, List.mem_cons, not_or] at h
    rw [enter_cons, ih h.2, find?_insert, if_neg h.1]

/-- Values under different keys are all found. -/
theorem find?_enter_of_mem (hes : (es.map Prod.fst).Nodup) {e : String × α} (he : e ∈ es) :
    (c.enter es).find? e.1 = some e.2 := by
  induction es generalizing c with
  | nil => cases he
  | cons f es ih =>
    rw [List.map_cons, List.nodup_cons] at hes
    rw [enter_cons]
    rcases List.mem_cons.mp he with rfl | he
    · rw [find?_enter_of_not_mem hes.1, find?_insert, if_pos rfl]
    · exact ih hes.2 he

/-- Values under keys that are new and all different are appended. -/
theorem entries_enter_of_nodup (h : (c.keys ++ es.map Prod.fst).Nodup) :
    (c.enter es).entries = c.entries ++ es := by
  induction es generalizing c with
  | nil => exact (List.append_nil _).symm
  | cons e es ih =>
    have hkey : e.1 ∉ c.entries.map Prod.fst := fun hmem =>
      (List.nodup_append.mp h).2.2 _ hmem _ (by simp) rfl
    have hinsert : (c.insert e.1 e.2).entries = c.entries ++ [e] := upsert_of_not_mem hkey
    rw [enter_cons, ih (by simpa [keys, hinsert] using h), hinsert, List.append_assoc]
    rfl

/-- The entries of a catalog, entered one after the other, make the catalog again. -/
theorem enter_entries (c : Catalog α) : empty.enter c.entries = c := by
  have hentries : (empty.enter c.entries).entries = c.entries :=
    entries_enter_of_nodup c.nodup
  generalize empty.enter c.entries = d at hentries
  cases c
  cases d
  cases hentries
  rfl

/-! ### Values in the places of others -/

theorem upsert_append_of_mem (h : key ∈ es.map Prod.fst) :
    upsert key value (es ++ fs) = upsert key value es ++ fs := by
  induction es with
  | nil => cases h
  | cons e es ih =>
    obtain ⟨k, v⟩ := e
    by_cases hk : k = key
    · simp only [List.cons_append, upsert, if_pos hk]
    · rw [List.map_cons, List.mem_cons] at h
      simp only [List.cons_append, upsert, if_neg hk, ih (h.resolve_left (Ne.symm hk))]

theorem upsert_of_mem (hes : (es.map Prod.fst).Nodup) (h : key ∈ es.map Prod.fst) :
    upsert key value es = es.map fun e => if e.1 = key then (key, value) else e := by
  induction es with
  | nil => cases h
  | cons e es ih =>
    obtain ⟨k, v⟩ := e
    rw [List.map_cons, List.nodup_cons] at hes
    by_cases hk : k = key
    · subst hk
      have hrest : es.map (fun e => if e.1 = k then (k, value) else e) = es.map id :=
        List.map_congr_left fun e he =>
          if_neg fun hek => hes.1 (List.mem_map.mpr ⟨e, he, hek⟩)
      simp only [upsert, List.map_cons, if_true, hrest, List.map_id]
    · rw [List.map_cons, List.mem_cons] at h
      simp only [upsert, if_neg hk, List.map_cons, ih hes.2 (h.resolve_left (Ne.symm hk))]

theorem filter_upsert_of_pos {p : String → Bool} (h : p key = true) :
    (upsert key value es).filter (fun e => p e.1) =
      upsert key value (es.filter fun e => p e.1) := by
  induction es with
  | nil => simp [upsert, h]
  | cons e es ih =>
    obtain ⟨k, v⟩ := e
    by_cases hk : k = key
    · simp [upsert, hk, h]
    · cases hp : p k <;> simp [upsert, hk, hp, ih]

theorem filter_upsert_of_neg {p : String → Bool} (h : p key = false) :
    (upsert key value es).filter (fun e => p e.1) = es.filter fun e => p e.1 := by
  induction es with
  | nil => simp [upsert, h]
  | cons e es ih =>
    obtain ⟨k, v⟩ := e
    by_cases hk : k = key
    · simp [upsert, hk, h]
    · cases hp : p k <;> simp [upsert, hk, hp, ih]

/-- Entries under some keys only, entered alone. -/
theorem entries_enter_filter (p : String → Bool) (es : List (String × α)) :
    (empty.enter (es.filter fun e => p e.1)).entries =
      (empty.enter es).entries.filter fun e => p e.1 := by
  suffices h : ∀ c d : Catalog α, (d.entries = c.entries.filter fun e => p e.1) →
      (d.enter (es.filter fun e => p e.1)).entries = (c.enter es).entries.filter fun e => p e.1 from
    h empty empty rfl
  induction es with
  | nil => exact fun c d h => h
  | cons e es ih =>
    intro c d h
    rw [List.filter_cons]
    split
    · next hp =>
      refine ih (c.insert e.1 e.2) (d.insert e.1 e.2) ?_
      change upsert e.1 e.2 d.entries = (upsert e.1 e.2 c.entries).filter _
      rw [h, filter_upsert_of_pos hp]
    · next hp =>
      refine ih (c.insert e.1 e.2) d ?_
      change d.entries = (upsert e.1 e.2 c.entries).filter _
      rw [h, filter_upsert_of_neg (by simpa using hp)]

/-- The first entries with the values that the second ones have under their keys, and then the
second ones under other keys. -/
def overlay (es fs : List (String × α)) : List (String × α) :=
  es.map (fun e => (e.1, (lookup e.1 fs).getD e.2)) ++
    fs.filter fun f => decide (f.1 ∉ es.map Prod.fst)

theorem overlay_nil (es : List (String × α)) : overlay es [] = es := by
  simp [overlay, lookup]

theorem overlay_of_disjoint (h : ∀ f ∈ fs, f.1 ∉ es.map Prod.fst) : overlay es fs = es ++ fs := by
  have hlookup : ∀ e ∈ es, (e.1, (lookup e.1 fs).getD e.2) = e := by
    intro e he
    cases hfind : lookup e.1 fs with
    | none => rfl
    | some v => exact absurd (List.mem_map_of_mem he) (h (e.1, v) (mem_of_lookup hfind))
  rw [overlay, List.map_congr_left hlookup, List.map_id', List.filter_eq_self.mpr]
  simpa using h

theorem upsert_overlay (hes : (es.map Prod.fst).Nodup) :
    upsert key value (overlay es fs) = overlay es (upsert key value fs) := by
  have hkeys :
      (es.map fun e => (e.1, (lookup e.1 fs).getD e.2)).map Prod.fst = es.map Prod.fst := by
    rw [List.map_map]
    rfl
  unfold overlay
  by_cases hkey : key ∈ es.map Prod.fst
  · rw [upsert_append_of_mem (hkeys.symm ▸ hkey),
      upsert_of_mem (hkeys.symm ▸ hes) (hkeys.symm ▸ hkey), List.map_map,
      filter_upsert_of_neg (p := fun k => decide (k ∉ es.map Prod.fst)) (by simpa using hkey)]
    congr 1
    refine List.map_congr_left fun e _ => ?_
    by_cases he : e.1 = key <;> simp [lookup_upsert, he]
  · rw [upsert_append_of_not_mem (hkeys.symm ▸ hkey) _,
      filter_upsert_of_pos (p := fun k => decide (k ∉ es.map Prod.fst)) (by simpa using hkey)]
    congr 1
    refine List.map_congr_left fun e he => ?_
    have hne : e.1 ≠ key := fun h => hkey (h ▸ List.mem_map_of_mem he)
    rw [lookup_upsert, if_neg hne]

/-- Values under known keys take the places of the former ones. -/
theorem entries_enter (c : Catalog α) (es : List (String × α)) :
    (c.enter es).entries = overlay c.entries (empty.enter es).entries := by
  suffices h : ∀ d d' : Catalog α, d'.entries = overlay c.entries d.entries →
      (d'.enter es).entries = overlay c.entries (d.enter es).entries from
    h empty c (overlay_nil c.entries).symm
  induction es with
  | nil => exact fun d d' h => h
  | cons e es ih =>
    intro d d' h
    refine ih (d.insert e.1 e.2) (d'.insert e.1 e.2) ?_
    change upsert e.1 e.2 d'.entries = overlay c.entries (upsert e.1 e.2 d.entries)
    rw [h, upsert_overlay c.nodup]

end UnitCalculus.Catalog
