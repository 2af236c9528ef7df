import UnitCalculus.Analysis
import UnitCalculus.Proofs.Canonical.Faults
import UnitCalculus.Proofs.Definitions.Effect

/-! # Analysis of batches

A batch is analysed entry by entry, in the order of the names.  The analysis is the row of what the
entries give (`gather`), or the fault of the first entry that has one (`ofExpressions_eq`); such a
fault is always one of arithmetic (`onlyFaults_find`).  So what a batch records for a name is what
the entry alone records (`isolates_of_ok`), and one entry in which arithmetic fails keeps all
others from being recorded (`ofExpressions_isolates`). -/

namespace UnitCalculus

open Expression

namespace Analysis

/-! ### One entry -/

variable {t : UnitTable} {text : Option String}

/-- An entry fails by arithmetic only: a text without blanks in front of it has a readable number,
and a fault of the expression is recorded. -/
theorem onlyFaults_find (t : UnitTable) (text : Option String) :
    OnlyFaults Arithmetic (find t text) := by
  unfold find
  dsimp only
  split
  · exact onlyFaults_ok _
  · have hpadded : NumberReader.isPadded (Text.trim (text.getD "")).toList = true := by
      rw [Text.trim, String.toList_ofList]
      exact NumberReader.isPadded_of_head (Text.isBlank_head_trimBlank _)
    have hread := onlyFaults_read t hpadded
    split
    · exact onlyFaults_ok _
    · next f hexpression hf =>
      exact onlyFaults_error ((hread f hf).resolve_left fun ⟨e, he⟩ => hexpression e he)
    · exact (Canonical.onlyFaults_text t true _).bind fun _ _ => onlyFaults_ok _

/-- No arithmetic fails in an entry: neither in its expression nor in the text of its quantity. -/
def Computes (t : UnitTable) (text : Option String) : Prop :=
  ∀ n, (read t .decimal (Text.trim (text.getD "")) >>= Canonical.text t true) ≠ .error (.number n)

theorem computes_of_blank (t : UnitTable) (h : Text.trim (text.getD "") = "") :
    Computes t text := by
  have hread : read t .decimal "" = .ok (.bare (.integer 1)) := rfl
  have hnumber : (Quantity.bare (.integer 1)).magnitude.isWritable = true :=
    Decimal.isWritable_of_lt (by decide +kernel)
  intro n
  rw [h, hread, ok_bind, Canonical.text_of_isBare hnumber rfl]
  rintro ⟨⟩

theorem find_of_ok {q : Quantity} (hblank : Text.trim (text.getD "") ≠ "")
    (hread : read t .decimal (Text.trim (text.getD "")) = .ok q) :
    find t text = do return .quantity q (← Canonical.text t true q) := by
  unfold find
  dsimp only
  rw [if_neg (by simpa using hblank), hread]

theorem find_of_error {f : Fault} (hblank : Text.trim (text.getD "") ≠ "")
    (hread : read t .decimal (Text.trim (text.getD "")) = .error f) :
    find t text = .error f ∨ ∃ e, f = .expression e ∧
      find t text = .ok (.rejected (.unreadable e)) := by
  unfold find
  dsimp only
  rw [if_neg (by simpa using hblank), hread]
  cases f with
  | expression e => exact .inr ⟨e, rfl, rfl⟩
  | _ => exact .inl rfl

/-- Something is found for an entry exactly if no arithmetic fails in it. -/
theorem exists_find_iff : (∃ f, find t text = .ok f) ↔ Computes t text := by
  by_cases hblank : Text.trim (text.getD "") = ""
  · refine iff_of_true ⟨.rejected .missing, ?_⟩ (computes_of_blank t hblank)
    rw [find, hblank]
    rfl
  have hfaults := onlyFaults_find t text
  unfold Computes
  cases hread : read t .decimal (Text.trim (text.getD "")) with
  | ok q =>
    rw [find_of_ok hblank hread] at hfaults ⊢
    rw [ok_bind]
    cases htext : Canonical.text t true q with
    | ok s => exact iff_of_true ⟨_, rfl⟩ (by simp)
    | error f =>
      rw [htext] at hfaults
      obtain ⟨n, rfl⟩ := hfaults f rfl
      exact iff_of_false (by rintro ⟨_, ⟨⟩⟩) fun h => h n rfl
  | error f =>
    rw [error_bind]
    rcases find_of_error hblank hread with hfind | ⟨e, rfl, hfind⟩
    · rw [hfind] at hfaults ⊢
      obtain ⟨n, rfl⟩ := hfaults f rfl
      exact iff_of_false (by rintro ⟨_, ⟨⟩⟩) fun h => h n rfl
    · exact iff_of_true ⟨_, hfind⟩ (by simp)

/-! ### Entries one after the other -/

/-- The fault of an entry. -/
def fault? (t : UnitTable) (e : String × Option String) : Option Fault :=
  match find t e.2 with
  | .ok _ => none
  | .error f => some f

/-- What is found for the entries that have no fault, each under its name. -/
def findings (t : UnitTable) (es : List (String × Option String)) : List (String × Finding) :=
  es.filterMap fun e => (find t e.2).toOption.map fun f => (e.1, f)

/-- The quantity of a finding. -/
def Finding.quantity? : Finding → Option Quantity
  | .quantity q _ => some q
  | .rejected _ => none

/-- The canonical text of a finding. -/
def Finding.canonical? : Finding → Option String
  | .quantity _ text => some text
  | .rejected _ => none

/-- Why nothing could be used. -/
def Finding.cause? : Finding → Option DiagnosticCause
  | .quantity _ _ => none
  | .rejected cause => some cause

/-- The analysis that has some findings. -/
def gather (ps : List (String × Finding)) : Analysis where
  quantities := ps.filterMap fun p => p.2.quantity?.map fun q => (p.1, q)
  canonical := ps.filterMap fun p => p.2.canonical?.map fun text => (p.1, text)
  diagnostics := ps.filterMap fun p => p.2.cause?.map fun cause => ⟨p.1, cause⟩

/-- One more entry is one more finding. -/
theorem add_gather (ps : List (String × Finding)) (name : String) (f : Finding) :
    (gather ps).add name f = gather (ps ++ [(name, f)]) := by
  cases f <;> simp [gather, add, Finding.quantity?, Finding.canonical?, Finding.cause?]

/-- Entries are analysed up to the first that has a fault. -/
theorem foldlM_gather (t : UnitTable) (es : List (String × Option String))
    (ps : List (String × Finding)) :
    es.foldlM (fun a (name, text) => do return a.add name (← find t text)) (gather ps) =
      match es.findSome? (fault? t) with
      | some f => .error f
      | none => .ok (gather (ps ++ findings t es)) := by
  induction es generalizing ps with
  | nil => simp [findings, pure, Except.pure]
  | cons e es ih =>
    obtain ⟨name, text⟩ := e
    rw [List.foldlM_cons, List.findSome?_cons]
    dsimp only
    cases hfind : find t text with
    | error f =>
      have hfault : fault? t (name, text) = some f := by simp only [fault?, hfind]
      rw [hfault]
      rfl
    | ok f =>
      have hfault : fault? t (name, text) = none := by simp only [fault?, hfind]
      have hfindings : findings t ((name, text) :: es) = (name, f) :: findings t es := by
        simp only [findings, List.filterMap_cons, hfind, Except.toOption, Option.map_some]
      rw [ok_bind, pure_bind, add_gather, ih, hfault, hfindings, ← List.append_cons]

theorem ofExpressions_eq (t : UnitTable) (es : NamedExpressions) :
    ofExpressions t es = match (sorted es).findSome? (fault? t) with
      | some f => .error f
      | none => .ok (gather (findings t (sorted es))) :=
  foldlM_gather t (sorted es) []

/-! ### Entries under different names -/

section names

variable {ps : List (String × Finding)} {es : NamedExpressions}

theorem names_gather (ps : List (String × Finding)) :
    (gather ps).quantities.map Prod.fst = (gather ps).canonical.map Prod.fst := by
  induction ps with
  | nil => rfl
  | cons p ps ih =>
    obtain ⟨name, q | cause⟩ := p
    · exact congrArg (name :: ·) ih
    · exact ih

/-- Each finding is a quantity or a diagnostic. -/
theorem perm_gather (ps : List (String × Finding)) :
    ((gather ps).quantities.map Prod.fst ++ (gather ps).diagnostics.map Diagnostic.name).Perm
      (ps.map Prod.fst) := by
  induction ps with
  | nil => exact .nil
  | cons p ps ih =>
    obtain ⟨name, q | cause⟩ := p
    · exact ih.cons name
    · exact List.perm_middle.trans (ih.cons name)

theorem sublist_diagnostics_gather (ps : List (String × Finding)) :
    ((gather ps).diagnostics.map Diagnostic.name).Sublist (ps.map Prod.fst) := by
  induction ps with
  | nil => exact .slnil
  | cons p ps ih =>
    obtain ⟨name, q | cause⟩ := p
    · exact ih.cons name
    · exact ih.cons_cons name

/-- What an analysis has under a name. -/
def under (a : Analysis) (name : String) : Analysis where
  quantities := a.quantities.filter (·.1 = name)
  canonical := a.canonical.filter (·.1 = name)
  diagnostics := a.diagnostics.filter (·.name = name)

/-- Values that are listed under the names of findings, cut down to one name. -/
theorem filter_filterMap_findings {α β : Type} (part? : Finding → Option α)
    (entry : String → α → β) (key : β → String) (hkey : ∀ name a, key (entry name a) = name)
    (ps : List (String × Finding)) (name : String) :
    (ps.filterMap fun p => (part? p.2).map (entry p.1)).filter (key · = name) =
      (ps.filter (·.1 = name)).filterMap fun p => (part? p.2).map (entry p.1) := by
  induction ps with
  | nil => rfl
  | cons p ps ih =>
    obtain ⟨key', f⟩ := p
    by_cases hname : key' = name <;> cases hpart : part? f <;>
      simp [hname, hpart, hkey, ih]

theorem under_gather (ps : List (String × Finding)) (name : String) :
    (gather ps).under name = gather (ps.filter (·.1 = name)) := by
  rw [under, gather, gather, Analysis.mk.injEq]
  exact ⟨filter_filterMap_findings Finding.quantity? Prod.mk Prod.fst (fun _ _ => rfl) ps name,
    filter_filterMap_findings Finding.canonical? Prod.mk Prod.fst (fun _ _ => rfl) ps name,
    filter_filterMap_findings Finding.cause? Diagnostic.mk Diagnostic.name (fun _ _ => rfl) ps name⟩

theorem filter_findings (t : UnitTable) (es : List (String × Option String)) (name : String) :
    (findings t es).filter (·.1 = name) = findings t (es.filter (·.1 = name)) := by
  induction es with
  | nil => rfl
  | cons e es ih =>
    unfold findings at ih ⊢
    by_cases hname : e.1 = name <;> cases hfind : (find t e.2).toOption <;>
      simp [hname, hfind, ih]

theorem names_findings {es : List (String × Option String)} (h : es.findSome? (fault? t) = none) :
    (findings t es).map Prod.fst = es.map Prod.fst := by
  induction es with
  | nil => rfl
  | cons e es ih =>
    rw [List.findSome?_cons] at h
    cases hfind : find t e.2 with
    | error f => simp [fault?, hfind] at h
    | ok f =>
      have hrest : es.findSome? (fault? t) = none := by simpa [fault?, hfind] using h
      have hfound : (find t e.2).toOption = some f := by rw [hfind, Except.toOption]
      unfold findings at ih ⊢
      simp [hfound, ih hrest]

/-- An entry is the only one with its name. -/
theorem filter_name {es : List (String × Option String)} (hes : (es.map Prod.fst).Nodup)
    {e : String × Option String} (he : e ∈ es) : es.filter (·.1 = e.1) = [e] := by
  have hsame : ∀ d ∈ es, decide (d.1 = e.1) = (d == e) := by
    intro d hd
    rw [beq_eq_decide]
    exact decide_eq_decide.mpr
      ⟨fun h => List.inj_on_of_nodup_map hes hd he h, congrArg Prod.fst⟩
  rw [List.filter_congr hsame, List.filter_beq, List.count_eq_one_of_mem hes.of_map he]
  rfl

theorem perm_sorted (es : NamedExpressions) : (sorted es).Perm es.entries :=
  List.mergeSort_perm _ _

theorem nodup_sorted (es : NamedExpressions) : ((sorted es).map Prod.fst).Nodup :=
  ((perm_sorted es).map Prod.fst).nodup_iff.mpr es.nodup

/-- The entries stand in the order of their names. -/
theorem pairwise_sorted (es : NamedExpressions) :
    ((sorted es).map Prod.fst).Pairwise (· < ·) := by
  have hle : ((sorted es).map Prod.fst).Pairwise (· ≤ ·) := by
    rw [List.pairwise_map]
    refine (List.pairwise_mergeSort (fun a b c hab hbc => ?_) (fun a b => ?_) es.entries).imp
      fun h => of_decide_eq_true h
    · exact decide_eq_true (le_trans (of_decide_eq_true hab) (of_decide_eq_true hbc))
    · simpa using le_total a.1 b.1
  exact (hle.and (nodup_sorted es)).imp fun ⟨h, hne⟩ => lt_of_le_of_ne h hne

/-! ### The batch -/

/-- The batch of one entry. -/
def only (e : String × Option String) : NamedExpressions := ⟨[e], List.nodup_singleton _⟩

theorem ofExpressions_only (t : UnitTable) (e : String × Option String) :
    ofExpressions t (only e) = match fault? t e with
      | some f => .error f
      | none => .ok (gather (findings t [e])) := by
  have hsorted : sorted (only e) = [e] := List.mergeSort_singleton e
  rw [ofExpressions_eq, hsorted, List.findSome?_singleton]

theorem exists_only_iff {e : String × Option String} :
    (∃ a, ofExpressions t (only e) = .ok a) ↔ fault? t e = none := by
  rw [ofExpressions_only]
  cases fault? t e <;> simp

theorem fault?_eq_none_iff {e : String × Option String} :
    fault? t e = none ↔ Computes t e.2 := by
  rw [← exists_find_iff]
  unfold fault?
  cases find t e.2 <;> simp

theorem arithmetic_of_fault? {e : String × Option String} {f : Fault} (h : fault? t e = some f) :
    Arithmetic f := by
  unfold fault? at h
  cases hfind : find t e.2 with
  | ok g => simp [hfind] at h
  | error g =>
    obtain rfl : g = f := by simpa [hfind] using h
    exact onlyFaults_find t e.2 g hfind

theorem ofExpressions_eq_ok_iff {a : Analysis} :
    ofExpressions t es = .ok a ↔
      (∀ e ∈ es.entries, fault? t e = none) ∧ a = gather (findings t (sorted es)) := by
  have hmem : (sorted es).findSome? (fault? t) = none ↔ ∀ e ∈ es.entries, fault? t e = none := by
    rw [List.findSome?_eq_none_iff]
    exact forall_congr' fun e => by rw [(perm_sorted es).mem_iff]
  rw [ofExpressions_eq, ← hmem]
  cases (sorted es).findSome? (fault? t) <;> simp [@eq_comm _ a]

/-- The fault of a batch is that of its first entry that has one. -/
theorem exists_entry_of_error {f : Fault} (h : ofExpressions t es = .error f) :
    ∃ e ∈ es.entries, fault? t e = some f ∧
      ∀ d ∈ es.entries, d.1 < e.1 → fault? t d = none := by
  rw [ofExpressions_eq] at h
  cases hfault : (sorted es).findSome? (fault? t) with
  | none => simp [hfault] at h
  | some g =>
    obtain rfl : g = f := by simpa [hfault] using h
    obtain ⟨before, e, after, hsorted, he, hbefore⟩ := List.findSome?_eq_some_iff.mp hfault
    have hmem (d : String × Option String) : d ∈ es.entries ↔ d ∈ before ++ e :: after := by
      rw [← hsorted, (perm_sorted es).mem_iff]
    refine ⟨e, (hmem e).mpr (by simp), he, fun d hd hlt => ?_⟩
    have hpairwise := pairwise_sorted es
    rw [hsorted, List.map_append, List.map_cons, List.pairwise_append, List.pairwise_cons]
      at hpairwise
    rcases List.mem_append.mp ((hmem d).mp hd) with hd | hd
    · exact hbefore d hd
    · rcases List.mem_cons.mp hd with rfl | hd
      · exact absurd hlt (lt_irrefl _)
      · exact absurd hlt (lt_asymm (hpairwise.2.1.1 d.1 (List.mem_map_of_mem hd)))

/-- The analysis of a batch records for every name what it records for its entry alone. -/
structure Isolates (a : Analysis) (t : UnitTable) (es : NamedExpressions) : Prop where
  names : a.quantities.map Prod.fst = a.canonical.map Prod.fst
  once : (a.quantities.map Prod.fst ++ a.diagnostics.map Diagnostic.name).Perm es.keys
  /-- Each name has a quantity or a diagnostic, and not both. -/
  either : ∀ name ∈ es.keys,
    Xor (name ∈ a.quantities.map Prod.fst) (name ∈ a.diagnostics.map Diagnostic.name)
  ordered : (a.diagnostics.map Diagnostic.name).Pairwise (· < ·)
  alone : ∀ e ∈ es.entries, ofExpressions t (only e) = .ok (a.under e.1)

theorem isolates_of_ok {a : Analysis} (h : ofExpressions t es = .ok a) : a.Isolates t es := by
  obtain ⟨hfaults, rfl⟩ := ofExpressions_eq_ok_iff.mp h
  have hnames : (findings t (sorted es)).map Prod.fst = (sorted es).map Prod.fst :=
    names_findings (List.findSome?_eq_none_iff.mpr fun e he =>
      hfaults e ((perm_sorted es).mem_iff.mp he))
  have honce := (hnames ▸ perm_gather (findings t (sorted es))).trans
    ((perm_sorted es).map Prod.fst)
  refine
    { names := names_gather _
      once := honce
      either := fun name => xor_mem_of_perm honce es.nodup
      ordered := (pairwise_sorted es).sublist (hnames ▸ sublist_diagnostics_gather _)
      alone := fun e he => ?_ }
  rw [ofExpressions_only, hfaults e he, under_gather, filter_findings,
    filter_name (nodup_sorted es) ((perm_sorted es).mem_iff.mpr he)]

end names

/-- **What a batch does with its entries.**  It is analysed exactly if no arithmetic fails in an
entry, and then every entry is recorded as it is alone; otherwise it ends with the fault of the
first entry, in the order of the names, that cannot be analysed alone. -/
theorem ofExpressions_isolates (t : UnitTable) (es : NamedExpressions) :
    ((∃ a, ofExpressions t es = .ok a) ↔ ∀ e ∈ es.entries, Computes t e.2) ∧
      (∀ a, ofExpressions t es = .ok a → a.Isolates t es) ∧
      ∀ f, ofExpressions t es = .error f → Arithmetic f ∧
        ∃ e ∈ es.entries, ofExpressions t (only e) = .error f ∧
          ∀ d ∈ es.entries, d.1 < e.1 → ∃ a, ofExpressions t (only d) = .ok a := by
  refine ⟨?_, fun a => isolates_of_ok, fun f hf => ?_⟩
  · simp only [ofExpressions_eq_ok_iff, ← fault?_eq_none_iff]
    exact ⟨fun ⟨_, h, _⟩ => h, fun h => ⟨_, h, rfl⟩⟩
  · obtain ⟨e, he, hfault, hbefore⟩ := exists_entry_of_error hf
    refine ⟨arithmetic_of_fault? hfault, e, he, ?_, fun d hd hlt => ?_⟩
    · rw [ofExpressions_only, hfault]
    · exact exists_only_iff.mpr (hbefore d hd hlt)

/-- A batch with an expression that cannot be read and one that is missing. -/
def mixedBatch : NamedExpressions :=
  .ofList [("bad", some "m//s"), ("empty", some "  "), ("force", some "kg m/s^2"), ("none", none),
    ("speed", some "10 m/s")]

theorem ofExpressions_isolates_mixedBatch :
    ∃ a, ofExpressions SI.table mixedBatch = .ok a ∧ a.Isolates SI.table mixedBatch ∧
      a.diagnostics.map Diagnostic.name = ["bad", "empty", "none"] := by
  obtain ⟨hanalysed, hisolates, -⟩ := ofExpressions_isolates SI.table mixedBatch
  have hfound : ∀ e ∈ mixedBatch.entries, fault? SI.table e = none := by decide +kernel
  have hsorted : sorted mixedBatch = mixedBatch.entries :=
    List.mergeSort_of_pairwise (by decide +kernel)
  obtain ⟨a, ha⟩ := hanalysed.mpr fun e he => fault?_eq_none_iff.mp (hfound e he)
  refine ⟨a, ha, hisolates a ha, ?_⟩
  rw [(ofExpressions_eq_ok_iff.mp ha).2, hsorted]
  decide +kernel

/-- A batch in which a length is divided by a product of lengths that is too small not to be zero. -/
def vanishingBatch : NamedExpressions :=
  .ofList [("a", some "m/(ym ym ym ym ym ym ym ym ym ym ym ym ym ym)"), ("b", some "m")]

/-- A division by zero in one entry keeps the other from being analysed. -/
theorem not_ofExpressions_returns :
    ¬∀ es : NamedExpressions, ∃ a, ofExpressions SI.table es = .ok a := by
  intro h
  obtain ⟨a, ha⟩ := h vanishingBatch
  have hfault : vanishingBatch.entries.map (fault? SI.table) =
      [some (.number .divisionByZero), none] := by
    decide +kernel
  have hnone : vanishingBatch.entries.map (fault? SI.table) = vanishingBatch.entries.map fun _ => none :=
    List.map_congr_left (ofExpressions_eq_ok_iff.mp ha).1
  rw [hfault] at hnone
  cases hnone

end Analysis

end UnitCalculus
