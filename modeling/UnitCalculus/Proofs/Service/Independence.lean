import UnitCalculus.Proofs.Definitions.Completion
import UnitCalculus.Proofs.UnitTable.Store
import UnitCalculus.Service

/-! # Requests do not touch each other

What one request leaves for the next is the state of the service.  It holds a table, once one was
built; `State.seen` is the table that a request meets there, or the one that it would build.  Every
step that answers a request ends as the seen table says, whatever else the state holds, and leaves a
state with the same table to see (`Stateless`).  So the answers of a run are those that each request
would get alone (`serve_stateless`), and the definitions of a request go into a table of their own
(`definitions_in_store`). -/

namespace UnitCalculus.Service

/-- The table that a service builds where it runs. -/
def builtTable (d : Deployment) : Except ServiceFault UnitTable :=
  match (TableFile.build d.files (Settings.load d.environment).1.unitsFile).table with
  | .ok t => .ok t
  | .error f => .error (.ofTable f)

/-- The table that a service in this state works with: the one it keeps, or the one that it builds
for the next request. -/
def State.seen (d : Deployment) (s : State) : Except ServiceFault UnitTable :=
  match s.table with
  | some t => .ok t
  | none => builtTable d

/-- The step ends as the seen table says, and leaves that table to see. -/
def Stateless {α : Type} (d : Deployment) (x : Step α) : Prop :=
  ∃ result : Except ServiceFault UnitTable → Except ServiceFault α,
    ∀ s, (x.run s).1 = result (s.1.seen d) ∧ (x.run s).2.1.seen d = s.1.seen d

variable {d : Deployment} {α β : Type}

/-! ### Steps -/

theorem stateless_pure (a : α) : Stateless d (pure a : Step α) :=
  ⟨fun _ => .ok a, fun _ => ⟨rfl, rfl⟩⟩

theorem stateless_throw (f : ServiceFault) : Stateless d (throw f : Step α) :=
  ⟨fun _ => .error f, fun _ => ⟨rfl, rfl⟩⟩

theorem stateless_leave (records : List LogRecord) : Stateless d (leave records) :=
  ⟨fun _ => .ok (), fun _ => ⟨rfl, rfl⟩⟩

theorem run_bind (x : Step α) (k : α → Step β) (s : State × List LogRecord) :
    (x >>= k).run s = match x.run s with
      | (.ok a, s') => (k a).run s'
      | (.error f, s') => (.error f, s') := by
  change ExceptT.bindCont k (x.run s).1 (x.run s).2 = _
  rcases x.run s with ⟨f | a, s'⟩ <;> rfl

theorem Stateless.bind {x : Step α} {k : α → Step β} (hx : Stateless d x)
    (hk : ∀ a, Stateless d (k a)) : Stateless d (x >>= k) := by
  obtain ⟨result, hx⟩ := hx
  choose next hk using hk
  refine ⟨fun seen => result seen >>= fun a => next a seen, fun s => ?_⟩
  obtain ⟨hresult, hseen⟩ := hx s
  dsimp only
  rw [run_bind, ← hresult]
  rcases hrun : x.run s with ⟨f | a, s'⟩
  all_goals rw [hrun] at hseen
  · exact ⟨rfl, hseen⟩
  · obtain ⟨hnext, hafter⟩ := hk a s'
    exact ⟨hnext.trans (congrArg (next a) hseen), hafter.trans hseen⟩

/-- The first request builds the table, and keeps it if there is one. -/
theorem run_table_of_none (threshold : Int) (log : List LogRecord) :
    ∃ log', (table d).run (⟨none, threshold⟩, log) =
      (builtTable d, (⟨(builtTable d).toOption, threshold⟩, log')) := by
  unfold table builtTable
  generalize Settings.load d.environment = settings
  dsimp only
  cases (TableFile.build d.files settings.1.unitsFile).table with
  | ok t => exact ⟨_, rfl⟩
  | error f => exact ⟨_, rfl⟩

/-- Working with the table leaves it to see, kept or still to be built. -/
theorem stateless_table : Stateless d (table d) := by
  refine ⟨id, fun s => ?_⟩
  obtain ⟨⟨kept, threshold⟩, log⟩ := s
  cases kept with
  | some t => exact ⟨rfl, rfl⟩
  | none =>
    obtain ⟨log', hrun⟩ := run_table_of_none (d := d) threshold log
    rw [hrun]
    refine ⟨rfl, ?_⟩
    unfold State.seen
    cases builtTable d <;> rfl

theorem stateless_ofEndpoint (toJson : α → Json) (x : Except EndpointFault α) :
    Stateless d (Answer.ofEndpoint toJson x) := by
  unfold Answer.ofEndpoint
  split
  · exact stateless_pure _
  · exact stateless_pure _
  · exact stateless_throw _

/-! ### Answers -/

theorem stateless_answerMembers (t : UnitTable) (route : Route) (ms : List (String × Json)) :
    Stateless d (answerMembers t route ms) := by
  unfold answerMembers
  cases route with
  | health => exact stateless_pure _
  | parse | validate | convert =>
    dsimp only
    split
    · exact stateless_ofEndpoint _ _
    · exact stateless_pure _
  | definitions =>
    dsimp only
    split
    · exact (stateless_leave _).bind fun _ => stateless_ofEndpoint _ _
    · exact stateless_pure _

theorem stateless_answerRoute (r : Request) (route : Route) :
    Stateless d (answerRoute d r route) := by
  unfold answerRoute
  split
  · exact stateless_pure _
  · refine stateless_table.bind fun t => ?_
    split
    · exact stateless_pure _
    · split
      · exact stateless_answerMembers _ _ _
      · exact stateless_pure _

theorem stateless_answer (r : Request) : Stateless d (answer d r) := by
  unfold answer
  split
  · exact stateless_answerRoute _ _
  · exact stateless_pure _

theorem stateless_respond (r : Request) : Stateless d (respond d r) :=
  (stateless_answer r).bind fun _ => stateless_pure _

/-! ### Runs -/

/-- The responses of a run are what each request alone makes of the seen table. -/
theorem exists_respondAll :
    ∃ response : Request → Except ServiceFault UnitTable → Except ServiceFault Response,
      ∀ rs s, (respondAll d s rs).1 = rs.map (response · (s.1.seen d)) ∧
        (respondAll d s rs).2.1.seen d = s.1.seen d := by
  choose response hresponse using stateless_respond (d := d)
  refine ⟨response, fun rs => ?_⟩
  induction rs with
  | nil => exact fun s => ⟨rfl, rfl⟩
  | cons r rs ih =>
    intro s
    obtain ⟨hresult, hseen⟩ := hresponse r s
    obtain ⟨hresults, hafter⟩ := ih ((respond d r).run s).2
    rw [hseen] at hresults hafter
    exact ⟨congrArg₂ List.cons hresult hresults, hafter⟩

/-! ### Definitions in a table of their own -/

open Store (Event)

/-- What checking a definition text does among tables: the `i`-th one is copied, and the text loaded
into the copy. -/
def definitionEvents (ts : List UnitTable) (i : Nat) (text : String) : List Event :=
  [.copy i, .request ts.length (.load (some text))]

/-- The checked table is what it was, and the copy holds what is reported. -/
theorem definitionEvents_spec {ts : List UnitTable} {i : Nat} {t : UnitTable}
    (h : ts[i]? = some t) (text : String) :
    ((definitionEvents ts i text).foldl Store.after ts)[i]? = some t ∧
      ((definitionEvents ts i text).foldl Store.after ts)[ts.length]? =
        some ((Definitions.ofText text).loadInto t.copy).loading.table := by
  have hne : ts.length ≠ i := (List.getElem?_eq_some_iff.mp h).1.ne'
  have hcopy : (Store.after ts (.copy i))[ts.length]? = some t.copy := by
    rw [Store.after, h, List.getElem?_append_right (Nat.le_refl _), Nat.sub_self]
    rfl
  constructor
  · rw [Store.getElem?_foldl h]
    simp [definitionEvents, Store.requestsTo, Event.requestTo?, hne, UnitTable.respondAll]
  · rw [definitionEvents, List.foldl_cons, Store.getElem?_foldl hcopy]
    simp [Store.requestsTo, Event.requestTo?, UnitTable.respondAll, UnitTable.respond,
      UnitTable.load]

/-- **The service is stateless.**  Started before or building its table for the first request, a run
of the service gives each request the response or the fault that the request gets alone; if it does
not start, no run does, for the same fault.  Every request leaves the table to see that it met.  The
table in which a request defines units is another one, also where tables are places in a store. -/
theorem serve_stateless (d : Deployment) (started : Bool) (rs : List Request) :
    (∀ f, serve d started rs = .error f → ∀ r, serve d started [r] = .error f) ∧
      (∀ results log, serve d started rs = .ok (results, log) →
        List.Forall₂ (fun r result => ∃ log, serve d started [r] = .ok ([result], log))
          rs results) ∧
      (∀ s, (respondAll d s rs).2.1.seen d = s.1.seen d) ∧
      ∀ (ts : List UnitTable) (i : Nat) (t : UnitTable), ts[i]? = some t → ∀ text,
        ((definitionEvents ts i text).foldl Store.after ts)[i]? = some t ∧
          ((definitionEvents ts i text).foldl Store.after ts)[ts.length]? =
            some ((Definitions.ofText text).loadInto t.copy).loading.table := by
  obtain ⟨response, hall⟩ := exists_respondAll (d := d)
  have halone (s : State × List LogRecord) (r : Request) :
      (respondAll d s [r]).1 = [response r (s.1.seen d)] := (hall [r] s).1
  refine ⟨?_, ?_, fun s => (hall rs s).2, fun _ _ _ => definitionEvents_spec⟩
  all_goals
    unfold serve
    generalize (if started then (start d).run (.initial, []) else (.ok (), (.initial, []))) = begun
    obtain ⟨f | u, s⟩ := begun
  · rintro _ ⟨⟩ r
    rfl
  · nofun
  · nofun
  · rintro results log ⟨⟩
    rw [(hall rs s).1, List.forall₂_map_right_iff, List.forall₂_same]
    intro r _
    refine ⟨(respondAll d s [r]).2.2, ?_⟩
    rw [← halone]

/-- A request that defines an area as a length, and one for the area. -/
def redefineAre : Request :=
  ⟨"POST", "/v1/units/definitions", [], some (.object [("text", .text "are: 5 m")])⟩
def askAre : Request := ⟨"POST", "/v1/units/parse", [], some (.object [("text", .text "3 are")])⟩

/-- The area is asked for after the other definition as it is asked for alone. -/
theorem serve_stateless_are :
    ∃ first second log,
      serve fieldDeployment false [redefineAre, askAre] = .ok ([first, second], log) ∧
        ∃ log, serve fieldDeployment false [askAre] = .ok ([second], log) := by
  refine ⟨_, _, _, rfl, ?_⟩
  obtain ⟨-, halone, -⟩ := serve_stateless fieldDeployment false [redefineAre, askAre]
  cases halone _ _ rfl with
  | cons _ hrest => exact (List.forall₂_cons.mp hrest).1

end UnitCalculus.Service
