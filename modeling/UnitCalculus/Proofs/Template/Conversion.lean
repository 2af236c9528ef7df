import UnitCalculus.Proofs.Expression.Positions
import UnitCalculus.Proofs.Expression.Symbols
import UnitCalculus.Proofs.Template
import UnitCalculus.Service.Endpoint

/-! # The template of a conversion

A conversion is shown by a template with one field, which is made from the specification and the
target that the caller gives.  Without braces in them it shows the value in the field and then the
target (`showIn_of_unbraced`); with braces nothing can be shown (`unbraced_of_showIn`). -/

namespace UnitCalculus.Template

variable {table : UnitTable} {spec target : String} {convertTo : Quantity → Except Fault Magnitude}

/-- The template of a conversion after its first brace and colon. -/
def afterColon (spec target : String) : List Char :=
  spec.toList ++ closeBrace :: ' ' :: target.toList

theorem toList_conversionTemplate (spec target : String) :
    (Service.conversionTemplate spec target).toList =
      openBrace :: ':' :: afterColon spec target := by
  simp [Service.conversionTemplate, afterColon, openBrace, closeBrace]

theorem piecePart_afterColon (cs : List Char) :
    piecePart (openBrace :: ':' :: cs) =
      (specPart 0 cs >>= fun p => .ok (⟨[], some ⟨[], none, p.1⟩⟩, p.2)) := by
  have hliteral : literalPart (openBrace :: ':' :: cs) = .ok ([], true, ':' :: cs) := rfl
  have hname : namePart false (':' :: cs) = .ok ([], ':', cs) := rfl
  rw [piecePart, hliteral, ok_bind]
  dsimp only
  rw [if_pos rfl, fieldPart, hname, ok_bind]
  dsimp only
  rw [if_neg (by decide), if_pos (by decide)]
  cases specPart 0 cs <;> rfl

/-- What is shown of a value in a field with text after it. -/
def showField (m : Magnitude) (fuel : Nat) (spec r : List Char) : Except Fault String := do
  let nested := fillAt ⟨[m], []⟩ 1
  let (s, n) ← specText nested (.automatic 1) spec
  let shown ← liftDisplay (m.inField (String.ofList s))
  let (tail, _) ← fillPieces ⟨[m], []⟩ nested fuel n r
  return String.ofList (shown.toList ++ tail)

theorem pieces_conversionTemplate (spec target : String) :
    pieces (Service.conversionTemplate spec target) = (do
      let p ← specPart 0 (afterColon spec target)
      let ps ← piecesFrom ((afterColon spec target).length + 1) p.2
      return ⟨[], some ⟨[], none, p.1⟩⟩ :: ps) := by
  unfold pieces
  rw [toList_conversionTemplate]
  generalize afterColon spec target = cs
  have hpieces : piecesFrom (openBrace :: ':' :: cs).length (openBrace :: ':' :: cs) = (do
      let p ← piecePart (openBrace :: ':' :: cs)
      return p.1 :: (← piecesFrom (cs.length + 1) p.2)) := rfl
  rw [hpieces, piecePart_afterColon]
  cases specPart 0 cs <;> rfl

theorem fill_conversionTemplate {s r : List Char} (m : Magnitude)
    (h : specPart 0 (afterColon spec target) = .ok (s, r)) :
    fill (Service.conversionTemplate spec target) ⟨[m], []⟩ =
      showField m ((afterColon spec target).length + 1) s r := by
  unfold fill fillAt
  rw [toList_conversionTemplate]
  simp only [List.length_cons]
  generalize afterColon spec target = cs at h
  unfold fillPieces
  rw [piecePart_afterColon, h]
  simp only [ok_bind, liftTemplate]
  unfold fillField showField
  have hvalue : valueOf ⟨[m], []⟩ .undecided [] = .ok (m, .automatic 1) := rfl
  rw [hvalue]
  simp only [ok_bind, convert]
  cases specText (fillAt ⟨[m], []⟩ 1) (.automatic 1) s with
  | error f => rfl
  | ok p =>
    simp only [ok_bind]
    cases liftDisplay (m.inField (String.ofList p.1)) with
    | error f => rfl
    | ok shown =>
      simp only [ok_bind, pure_bind, List.nil_append]
      cases fillPieces ⟨[m], []⟩ (fillAt ⟨[m], []⟩ 1) (cs.length + 1) p.2 r <;> rfl

/-- The template of a conversion takes the unit from the text after its field and shows the value in
the field. -/
theorem showIn_conversionTemplate :
    showIn table (Service.conversionTemplate spec target) convertTo = (do
      let (s, r) ← liftTemplate (specPart 0 (afterColon spec target))
      let ps ← liftTemplate (piecesFrom ((afterColon spec target).length + 1) r)
      let unit ← Expression.readUnit table
        (String.ofList (Text.trimBlank ((ps.head?.map (·.literal)).getD [])))
      let m ← convertTo unit
      showField m ((afterColon spec target).length + 1) s r) := by
  unfold showIn
  rw [pieces_conversionTemplate]
  cases hspec : specPart 0 (afterColon spec target) with
  | error f => rfl
  | ok p =>
    obtain ⟨s, r⟩ := p
    simp only [ok_bind, liftTemplate]
    cases piecesFrom ((afterColon spec target).length + 1) r with
    | error f => rfl
    | ok ps =>
      simp only [← fill_conversionTemplate _ hspec]
      rfl

theorem piecesFrom_of_unbraced {c : Char} {cs : List Char} (h : Unbraced (c :: cs)) (fuel : Nat) :
    piecesFrom (fuel + 1) (c :: cs) = .ok [⟨c :: cs, none⟩] := by
  have hpiece : piecePart (c :: cs) = .ok (⟨c :: cs, none⟩, []) := by
    rw [piecePart, literalPart_of_unbraced h]
    rfl
  unfold piecesFrom
  rw [hpiece, ok_bind]
  cases fuel <;> rfl

theorem fillPieces_of_unbraced {vs : Values} {n : Numbering} {cs : List Char} (h : Unbraced cs)
    (fuel : Nat) : fillPieces vs nested (fuel + 1) n cs = .ok (cs, n) := by
  cases cs with
  | nil => rfl
  | cons c cs =>
    have hpiece : piecePart (c :: cs) = .ok (⟨c :: cs, none⟩, []) := by
      rw [piecePart, literalPart_of_unbraced h]
      rfl
    unfold fillPieces
    rw [hpiece]
    simp only [liftTemplate, ok_bind, pure_bind]
    have hrest : fillPieces vs nested fuel n [] = .ok ([], n) := by cases fuel <;> rfl
    rw [hrest]
    simp

theorem specText_of_unbraced {spec : List Char} (h : Unbraced spec) (n : Numbering) :
    specText nested n spec = .ok (spec, n) := by
  have hopen : spec.contains openBrace = false := by
    rw [Bool.eq_false_iff]
    intro hmem
    exact h openBrace (List.contains_iff_mem.mp hmem) (.inl rfl)
  rw [specText, hopen]
  rfl

/-- Without braces in the specification and the target, the template shows the value in the field
before the target. -/
theorem showIn_of_unbraced (hspec : Unbraced spec.toList) (htarget : Unbraced target.toList) :
    showIn table (Service.conversionTemplate spec target) convertTo = (do
      let unit ← Expression.readUnit table (Text.trim target)
      let m ← convertTo unit
      let shown ← liftDisplay (m.inField spec)
      return shown ++ " " ++ target) := by
  have hrest : Unbraced (' ' :: target.toList) := by
    intro c hc
    rcases List.mem_cons.mp hc with rfl | hc
    · decide
    · exact htarget c hc
  have htrim : Text.trimBlank (' ' :: target.toList) = Text.trimBlank target.toList := by
    rw [Text.trimBlank, Text.trimLeft, List.dropWhile_cons_of_pos (by decide)]
    rfl
  rw [showIn_conversionTemplate, afterColon, specPart_of_unbraced hspec]
  simp only [liftTemplate, ok_bind, piecesFrom_of_unbraced hrest]
  simp only [List.head?_cons, Option.map_some, Option.getD_some, htrim]
  unfold showField
  have hjoin (shown : String) :
      String.ofList (shown.toList ++ ' ' :: target.toList) = shown ++ " " ++ target := by
    rw [← String.toList_inj]
    simp
  simp only [specText_of_unbraced hspec, ok_bind, fillPieces_of_unbraced hrest,
    String.ofList_toList, hjoin]
  rfl

theorem isBlank_of_isBrace {c : Char} (h : IsBrace c) : Text.isBlank c = false := by
  rcases h with rfl | rfl <;> rfl

theorem runKind?_of_isBrace {c : Char} (h : IsBrace c) : Token.runKind? c = some .symbol := by
  rcases h with rfl | rfl <;> decide

theorem exists_of_piecesFrom {fuel : Nat} {c : Char} {cs lit r : List Char}
    {ps : List TemplatePiece} (h : piecesFrom (fuel + 1) (c :: cs) = .ok ps)
    (hliteral : literalPart (c :: cs) = .ok (lit, false, r)) : ∃ ps', ps = ⟨lit, none⟩ :: ps' := by
  have hpiece : piecePart (c :: cs) = .ok (⟨lit, none⟩, r) := by
    rw [piecePart, hliteral]
    rfl
  unfold piecesFrom at h
  rw [hpiece, ok_bind] at h
  obtain ⟨ps', -, h⟩ := bind_eq_ok h
  exact ⟨ps', (Except.ok.inj h).symm⟩

theorem eq_of_unbraced {spec t s r : List Char} (hs : Unbraced s) (hr : Unbraced r)
    (h : spec ++ closeBrace :: t = s ++ closeBrace :: r) : spec = s ∧ t = r := by
  rcases List.append_eq_append_iff.mp h with ⟨a, hspec, htail⟩ | ⟨a, hspec, htail⟩
  · cases a with
    | nil => simp_all
    | cons c a =>
      rw [List.cons_append, List.cons.injEq] at htail
      exact absurd (.inr htail.1.symm) (hs c (by simp [hspec]))
  · cases a with
    | nil => simp_all
    | cons c a =>
      rw [List.cons_append, List.cons.injEq] at htail
      exact absurd (.inr rfl) (hr closeBrace (by simp [htail.2]))

variable {P : Float → Prop}

/-- What is shown has no braces in its field. -/
theorem unbraced_of_showField {fuel : Nat} {s r : List Char} {m : Magnitude} {line : String}
    (hm : m.Floating P) (hcount : s.count openBrace = s.count closeBrace)
    (h : showField m fuel s r = .ok line) :
    Unbraced s ∧
      ∃ nested tail n, fillPieces ⟨[m], []⟩ nested fuel (.automatic 1) r = .ok (tail, n) := by
  obtain ⟨⟨s', n⟩, htext, h⟩ := bind_eq_ok h
  obtain ⟨shown, hshown, h⟩ := bind_eq_ok h
  obtain ⟨⟨tail, n'⟩, htail, -⟩ := bind_eq_ok h
  unfold specText at htext
  split at htext
  · next hopen =>
    -- Both braces are in the specification, and in what it is filled to.
    have hopen := List.contains_iff_mem.mp hopen
    have hclose : closeBrace ∈ s := by
      rw [← List.count_pos_iff, ← hcount, List.count_pos_iff]
      exact hopen
    obtain ⟨-, hmem⟩ := mem_of_fillPieces htext (Nat.le_refl _)
    have hfield := liftDisplay_eq_ok hshown
    have hfirst := Magnitude.head?_of_inField hm hfield (.inl rfl)
      (by rw [String.toList_ofList]; exact (hmem _).mpr hopen)
    have hsecond := Magnitude.head?_of_inField hm hfield (.inr rfl)
      (by rw [String.toList_ofList]; exact (hmem _).mpr hclose)
    rw [hfirst] at hsecond
    cases hsecond
  · next hopen =>
    cases htext
    refine ⟨?_, _, tail, n', htail⟩
    rintro c hc (rfl | rfl)
    · exact hopen (List.contains_iff_mem.mpr hc)
    · rw [← List.count_pos_iff, ← hcount, List.count_pos_iff] at hc
      exact hopen (List.contains_iff_mem.mpr hc)

/-- What is shown of a quantity in another unit has no braces in its specification or its target, if
no symbol of the table has braces. -/
theorem unbraced_of_showIn {line : String} (htable : ∀ c, IsBrace c → ¬table.Writes c)
    (hfloat : ∀ text u, Expression.readUnit table text = .ok u →
      Yields (Magnitude.Floating P) (convertTo u))
    (h : showIn table (Service.conversionTemplate spec target) convertTo = .ok line) :
    Unbraced spec.toList ∧ Unbraced target.toList := by
  rw [showIn_conversionTemplate] at h
  obtain ⟨⟨s, r⟩, hspec, h⟩ := bind_eq_ok h
  obtain ⟨ps, hps, h⟩ := bind_eq_ok h
  obtain ⟨u, hu, h⟩ := bind_eq_ok h
  obtain ⟨m, hm, h⟩ := bind_eq_ok h
  obtain ⟨hcs, hcount⟩ := specPart_eq_ok (liftTemplate_eq_ok hspec)
  obtain ⟨hs, nested, tail, n, htail⟩ := unbraced_of_showField (hfloat _ u hu m hm) hcount h
  have hr : Unbraced r := by
    cases r with
    | nil => simp [Unbraced]
    | cons d r =>
      obtain ⟨lit, r', -, hliteral, -, -⟩ := literal_of_fillPieces htail
      rcases literalPart_eq_ok hliteral with ⟨hplain, -, -⟩ | ⟨b, pre, hb, rfl, -⟩
      · exact hplain
      · obtain ⟨ps', rfl⟩ := exists_of_piecesFrom (liftTemplate_eq_ok hps) hliteral
        have hmem : b ∈ (String.ofList (Text.trimBlank (pre ++ [b]))).toList := by
          rw [String.toList_ofList]
          exact (Text.mem_trimBlank_iff (isBlank_of_isBrace hb)).mpr (by simp)
        exact absurd (Expression.writes_of_readUnit hu hmem (runKind?_of_isBrace hb)) (htable b hb)
  obtain ⟨rfl, hr'⟩ := eq_of_unbraced hs hr hcs
  refine ⟨hs, fun c hc => hr c ?_⟩
  rw [← hr']
  exact List.mem_cons_of_mem _ hc

/-- The faults of what is shown in a field: those of the template and of the specification. -/
theorem onlyFaults_showField {m : Magnitude} (hm : m.Floating P) (fuel : Nat) (s r : List Char) :
    OnlyFaults (fun f => OfTemplate f ∨ ∃ g, f = .display (.field g)) (showField m fuel s r) := by
  have htext : OnlyFaults OfTemplate (specText (fillAt ⟨[m], []⟩ 1) (.automatic 1) s) := by
    unfold specText
    split
    · exact onlyFaults_fillPieces m _ s
    · exact onlyFaults_ok _
  have hnumbering : Yields (fun p => p.2 = .automatic 1)
      (specText (fillAt ⟨[m], []⟩ 1) (.automatic 1) s) := by
    unfold specText
    split
    · exact fun p hp => (mem_of_fillPieces hp (Nat.le_refl _)).1
    · exact yields_ok rfl
  refine (htext.imp fun _ => .inl).bind ?_
  rintro ⟨s', n⟩ hp
  have hn : n = .automatic 1 := hnumbering _ hp
  subst hn
  have hshown : OnlyFaults (fun f => OfTemplate f ∨ ∃ g, f = .display (.field g))
      (liftDisplay (m.inField (String.ofList s'))) := by
    cases hfield : m.inField (String.ofList s') with
    | error f =>
      obtain ⟨g, rfl⟩ := Magnitude.field_of_inField hm hfield
      exact onlyFaults_error (.inr ⟨g, rfl⟩)
    | ok t => exact onlyFaults_ok t
  exact hshown.bind fun _ _ => ((onlyFaults_fillPieces m _ r).imp fun _ => .inl).bind
    fun _ _ => onlyFaults_ok _

end UnitCalculus.Template
