import UnitCalculus.Proofs.Field
import UnitCalculus.Proofs.Outcome

/-! # Templates with one value

Text without braces is literal (`literalPart_of_unbraced`), and the braces inside the specification
of a field are paired (`specPart_eq_ok`).  A template is filled with one value: once a field has
taken it, another field has none, so that the rest is filled only if it is literal text, with the
characters of the template (`mem_of_fillPieces`). -/

namespace UnitCalculus

/-- The text holds no braces. -/
def Unbraced (cs : List Char) : Prop := ∀ c ∈ cs, ¬IsBrace c

instance (cs : List Char) : Decidable (Unbraced cs) := List.decidableBAll (¬IsBrace ·) cs

namespace Template

theorem ne_open_of_not_isBrace {c : Char} (h : ¬IsBrace c) : c ≠ openBrace := fun h' => h (.inl h')

theorem ne_close_of_not_isBrace {c : Char} (h : ¬IsBrace c) : c ≠ closeBrace :=
  fun h' => h (.inr h')

/-! ### Pieces -/

/-- A specification goes up to the brace that closes its field; the braces inside it are paired. -/
theorem specPart_eq_ok {depth : Nat} {cs spec r : List Char}
    (h : specPart depth cs = .ok (spec, r)) :
    cs = spec ++ closeBrace :: r ∧ spec.count openBrace + depth = spec.count closeBrace := by
  induction cs generalizing depth spec with
  | nil => cases h
  | cons c cs ih =>
    rw [specPart] at h
    split at h
    · next hend =>
      cases h
      simp only [Bool.and_eq_true, beq_iff_eq] at hend
      simp [hend.1, hend.2]
    · next hgoes =>
      obtain ⟨⟨spec', r'⟩, hrest, h⟩ := bind_eq_ok h
      cases h
      obtain ⟨hcs, hcount⟩ := ih hrest
      refine ⟨by rw [hcs, List.cons_append], ?_⟩
      by_cases hopen : c = openBrace
      · subst hopen
        have hne : (openBrace == closeBrace) = false := by decide
        rw [if_pos (beq_self_eq_true _)] at hcount
        simp only [List.count_cons, beq_self_eq_true, hne, if_true] at hcount ⊢
        simp
        omega
      · by_cases hclose : c = closeBrace
        · subst hclose
          have hdepth : depth ≠ 0 := by
            rintro rfl
            exact hgoes (by simp)
          have hne : (closeBrace == openBrace) = false := by decide
          rw [if_neg (by simp [hne]), if_pos (beq_self_eq_true _)] at hcount
          simp only [List.count_cons, beq_self_eq_true, hne, if_true] at hcount ⊢
          simp
          omega
        · rw [if_neg (by simpa using hopen), if_neg (by simpa using hclose)] at hcount
          rw [List.count_cons_of_ne hopen, List.count_cons_of_ne hclose]
          exact hcount

theorem specPart_of_unbraced {spec : List Char} (h : Unbraced spec) (r : List Char) :
    specPart 0 (spec ++ closeBrace :: r) = .ok (spec, r) := by
  induction spec with
  | nil => rw [List.nil_append, specPart, if_pos (by simp)]
  | cons c spec ih =>
    have hopen := ne_open_of_not_isBrace (h c List.mem_cons_self)
    have hclose := ne_close_of_not_isBrace (h c List.mem_cons_self)
    rw [List.cons_append, specPart, if_neg (by simp [hclose]), if_neg (by simpa using hopen),
      if_neg (by simpa using hclose)]
    dsimp only
    rw [ih fun d hd => h d (List.mem_cons_of_mem _ hd)]
    rfl

theorem literalPart_of_unbraced {cs : List Char} (h : Unbraced cs) :
    literalPart cs = .ok (cs, false, []) := by
  induction cs with
  | nil => rfl
  | cons c cs ih =>
    have hopen := ne_open_of_not_isBrace (h c List.mem_cons_self)
    have hclose := ne_close_of_not_isBrace (h c List.mem_cons_self)
    cases cs with
    | nil => rw [literalPart, if_neg (by simpa using hclose), if_neg (by simpa using hopen)]
    | cons d cs =>
      rw [literalPart, if_neg (by simpa using hclose), if_neg (by simpa using hopen),
        ih fun e he => h e (List.mem_cons_of_mem _ he)]
      rfl

/-- Literal text that no field follows is all of a text without braces, or ends with a brace that is
doubled in the text. -/
theorem literalPart_eq_ok {cs lit r : List Char} (h : literalPart cs = .ok (lit, false, r)) :
    (Unbraced cs ∧ lit = cs ∧ r = []) ∨
      ∃ b pre, IsBrace b ∧ lit = pre ++ [b] ∧ cs = pre ++ b :: b :: r := by
  fun_induction literalPart cs generalizing lit with
  | case1 =>
    cases h
    exact .inl ⟨by simp [Unbraced], rfl, rfl⟩
  | case2 c hclose => cases h
  | case3 c hclose hopen => cases h
  | case4 c hclose hopen =>
    cases h
    refine .inl ⟨?_, rfl, rfl⟩
    intro d hd
    rw [List.mem_singleton.mp hd]
    exact fun hb => hb.elim (by simpa using hopen) (by simpa using hclose)
  | case5 c d r' hclose hd =>
    cases h
    rw [eq_of_beq hclose, eq_of_beq hd]
    exact .inr ⟨closeBrace, [], .inr rfl, rfl, rfl⟩
  | case6 c d r' hclose hd => cases h
  | case7 c d r' hclose hopen hd =>
    cases h
    rw [eq_of_beq hopen, eq_of_beq hd]
    exact .inr ⟨openBrace, [], .inl rfl, rfl, rfl⟩
  | case8 c d r' hclose hopen hd => cases h
  | case9 c d r' hclose hopen ih =>
    obtain ⟨⟨lit', field, rest⟩, hrest, h⟩ := bind_eq_ok h
    cases h
    have hc : ¬IsBrace c := fun hb => hb.elim (by simpa using hopen) (by simpa using hclose)
    rcases ih hrest with ⟨hplain, rfl, rfl⟩ | ⟨b, pre, hb, rfl, hcs⟩
    · refine .inl ⟨?_, rfl, rfl⟩
      intro e he
      rcases List.mem_cons.mp he with rfl | he
      · exact hc
      · exact hplain e he
    · exact .inr ⟨b, c :: pre, hb, rfl, by rw [hcs]; rfl⟩

theorem literalPart_of_piecePart {cs literal r : List Char}
    (h : piecePart cs = .ok (⟨literal, none⟩, r)) : literalPart cs = .ok (literal, false, r) := by
  obtain ⟨⟨literal', field, r'⟩, hliteral, h⟩ := bind_eq_ok h
  cases field with
  | true =>
    obtain ⟨p, -, h⟩ := bind_eq_ok h
    cases h
  | false =>
    cases h
    exact hliteral

theorem liftTemplate_eq_ok {α : Type} {x : Except TemplateFault α} {a : α}
    (h : liftTemplate x = .ok a) : x = .ok a := by
  cases x with
  | error f => cases h
  | ok b => rw [Except.ok.inj h]

/-! ### Fields after the first -/

/-- The faults of a template that asks for more than one value: those of templates, and a name or a
position that has no value. -/
inductive OfTemplate : Fault → Prop
  | template (f : TemplateFault) : OfTemplate (.template f)
  | unknownName : OfTemplate .unknownName
  | unknownPosition : OfTemplate .unknownPosition

theorem onlyFaults_liftTemplate {α : Type} (x : Except TemplateFault α) :
    OnlyFaults OfTemplate (liftTemplate x) := by
  cases x with
  | error f => exact onlyFaults_error (.template f)
  | ok a => exact onlyFaults_ok a

variable {m : Magnitude}
  {nested : Numbering → List Char → Except Fault (List Char × Numbering)}

/-- Once a field has taken the only value there is none for another. -/
theorem exists_fault_of_valueOf (m : Magnitude) (name : List Char) :
    ∃ f, valueOf ⟨[m], []⟩ (.automatic 1) name = .error f ∧ OfTemplate f := by
  unfold valueOf
  dsimp only
  generalize name.takeWhile (fun c => c != '.' && c != '[') = first
  cases position? first with
  | error f => exact ⟨_, rfl, .template f⟩
  | ok p =>
    cases p with
    | some p => exact ⟨_, rfl, .template _⟩
    | none =>
      cases first with
      | nil => exact ⟨_, rfl, .unknownPosition⟩
      | cons c first => exact ⟨_, rfl, .unknownName⟩

theorem exists_fault_of_fillField (m : Magnitude)
    (nested : Numbering → List Char → Except Fault (List Char × Numbering)) (f : TemplateField) :
    ∃ g, fillField ⟨[m], []⟩ nested (.automatic 1) f = .error g ∧ OfTemplate g := by
  obtain ⟨g, hg, hfault⟩ := exists_fault_of_valueOf m f.name
  refine ⟨g, ?_, hfault⟩
  unfold fillField
  rw [hg]
  rfl

theorem onlyFaults_fillPieces (m : Magnitude) (fuel : Nat) (cs : List Char) :
    OnlyFaults OfTemplate (fillPieces ⟨[m], []⟩ nested fuel (.automatic 1) cs) := by
  induction fuel generalizing cs with
  | zero => cases cs <;> exact onlyFaults_ok _
  | succ fuel ih =>
    cases cs with
    | nil => exact onlyFaults_ok _
    | cons c cs =>
      unfold fillPieces
      refine (onlyFaults_liftTemplate _).bind fun p _ => ?_
      obtain ⟨⟨literal, field⟩, r⟩ := p
      cases field with
      | none => exact (ih r).bind fun _ _ => onlyFaults_ok _
      | some f =>
        obtain ⟨g, hg, hfault⟩ := exists_fault_of_fillField m nested f
        dsimp only
        rw [hg]
        exact onlyFaults_error hfault

/-- What is filled without another value starts with literal text. -/
theorem literal_of_fillPieces {fuel : Nat} {d : Char} {cs out : List Char} {n : Numbering}
    (h : fillPieces ⟨[m], []⟩ nested (fuel + 1) (.automatic 1) (d :: cs) = .ok (out, n)) :
    ∃ lit r tail, literalPart (d :: cs) = .ok (lit, false, r) ∧
      fillPieces ⟨[m], []⟩ nested fuel (.automatic 1) r = .ok (tail, n) ∧ out = lit ++ tail := by
  unfold fillPieces at h
  obtain ⟨⟨⟨literal, field⟩, r⟩, hpiece, h⟩ := bind_eq_ok h
  cases field with
  | some f =>
    obtain ⟨g, hg, -⟩ := exists_fault_of_fillField m nested f
    dsimp only at h
    rw [hg] at h
    cases h
  | none =>
    obtain ⟨⟨body, n'⟩, hbody, h⟩ := bind_eq_ok h
    cases hbody
    obtain ⟨⟨tail, n'⟩, htail, h⟩ := bind_eq_ok h
    cases h
    exact ⟨literal, r, tail, literalPart_of_piecePart (liftTemplate_eq_ok hpiece), htail, by simp⟩

/-- What is filled without another value has the characters of the template. -/
theorem mem_of_fillPieces {fuel : Nat} {cs out : List Char} {n : Numbering}
    (h : fillPieces ⟨[m], []⟩ nested fuel (.automatic 1) cs = .ok (out, n))
    (hfuel : cs.length ≤ fuel) : n = .automatic 1 ∧ ∀ c, c ∈ out ↔ c ∈ cs := by
  induction fuel generalizing cs out with
  | zero =>
    rw [List.length_eq_zero_iff.mp (Nat.le_zero.mp hfuel)] at h ⊢
    cases h
    exact ⟨rfl, fun c => Iff.rfl⟩
  | succ fuel ih =>
    cases cs with
    | nil =>
      cases h
      exact ⟨rfl, fun c => Iff.rfl⟩
    | cons d cs =>
      obtain ⟨lit, r, tail, hliteral, htail, rfl⟩ := literal_of_fillPieces h
      rcases literalPart_eq_ok hliteral with ⟨-, rfl, rfl⟩ | ⟨b, pre, -, rfl, hcs⟩
      · obtain ⟨hn, hmem⟩ := ih htail (Nat.zero_le _)
        exact ⟨hn, fun c => by simp [hmem]⟩
      · have hlength := congrArg List.length hcs
        obtain ⟨hn, hmem⟩ := ih htail (by simp at hlength hfuel; omega)
        exact ⟨hn, fun c => by simp [hmem, hcs]⟩

end Template

end UnitCalculus
