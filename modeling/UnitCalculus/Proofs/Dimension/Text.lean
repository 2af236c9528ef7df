import UnitCalculus.Proofs.Dimension.Ranks
import UnitCalculus.Proofs.Exponent

/-! # The text of a dimension

The text of a dimension is its factors between brackets, with a blank between two of them; a factor
is its symbol, with a caret and the power behind it unless that is one.  Powers have neither blanks
nor carets.  So if the symbols are not empty and have none either, the blanks tell the factors apart
(`words_intercalate`), the caret tells the symbol of a factor from its power
(`Factor.key_eq_of_text_eq`), and the text of the power tells the power
(`Exponent.text_injective`): dimensions are the same exactly when their texts are
(`Dimension.text_eq_text_iff`). -/

namespace UnitCalculus

open Text

/-! ### Words -/

/-- The parts of a line between its blanks. -/
def words (cs : List Char) : List (List Char) :=
  (cs.splitOn ' ').filter (· ≠ [])

/-- Words are found again in the line that joins them. -/
theorem words_intercalate {ls : List String} (h : ∀ l ∈ ls, l ≠ "" ∧ ' ' ∉ l.toList) :
    words (" ".intercalate ls).toList = ls.map String.toList := by
  rw [String.toList_intercalate]
  rcases eq_or_ne ls [] with rfl | hne
  · rfl
  · have hwords : ∀ w ∈ ls.map String.toList, w ≠ [] ∧ ' ' ∉ w := by
      intro w hw
      obtain ⟨l, hl, rfl⟩ := List.mem_map.mp hw
      exact ⟨fun hempty => (h l hl).1 (String.toList_eq_nil_iff.mp hempty), (h l hl).2⟩
    unfold words
    rw [show (" " : String).toList = [' '] from rfl,
      List.splitOn_intercalate ' ' (fun w hw => (hwords w hw).2) (by simpa using hne),
      List.filter_eq_self]
    exact fun w hw => decide_eq_true (hwords w hw).1

/-! ### The text of a factor -/

namespace Factor

variable {f g : Factor}

/-- The symbol can be told from what surrounds it: it is not empty, and has no blank or caret. -/
def Legible (f : Factor) : Prop :=
  f.symbol ≠ "" ∧ ∀ c ∈ f.symbol.toList, isBlank c = false ∧ c ≠ '^'

-- The instance for lists is named, since the search takes the one that tries all characters.
instance (f : Factor) : Decidable f.Legible :=
  @instDecidableAnd _ _ inferInstance (List.decidableBAll _ _)

theorem Legible.caret_notMem (hf : f.Legible) : '^' ∉ f.symbol.toList := fun h =>
  (hf.2 '^' h).2 rfl

theorem text_of_power_eq_one (h : f.power = 1) : f.text = f.symbol := by
  unfold text
  rw [h]
  rfl

theorem toList_text_of_power_ne_one (h0 : f.power ≠ 0) (h1 : f.power ≠ 1) :
    f.text.toList = f.symbol.toList ++ '^' :: (Exponent.text f.power).toList := by
  unfold text
  rw [if_neg (by simpa using h0), if_neg (by simpa using h1), String.toList_append,
    String.toList_append, List.append_assoc]
  rfl

theorem caret_mem_text_iff (hf : f.Legible) (h0 : f.power ≠ 0) :
    '^' ∈ f.text.toList ↔ f.power ≠ 1 := by
  by_cases h1 : f.power = 1
  · rw [text_of_power_eq_one h1]
    exact iff_of_false hf.caret_notMem (not_not_intro h1)
  · rw [toList_text_of_power_ne_one h0 h1]
    exact iff_of_true (by simp) h1

/-- A factor is one word. -/
theorem text_word (hf : f.Legible) (h0 : f.power ≠ 0) : f.text ≠ "" ∧ ' ' ∉ f.text.toList := by
  have hsymbol : ' ' ∉ f.symbol.toList := fun h => absurd (hf.2 ' ' h).1 (by decide)
  by_cases h1 : f.power = 1
  · rw [text_of_power_eq_one h1]
    exact ⟨hf.1, hsymbol⟩
  · have htext := toList_text_of_power_ne_one h0 h1
    refine ⟨fun hempty => ?_, fun hblank => ?_⟩
    · rw [hempty] at htext
      simp at htext
    · rw [htext, List.mem_append, List.mem_cons] at hblank
      rcases hblank with hblank | hblank | hblank
      · exact hsymbol hblank
      · exact absurd hblank (by decide)
      · exact Exponent.notMem_text (by decide) (by decide) hblank

/-- Factors of one text have the same symbol and the same power. -/
theorem key_eq_of_text_eq (hf : f.Legible) (hg : g.Legible) (hf0 : f.power ≠ 0)
    (hg0 : g.power ≠ 0) (h : f.text = g.text) : f.key = g.key := by
  have hone : f.power = 1 ↔ g.power = 1 := by
    rw [← not_iff_not, ← ne_eq, ← ne_eq, ← caret_mem_text_iff hf hf0,
      ← caret_mem_text_iff hg hg0, h]
  by_cases hf1 : f.power = 1
  · have hg1 := hone.mp hf1
    rw [text_of_power_eq_one hf1, text_of_power_eq_one hg1] at h
    exact Prod.ext h (hf1.trans hg1.symm)
  · have hg1 : g.power ≠ 1 := fun hg1 => hf1 (hone.mpr hg1)
    have hlist : f.text.toList = g.text.toList := by rw [h]
    have hpowers : '^' ∉ (Exponent.text f.power).toList :=
      Exponent.notMem_text (by decide) (by decide)
    rw [toList_text_of_power_ne_one hf0 hf1, toList_text_of_power_ne_one hg0 hg1,
      List.append_cons_inj_of_notMem hf.caret_notMem hpowers] at hlist
    obtain ⟨hsymbol, -, hpower⟩ := hlist
    exact Prod.ext (String.toList_inj.mp hsymbol)
      (Exponent.text_injective (String.toList_inj.mp hpower))

/-- The text leaves out the rank. -/
theorem text_eq_of_key_eq (h : f.key = g.key) : f.text = g.text := by
  obtain ⟨hsymbol, hpower⟩ := Prod.mk.inj h
  unfold text
  rw [hsymbol, hpower]

end Factor

/-! ### The text of a dimension -/

namespace Dimension

variable {a b : Dimension}

/-- A dimension that the operations make, all of whose symbols can be told from what surrounds
them. -/
structure Legible (d : Dimension) : Prop where
  built : Built d
  symbols : ∀ f ∈ d.factors, f.Legible

theorem Legible.factors (ha : Legible a) : ∀ f ∈ a.factors, f.Legible ∧ f.power ≠ 0 :=
  fun f hf => ⟨ha.symbols f hf, ha.built.canonical.nonzero f hf⟩

theorem Legible.text_words (ha : Legible a) :
    ∀ l ∈ a.factors.map Factor.text, l ≠ "" ∧ ' ' ∉ l.toList := by
  intro l hl
  obtain ⟨f, hf, rfl⟩ := List.mem_map.mp hl
  exact Factor.text_word (ha.factors f hf).1 (ha.factors f hf).2

/-- The words between the brackets are the factors. -/
theorem texts_eq_of_text_eq (ha : Legible a) (hb : Legible b) (h : a.text = b.text) :
    a.factors.map Factor.text = b.factors.map Factor.text := by
  unfold text at h
  rw [String.append_left_inj, String.append_right_inj] at h
  have hwords := words_intercalate ha.text_words
  rw [h, words_intercalate hb.text_words] at hwords
  exact (List.map_injective_iff.mpr fun _ _ => String.toList_inj.mp) hwords.symm

/-- Lists of factors with the same texts have the same symbols and powers. -/
theorem keys_eq_of_texts_eq {es fs : List Factor} (he : ∀ e ∈ es, e.Legible ∧ e.power ≠ 0)
    (hf : ∀ f ∈ fs, f.Legible ∧ f.power ≠ 0) (h : es.map Factor.text = fs.map Factor.text) :
    es.map Factor.key = fs.map Factor.key := by
  induction es generalizing fs with
  | nil =>
    rw [List.map_nil, eq_comm, List.map_eq_nil_iff] at h
    rw [h]
  | cons e es ih =>
    cases fs with
    | nil => exact absurd h (by simp)
    | cons f fs =>
      obtain ⟨⟨hle, he0⟩, hes⟩ := List.forall_mem_cons.mp he
      obtain ⟨⟨hlf, hf0⟩, hfs⟩ := List.forall_mem_cons.mp hf
      obtain ⟨hhead, htail⟩ := List.cons.inj h
      rw [List.map_cons, List.map_cons, Factor.key_eq_of_text_eq hle hlf he0 hf0 hhead,
        ih hes hfs htail]

theorem texts_eq_of_key_eq (h : a.key = b.key) :
    a.factors.map Factor.text = b.factors.map Factor.text := by
  have htext : Factor.text = (fun k => Factor.text ⟨k.1, k.2, none⟩) ∘ Factor.key :=
    funext fun f => Factor.text_eq_of_key_eq rfl
  unfold key at h
  rw [htext, ← List.map_map, ← List.map_map, h]

/-- Dimensions with legible symbols are the same exactly when their texts are. -/
theorem text_eq_text_iff (ha : Legible a) (hb : Legible b) :
    a.text = b.text ↔ a.same b = true := by
  rw [same_iff_key]
  constructor
  · intro h
    exact keys_eq_of_texts_eq ha.factors hb.factors (texts_eq_of_text_eq ha hb h)
  · intro h
    unfold text
    rw [texts_eq_of_key_eq h]

/-- A blank in a symbol hides where the symbol ends. -/
example : (base "L T" none).text = ((base "L" none).mul (base "T" none)).text ∧
    (base "L T" none).same ((base "L" none).mul (base "T" none)) = false := by
  decide +kernel

end Dimension

end UnitCalculus
