import Mathlib.Data.List.TakeWhile
import ScreenReader.Constraint

namespace ScreenReader.Constraint

/-- A separator in the domain, which its text does not tell from the one behind the domain. -/
def Dotted (c : Constraint) : Prop :=
  separator ∈ c.domain.toList

instance (c : Constraint) : Decidable c.Dotted :=
  inferInstanceAs (Decidable (_ ∈ _))

/-- The order of domains, and of styles within a domain. -/
def Before (c e : Constraint) : Prop :=
  c.domain < e.domain ∨ c.domain = e.domain ∧ c.style < e.style

theorem toList_text (c : Constraint) :
    c.text.toList = c.domain.toList ++ separator :: c.style.toList := by
  simp [text]

theorem separator_mem_text (c : Constraint) : separator ∈ c.text.toList := by
  rw [toList_text]
  exact List.mem_append_right _ List.mem_cons_self

theorem not_dotted_ofText (key : String) : ¬(ofText key).Dotted := by
  intro dotted
  rw [Dotted, ofText, String.toList_ofList] at dotted
  simpa using List.all_eq_true.mp List.all_takeWhile _ dotted

theorem bne_separator {cs : List Char} (h : separator ∉ cs) : ∀ x ∈ cs, (x != separator) = true := by
  intro x mem
  simp only [bne_iff_ne, ne_eq]
  rintro rfl
  exact h mem

theorem ofText_text {c : Constraint} (h : ¬c.Dotted) : ofText c.text = c := by
  have before := bne_separator h
  unfold ofText
  rw [toList_text, List.takeWhile_append_of_pos before, List.dropWhile_append_of_pos before,
    List.takeWhile_cons_of_neg (by simp), List.dropWhile_cons_of_neg (by simp)]
  simp

theorem text_ofText {key : String} (h : separator ∈ key.toList) : (ofText key).text = key := by
  have parted := List.takeWhile_append_dropWhile (p := (· != separator)) (l := key.toList)
  have stop := List.head?_dropWhile_not (· != separator) key.toList
  apply String.toList_inj.mp
  rw [toList_text, ofText, String.toList_ofList, String.toList_ofList]
  cases rest : key.toList.dropWhile (· != separator) with
  | nil =>
    rw [rest, List.append_nil] at parted
    rw [← parted] at h
    have := List.all_eq_true.mp List.all_takeWhile _ h
    simp at this
  | cons x style =>
    rw [rest] at parted stop
    have point : x = separator := by simpa using stop
    rw [point] at parted
    exact parted

theorem ofText_text_eq_iff {c e : Constraint} :
    ofText c.text = e ↔ ¬e.Dotted ∧ c.text = e.text := by
  constructor
  · rintro rfl
    exact ⟨not_dotted_ofText _, (text_ofText c.separator_mem_text).symm⟩
  · rintro ⟨undotted, same⟩
    rw [same, ofText_text undotted]

theorem eq_of_text_eq_of_domain_eq {c e : Constraint} (same : c.text = e.text)
    (domain : c.domain = e.domain) : c = e := by
  have chars := congrArg String.toList same
  rw [toList_text, toList_text, domain] at chars
  have style := (List.cons.inj (List.append_cancel_left chars)).2
  exact Constraint.ext domain (String.toList_inj.mp style)

theorem domain_prefix {c e : Constraint} (same : c.text = e.text)
    (shorter : c.domain.length ≤ e.domain.length) : c.domain.toList <+: e.domain.toList := by
  have whole := congrArg String.toList same
  rw [toList_text, toList_text] at whole
  refine List.prefix_of_prefix_length_le ⟨_, whole⟩ (List.prefix_append ..) ?_
  rw [String.length_toList, String.length_toList]
  exact shorter

theorem eq_of_text_eq_of_length_eq {c e : Constraint} (same : c.text = e.text)
    (length : c.domain.length = e.domain.length) : c = e := by
  have pre := domain_prefix same (Nat.le_of_eq length)
  have domains := pre.eq_of_length (by rw [String.length_toList, String.length_toList, length])
  exact eq_of_text_eq_of_domain_eq same (String.toList_inj.mp domains)

theorem not_before_self (c : Constraint) : ¬c.Before c := by
  rintro (lt | ⟨_, lt⟩)
  · exact String.lt_irrefl _ lt
  · exact String.lt_irrefl _ lt

theorem length_lt_of_domain_lt {c e : Constraint} (same : c.text = e.text)
    (lt : c.domain < e.domain) : c.domain.length < e.domain.length := by
  refine Nat.lt_of_not_le fun longer => ?_
  obtain ⟨rest, split⟩ := domain_prefix same.symm longer
  have chars : c.domain.toList < e.domain.toList := lt
  rw [← split] at chars
  exact List.not_lt.mpr List.le_append_left chars

/-- Of two constraints of one text, the later one has the longer domain. -/
theorem Before.length_lt {c e : Constraint} (before : c.Before e) (same : c.text = e.text) :
    c.domain.length < e.domain.length := by
  rcases before with lt | ⟨domain, lt⟩
  · exact length_lt_of_domain_lt same lt
  · rw [eq_of_text_eq_of_domain_eq same domain] at lt
    exact absurd lt (String.lt_irrefl _)

theorem ofText_of_undotted {key : String} (h : separator ∉ key.toList) : ofText key = ⟨key, ""⟩ := by
  have before := bne_separator h
  unfold ofText
  rw [List.takeWhile_eq_self_iff.mpr before, List.dropWhile_eq_nil_iff.mpr before]
  simp

/-- A key with the separator that it may lack at its end. -/
def completed (key : String) : String :=
  if separator ∈ key.toList then key else key ++ String.singleton separator

theorem text_ofText_eq_completed (key : String) : (ofText key).text = completed key := by
  unfold completed
  split
  next dotted => exact text_ofText dotted
  next undotted => simp [ofText_of_undotted undotted, text]

theorem ofText_text_ofText (key : String) : ofText (ofText key).text = ofText key :=
  ofText_text (not_dotted_ofText key)

theorem ofText_eq_iff {k l : String} : ofText k = ofText l ↔ completed k = completed l := by
  rw [← text_ofText_eq_completed, ← text_ofText_eq_completed]
  constructor
  · exact congrArg text
  · intro same
    rw [← ofText_text_ofText k, same, ofText_text_ofText]

theorem completed_eq_iff {k l : String} :
    completed k = completed l ↔
      k = l ∨ (separator ∉ k.toList ∧ l = k ++ String.singleton separator) ∨
        (separator ∉ l.toList ∧ k = l ++ String.singleton separator) := by
  have ended : ∀ key : String, separator ∈ (key ++ String.singleton separator).toList := by simp
  constructor
  · intro same
    unfold completed at same
    split at same
    next =>
      split at same
      next => exact .inl same
      next undotted => exact .inr (.inr ⟨undotted, same⟩)
    next undotted =>
      split at same
      next => exact .inr (.inl ⟨undotted, same.symm⟩)
      next => exact .inl (String.append_left_inj _ |>.mp same)
  · rintro (rfl | ⟨undotted, rfl⟩ | ⟨undotted, rfl⟩)
    · rfl
    · rw [completed, completed, if_neg undotted, if_pos (ended k)]
    · rw [completed, completed, if_neg undotted, if_pos (ended l)]

/-- Constraints and their texts. A text keeps its constraint unless the domain has a separator of its
own; a constraint keeps the key that it was read from, but for a separator that is missing; and two
keys are of one constraint only if they are the same but for that separator. -/
theorem text_keeps_undotted_constraints :
    (∀ c : Constraint, ofText c.text = c ↔ ¬c.Dotted) ∧
    (∀ key, (ofText key).text =
      if separator ∈ key.toList then key else key ++ String.singleton separator) ∧
    (∀ key, ofText (ofText key).text = ofText key) ∧
    (∀ key, ¬(ofText key).Dotted) ∧
    ∀ k l, ofText k = ofText l ↔
      k = l ∨ (separator ∉ k.toList ∧ l = k ++ String.singleton separator) ∨
        (separator ∉ l.toList ∧ k = l ++ String.singleton separator) := by
  refine ⟨fun c => ⟨fun kept => ?_, ofText_text⟩, text_ofText_eq_completed, ofText_text_ofText,
    not_dotted_ofText, fun k l => ofText_eq_iff.trans completed_eq_iff⟩
  rw [← kept]
  exact not_dotted_ofText c.text

example : ofText "d" = ofText "d." ∧ ofText "d." ≠ ofText "d.." := by decide

end ScreenReader.Constraint
