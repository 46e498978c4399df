import ScreenReader.Vocabulary

namespace ScreenReader

namespace TextSet

theorem contains_iff {s : TextSet} {text : String} : s.contains text ↔ text ∈ s :=
  List.contains_iff_mem

theorem isEmpty_iff {s : TextSet} : s.isEmpty ↔ ∀ text, text ∉ s :=
  List.isEmpty_iff.trans List.eq_nil_iff_forall_not_mem

theorem empty_union (s : TextSet) : ∅ ∪ s = s :=
  ext_mem fun text => by simp

theorem union_self (s : TextSet) : s ∪ s = s :=
  ext_mem fun text => by simp

theorem union_comm (s t : TextSet) : s ∪ t = t ∪ s :=
  ext_mem fun text => by rw [mem_union, mem_union, or_comm]

theorem union_assoc (s t u : TextSet) : s ∪ t ∪ u = s ∪ (t ∪ u) :=
  ext_mem fun text => by simp only [mem_union, or_assoc]

end TextSet

namespace Vocabulary

variable {v w : Vocabulary} {axis : Axis} {value : String}

@[simp]
theorem axis?_ofAxes (values : Axis → Option TextSet) (axis : Axis) :
    (ofAxes values).axis? axis = values axis := by
  cases axis <;> rfl

@[simp]
theorem axis?_empty (axis : Axis) : (∅ : Vocabulary).axis? axis = none := by
  cases axis <;> rfl

theorem axis?_record (v : Vocabulary) (c : Constraint) (axis : Axis) :
    (v.record c).axis? axis = some (((v.axis? axis).getD ∅).insert (c.value axis)) :=
  axis?_ofAxes ..

theorem axis?_merge (v w : Vocabulary) (axis : Axis) :
    (v.merge w).axis? axis = addValues (v.axis? axis) (w.axis? axis) :=
  axis?_ofAxes ..

theorem ext_axis? (same : ∀ axis, v.axis? axis = w.axis? axis) : v = w :=
  Vocabulary.ext (same .domain) (same .style)

theorem eq_empty_iff_axis? : v = ∅ ↔ ∀ axis, v.axis? axis = none := by
  constructor
  · rintro rfl
    exact axis?_empty
  · intro absent
    exact ext_axis? fun axis => (absent axis).trans (axis?_empty axis).symm

theorem contains_iff : v.contains axis value ↔ ∃ s, v.axis? axis = some s ∧ value ∈ s := by
  unfold contains
  cases v.axis? axis with
  | none => simp
  | some s => simp [TextSet.contains_iff]

@[simp]
theorem not_contains_empty (axis : Axis) (value : String) :
    ¬(∅ : Vocabulary).contains axis value := by
  simp [contains_iff]

@[simp]
theorem contains_record {c : Constraint} :
    (v.record c).contains axis value ↔ c.value axis = value ∨ v.contains axis value := by
  rw [contains_iff, contains_iff, axis?_record, @eq_comm _ (c.value axis)]
  cases v.axis? axis with
  | none => simp
  | some s => simp

@[simp]
theorem contains_merge :
    (v.merge w).contains axis value ↔ v.contains axis value ∨ w.contains axis value := by
  rw [contains_iff, contains_iff, contains_iff, axis?_merge]
  cases w.axis? axis with
  | none => simp [addValues]
  | some t => cases v.axis? axis <;> simp [addValues]

section Join

theorem none_addValues (values : Option TextSet) : addValues none values = values := by
  cases values with
  | none => rfl
  | some s => exact congrArg some (TextSet.empty_union s)

theorem addValues_self (values : Option TextSet) : addValues values values = values := by
  cases values with
  | none => rfl
  | some s => exact congrArg some (TextSet.union_self s)

theorem addValues_comm (values added : Option TextSet) :
    addValues values added = addValues added values := by
  cases values with
  | none => exact none_addValues added
  | some s =>
    cases added with
    | none => exact (none_addValues (some s)).symm
    | some t => exact congrArg some (TextSet.union_comm s t)

theorem addValues_assoc (values added more : Option TextSet) :
    addValues (addValues values added) more = addValues values (addValues added more) := by
  cases more with
  | none => rfl
  | some u =>
    cases added with
    | none => exact congrArg (fun t => some (values.getD ∅ ∪ t)) (TextSet.empty_union u).symm
    | some t => exact congrArg some (TextSet.union_assoc (values.getD ∅) t u)

theorem merge_comm (v w : Vocabulary) : v.merge w = w.merge v :=
  ext_axis? fun axis => by rw [axis?_merge, axis?_merge, addValues_comm]

theorem merge_assoc (u v w : Vocabulary) : (u.merge v).merge w = u.merge (v.merge w) :=
  ext_axis? fun axis => by simp only [axis?_merge, addValues_assoc]

theorem merge_self (v : Vocabulary) : v.merge v = v :=
  ext_axis? fun axis => by rw [axis?_merge, addValues_self]

theorem empty_merge (v : Vocabulary) : (∅ : Vocabulary).merge v = v :=
  ext_axis? fun axis => by rw [axis?_merge, axis?_empty, none_addValues]

theorem merge_empty (v : Vocabulary) : v.merge ∅ = v := by
  rw [merge_comm, empty_merge]

theorem record_eq_merge (v : Vocabulary) (c : Constraint) :
    v.record c = v.merge (record ∅ c) := by
  refine ext_axis? fun axis => ?_
  rw [axis?_record, axis?_merge, axis?_record, axis?_empty]
  refine congrArg some (TextSet.ext_mem fun text => ?_)
  simp [or_comm]

end Join

theorem foldl_record (v : Vocabulary) (cs : List Constraint) :
    cs.foldl record v = v.merge (ofConstraints cs) := by
  induction cs generalizing v with
  | nil => exact v.merge_empty.symm
  | cons c cs ih =>
    have first : ofConstraints (c :: cs) = (record ∅ c).merge (ofConstraints cs) := ih (record ∅ c)
    rw [List.foldl_cons, ih, record_eq_merge, first, merge_assoc]

/-- Lists of constraints are recorded one behind the other as they are apart. -/
theorem ofConstraints_append (cs ds : List Constraint) :
    ofConstraints (cs ++ ds) = (ofConstraints cs).merge (ofConstraints ds) := by
  rw [← foldl_record]
  exact List.foldl_append

theorem contains_ofConstraints {cs : List Constraint} :
    (ofConstraints cs).contains axis value ↔ ∃ c ∈ cs, c.value axis = value := by
  induction cs with
  | nil => simp [ofConstraints]
  | cons c cs ih =>
    have first : ofConstraints (c :: cs) = (record ∅ c).merge (ofConstraints cs) :=
      foldl_record (record ∅ c) cs
    simp [first, ih]

theorem contains_foldl_merge {α : Type} {f : α → Vocabulary} {as : List α} :
    (as.foldl (fun v a => v.merge (f a)) v).contains axis value ↔
      v.contains axis value ∨ ∃ a ∈ as, (f a).contains axis value := by
  induction as generalizing v with
  | nil => simp
  | cons a as ih =>
    simp only [List.foldl_cons, ih, contains_merge, List.mem_cons, exists_eq_or_imp, or_assoc]

/-- The vocabularies that are recorded from constraints. -/
def Recorded (v : Vocabulary) : Prop :=
  ∃ cs, v = ofConstraints cs

theorem recorded_empty : (∅ : Vocabulary).Recorded := ⟨[], rfl⟩

theorem Recorded.merge (left : v.Recorded) (right : w.Recorded) : (v.merge w).Recorded := by
  obtain ⟨cs, rfl⟩ := left
  obtain ⟨ds, rfl⟩ := right
  exact ⟨cs ++ ds, (ofConstraints_append cs ds).symm⟩

theorem Recorded.record (recorded : v.Recorded) (c : Constraint) : (v.record c).Recorded := by
  rw [record_eq_merge]
  exact recorded.merge ⟨[c], rfl⟩

theorem Recorded.foldl_merge {α : Type} {f : α → Vocabulary} (recorded : v.Recorded)
    (each : ∀ a, (f a).Recorded) (as : List α) :
    (as.foldl (fun v a => v.merge (f a)) v).Recorded := by
  induction as generalizing v with
  | nil => exact recorded
  | cons a as ih => exact ih (recorded.merge (each a))

/-- A constraint is recorded on both axes, so that each of them has a value or none is present. -/
theorem Recorded.eq_empty_or (recorded : v.Recorded) :
    v = ∅ ∨ ∀ axis, ∃ value, v.contains axis value := by
  obtain ⟨cs, rfl⟩ := recorded
  cases cs with
  | nil => exact .inl rfl
  | cons c cs =>
    exact .inr fun axis => ⟨c.value axis, contains_ofConstraints.mpr ⟨c, List.mem_cons_self, rfl⟩⟩

theorem Recorded.isSome_axis?_iff (recorded : v.Recorded) :
    (v.axis? axis).isSome ↔ ∃ value, v.contains axis value := by
  constructor
  · intro present
    rcases recorded.eq_empty_or with rfl | used
    · rw [axis?_empty] at present
      cases present
    · exact used axis
  · rintro ⟨value, held⟩
    obtain ⟨s, present, -⟩ := contains_iff.mp held
    exact Option.isSome_of_eq_some present

theorem Recorded.axis?_eq_none_iff (recorded : v.Recorded) :
    v.axis? axis = none ↔ ∀ value, ¬v.contains axis value := by
  rw [← Option.not_isSome_iff_eq_none, recorded.isSome_axis?_iff, not_exists]

/-- Which values are in use is all there is to a recorded vocabulary. -/
theorem Recorded.ext_contains (left : v.Recorded) (right : w.Recorded)
    (same : ∀ axis value, v.contains axis value ↔ w.contains axis value) : v = w := by
  refine ext_axis? fun axis => ?_
  have absent : v.axis? axis = none ↔ w.axis? axis = none := by
    rw [left.axis?_eq_none_iff, right.axis?_eq_none_iff]
    exact forall_congr' fun value => not_congr (same axis value)
  cases hv : v.axis? axis with
  | none => exact (absent.mp hv).symm
  | some s =>
    cases hw : w.axis? axis with
    | none => rw [absent.mpr hw] at hv; cases hv
    | some t =>
      refine congrArg some (TextSet.ext_mem fun value => ?_)
      simpa [contains_iff, hv, hw] using same axis value

theorem Recorded.eq_empty_iff (recorded : v.Recorded) :
    v = ∅ ↔ ∀ axis value, ¬v.contains axis value := by
  rw [eq_empty_iff_axis?]
  exact forall_congr' fun axis => recorded.axis?_eq_none_iff

theorem isEmpty_iff : v.isEmpty ↔ ∀ axis value, ¬v.contains axis value := by
  have present : ∀ axis, (v.axis? axis).all TextSet.isEmpty ↔ ∀ value, ¬v.contains axis value := by
    intro axis
    cases held : v.axis? axis with
    | none => simp [contains_iff, held]
    | some s => simp [contains_iff, held, TextSet.isEmpty_iff]
  have both : v.isEmpty ↔ ∀ axis, (v.axis? axis).all TextSet.isEmpty := by
    constructor
    · intro empty axis
      exact List.all_eq_true.mp empty axis (by cases axis <;> decide)
    · intro each
      exact List.all_eq_true.mpr fun axis _ => each axis
  exact both.trans (forall_congr' present)

end Vocabulary

end ScreenReader
