import ScreenReader.Proofs.Vocabulary
import ScreenReader.Vocabulary.Slots

namespace ScreenReader.Vocabulary

/-- What `source` holds in front of the steps has got to `slot` behind them. A slot keeps what it
holds, and a merge takes it to one more slot. -/
inductive Carries : List SlotStep → String → String → Prop
  | here (slot : String) : Carries [] slot slot
  | kept {step : SlotStep} {steps : List SlotStep} {source slot : String} :
    Carries steps source slot → Carries (step :: steps) source slot
  | merged {steps : List SlotStep} {source target slot : String} :
    Carries steps target slot → Carries (.merge target source :: steps) source slot

/-- A constraint was recorded in the course of the steps, and from there it has got to `slot`. -/
def Reaches (steps : List SlotStep) (slot : String) (c : Constraint) : Prop :=
  ∃ before source after, steps = before ++ .record source c :: after ∧ Carries after source slot

section

variable {steps : List SlotStep} {source target slot : String} {c d : Constraint}

theorem carries_nil_iff : Carries [] source slot ↔ source = slot := by
  constructor
  · intro carried
    cases carried
    rfl
  · rintro rfl
    exact .here source

theorem carries_record_iff :
    Carries (.record target c :: steps) source slot ↔ Carries steps source slot := by
  constructor
  · intro carried
    cases carried with
    | kept carried => exact carried
  · exact .kept

theorem carries_merge_iff {origin : String} :
    Carries (.merge target origin :: steps) source slot ↔
      Carries steps source slot ∨ source = origin ∧ Carries steps target slot := by
  constructor
  · intro carried
    cases carried with
    | kept carried => exact .inl carried
    | merged carried => exact .inr ⟨rfl, carried⟩
  · rintro (carried | ⟨rfl, carried⟩)
    · exact .kept carried
    · exact .merged carried

theorem not_reaches_nil : ¬Reaches [] slot c := by
  rintro ⟨before, source, after, eq, -⟩
  simp at eq

theorem reaches_cons_iff {step : SlotStep} :
    Reaches (step :: steps) slot c ↔
      (∃ source, step = .record source c ∧ Carries steps source slot) ∨ Reaches steps slot c := by
  constructor
  · rintro ⟨before, source, after, eq, carried⟩
    cases before with
    | nil =>
      obtain ⟨rfl, rfl⟩ := List.cons.inj eq
      exact .inl ⟨source, rfl, carried⟩
    | cons first before =>
      obtain ⟨rfl, rfl⟩ := List.cons.inj eq
      exact .inr ⟨before, source, after, rfl, carried⟩
  · rintro (⟨source, rfl, carried⟩ | ⟨before, source, after, rfl, carried⟩)
    · exact ⟨[], source, steps, rfl, carried⟩
    · exact ⟨step :: before, source, after, rfl, carried⟩

end

namespace Slots

variable {slots : Slots} {steps : List SlotStep} {slot : String} {axis : Axis} {value : String}

theorem read_empty (slot : String) : (∅ : Slots).read slot = ∅ := rfl

theorem read_insert (slots : Slots) (target slot : String) (v : Vocabulary) :
    read (slots.insert target v) slot = if target = slot then v else slots.read slot := by
  unfold read
  rw [Dictionary.get?_insert]
  split <;> rfl

theorem contains_read_record {target : String} {c : Constraint} :
    ((slots.apply (.record target c)).read slot).contains axis value ↔
      target = slot ∧ c.value axis = value ∨ (slots.read slot).contains axis value := by
  rw [apply, read_insert]
  split
  next same =>
    subst same
    simp
  next other => simp [other]

theorem contains_read_merge {target source : String} :
    ((slots.apply (.merge target source)).read slot).contains axis value ↔
      target = slot ∧ (slots.read source).contains axis value ∨
        (slots.read slot).contains axis value := by
  rw [apply, read_insert]
  split
  next same =>
    subst same
    simp [or_comm]
  next other => simp [other]

/-- A value is in a slot if it was in one before from which the steps carry it there, or if a
constraint of the steps brings it. -/
theorem contains_read_run :
    ((slots.run steps).read slot).contains axis value ↔
      (∃ source, Carries steps source slot ∧ (slots.read source).contains axis value) ∨
        ∃ c, Reaches steps slot c ∧ c.value axis = value := by
  induction steps generalizing slots with
  | nil => simp [run, carries_nil_iff, not_reaches_nil]
  | cons step steps ih =>
    have rest : slots.run (step :: steps) = (slots.apply step).run steps := rfl
    rw [rest, ih]
    cases step with
    | record target c =>
      simp only [contains_read_record, carries_record_iff, reaches_cons_iff, SlotStep.record.injEq]
      constructor
      · rintro (⟨source, carried, ⟨rfl, same⟩ | held⟩ | ⟨d, reached, same⟩)
        · exact .inr ⟨c, .inl ⟨target, ⟨rfl, rfl⟩, carried⟩, same⟩
        · exact .inl ⟨source, carried, held⟩
        · exact .inr ⟨d, .inr reached, same⟩
      · rintro (⟨source, carried, held⟩ | ⟨d, ⟨source, ⟨rfl, rfl⟩, carried⟩ | reached, same⟩)
        · exact .inl ⟨source, carried, .inr held⟩
        · exact .inl ⟨target, carried, .inl ⟨rfl, same⟩⟩
        · exact .inr ⟨d, reached, same⟩
    | merge target origin =>
      simp only [contains_read_merge, carries_merge_iff, reaches_cons_iff, reduceCtorEq, false_and,
        exists_false, false_or]
      refine or_congr_left ?_
      constructor
      · rintro ⟨source, carried, ⟨rfl, held⟩ | held⟩
        · exact ⟨origin, .inr ⟨rfl, carried⟩, held⟩
        · exact ⟨source, .inl carried, held⟩
      · rintro ⟨source, carried | ⟨rfl, carried⟩, held⟩
        · exact ⟨source, carried, .inr held⟩
        · exact ⟨target, carried, .inl ⟨rfl, held⟩⟩

theorem contains_read_run_empty :
    ((run ∅ steps).read slot).contains axis value ↔
      ∃ c, Reaches steps slot c ∧ c.value axis = value := by
  rw [contains_read_run]
  simp [read_empty]

theorem recorded_apply (recorded : ∀ slot, (slots.read slot).Recorded) (step : SlotStep)
    (slot : String) : ((slots.apply step).read slot).Recorded := by
  cases step with
  | record target c =>
    rw [apply, read_insert]
    split
    next => exact (recorded target).record c
    next => exact recorded slot
  | merge target source =>
    rw [apply, read_insert]
    split
    next => exact (recorded target).merge (recorded source)
    next => exact recorded slot

theorem recorded_run (recorded : ∀ slot, (slots.read slot).Recorded) (steps : List SlotStep)
    (slot : String) : ((slots.run steps).read slot).Recorded := by
  induction steps generalizing slots with
  | nil => exact recorded slot
  | cons step steps ih => exact ih (recorded_apply recorded step)

theorem recorded_run_empty (steps : List SlotStep) (slot : String) :
    ((run ∅ steps).read slot).Recorded :=
  recorded_run (fun slot => read_empty slot ▸ recorded_empty) steps slot

theorem isSome_axis?_iff :
    (((run ∅ steps).read slot).axis? axis).isSome ↔ ∃ c, Reaches steps slot c := by
  rw [(recorded_run_empty steps slot).isSome_axis?_iff]
  simp only [contains_read_run_empty]
  constructor
  · rintro ⟨value, c, reached, -⟩
    exact ⟨c, reached⟩
  · rintro ⟨c, reached⟩
    exact ⟨c.value axis, c, reached, rfl⟩

/-- Vocabularies are joined by merging, and what joins and records make of them is told by what has
got to them. A slot has just the values of the constraints that reach it; both axes are present with a
value as soon as one does, and none before. So vocabularies with the same values are the same. -/
theorem slots_hold_what_reaches_them :
    (∀ (steps : List SlotStep) (slot : String) (axis : Axis),
      let v := (run ∅ steps).read slot
      (∀ value, v.contains axis value ↔ ∃ c, Reaches steps slot c ∧ c.value axis = value) ∧
      ((v.axis? axis).isSome ↔ ∃ c, Reaches steps slot c) ∧
      ∀ values, v.axis? axis = some values → (∃ value, value ∈ values) ∧
        ∀ value, value ∈ values ↔ ∃ c, Reaches steps slot c ∧ c.value axis = value) ∧
    (∀ v w : Vocabulary, v.merge w = w.merge v) ∧
    (∀ u v w : Vocabulary, (u.merge v).merge w = u.merge (v.merge w)) ∧
    (∀ v : Vocabulary, v.merge v = v ∧ v.merge ∅ = v ∧ (∅ : Vocabulary).merge v = v) ∧
    (∀ (v : Vocabulary) (c : Constraint), v.record c = v.merge (record ∅ c)) ∧
    (∀ steps slot, ((run ∅ steps).read slot).isEmpty ↔ (run ∅ steps).read slot = ∅) ∧
    ∀ steps slot others other, (run ∅ steps).read slot = (run ∅ others).read other ↔
      ∀ axis value, ((run ∅ steps).read slot).contains axis value =
        ((run ∅ others).read other).contains axis value := by
  refine ⟨fun steps slot axis => ⟨fun value => contains_read_run_empty, isSome_axis?_iff,
    fun values present => ?_⟩, merge_comm, merge_assoc,
    fun v => ⟨v.merge_self, v.merge_empty, v.empty_merge⟩, record_eq_merge, fun steps slot => ?_,
    fun steps slot others other => ⟨fun same => by simp [same], fun same => ?_⟩⟩
  · have held : ∀ value, value ∈ values ↔ ∃ c, Reaches steps slot c ∧ c.value axis = value := by
      intro value
      rw [← contains_read_run_empty, contains_iff, present]
      simp
    obtain ⟨c, reached⟩ := isSome_axis?_iff.mp (Option.isSome_of_eq_some present)
    exact ⟨⟨c.value axis, (held _).mpr ⟨c, reached, rfl⟩⟩, held⟩
  · rw [isEmpty_iff, (recorded_run_empty steps slot).eq_empty_iff]
  · exact (recorded_run_empty steps slot).ext_contains (recorded_run_empty others other)
      fun axis value => Bool.eq_iff_iff.mp (same axis value)

end Slots

end ScreenReader.Vocabulary
