import ScreenReader.Proofs.Focus.Calls

namespace ScreenReader

theorem World.outcome_survey (w : World) (ts : List Target) :
    (w.survey ts).outcome = w.host.grant ts (ts.map w.host.valid) := by
  induction ts with
  | nil => rfl
  | cons t ts ih =>
    exact Host.outcome_bind_grant (w.host.outcome_ask t) (Host.outcome_bind_ok ih rfl)

namespace Scene

/-- The scene in which a run begins. -/
def opening (seed : Target) (limit : Nat) (w : World) : Scene :=
  ⟨w, (History.start seed limit).value⟩

/-- The same scene before a host that fails at other targets. -/
def failingAt (s : Scene) (faulty : List Target) : Scene :=
  { s with world := { s.world with faulty } }

/-- The targets that a step asks the host about, in turn. -/
def consulted (s : Scene) : FocusStep → List Target
  | .update arrival => arrival.toList
  | .clean => s.history.entries
  | .reportLost t => s.history.entries ++ if s.history.arrivedValid then [t] else []
  | .recover _ => (s.world.active.filter (· ≠ s.history.seed)).toList
  | .survey ts => ts
  | .reset | .detach _ | .attach _ | .activate _ | .describe => []

/-- What each step of a run asks about, as far as the run goes. -/
def consultations (s : Scene) : List FocusStep → List (List Target)
  | [] => []
  | step :: steps =>
    s.consulted step :: match (s.step step).outcome with
      | .error _ => []
      | .ok (next, _) => next.consultations steps

/-- What a call of the history leaves and answers if it is not broken off. -/
def called (s : Scene) (call : Call) : Scene × FocusResult :=
  ({ s with history := s.history.next s.world.host call }, s.history.answer s.world.host call)

/-- What a step leaves and answers if it is not broken off. -/
def taken (s : Scene) : FocusStep → Scene × FocusResult
  | .update arrival => s.called (.update arrival)
  | .reset => s.called .reset
  | .clean => s.called .clean
  | .reportLost t => s.called (.reportLost t)
  | .recover accept => s.called (.recover accept)
  | .detach ts => ({ s with world := s.world.detach ts }, .nothing)
  | .attach ts => ({ s with world := s.world.attach ts }, .nothing)
  | .activate t => ({ s with world := s.world.activate t }, .nothing)
  | .survey ts => (s, .survey s.world.active (ts.map s.world.host.valid))
  | .describe => (s, .description)

theorem outcome_step (s : Scene) (step : FocusStep) :
    (s.step step).outcome = s.world.host.grant (s.consulted step) (s.taken step) := by
  cases step with
  | update arrival => exact Host.outcome_bind_ok (s.history.outcome_update _ arrival) rfl
  | clean => exact Host.outcome_bind_ok (s.history.outcome_clean _) rfl
  | reportLost t => exact Host.outcome_bind_ok (s.history.outcome_reportLost _ t) rfl
  | recover accept => exact Host.outcome_bind_ok (s.history.outcome_recover _ accept) rfl
  | survey ts => exact Host.outcome_bind_ok (s.world.outcome_survey ts) rfl
  | _ => rfl

/-- At which targets the host fails makes no difference to a step that is not broken off. -/
theorem taken_failingAt (s : Scene) (faulty : List Target) (step : FocusStep) :
    (s.failingAt faulty).taken step =
      ((s.taken step).1.failingAt faulty, (s.taken step).2) := by
  cases step <;> rfl

theorem outcome_step_failingAt (s : Scene) (faulty : List Target) (step : FocusStep) :
    ((s.failingAt faulty).step step).outcome =
      match (s.consulted step).find? faulty.contains with
      | some t => .error ⟨t⟩
      | none => .ok ((s.taken step).1.failingAt faulty, (s.taken step).2) := by
  rw [outcome_step, taken_failingAt]
  rfl

theorem outcome_step_sound (s : Scene) (step : FocusStep) :
    ((s.failingAt []).step step).outcome =
      .ok ((s.taken step).1.failingAt [], (s.taken step).2) := by
  have nothing_faulty : (s.consulted step).find? [].contains = none := by simp
  rw [outcome_step_failingAt, nothing_faulty]

theorem answers_run_cons (s : Scene) (step : FocusStep) (steps : List FocusStep) :
    (s.run (step :: steps)).value =
      match (s.step step).outcome with
      | .error fault => [.error fault]
      | .ok (next, result) => .ok ⟨result, next.history⟩ :: (next.run steps).value := by
  simp only [run, Logged.value_bind, Inquiry.outcome]
  cases (s.step step).run.value <;> rfl

theorem consultations_sound_cons (s : Scene) (step : FocusStep) (steps : List FocusStep) :
    (s.failingAt []).consultations (step :: steps) =
      s.consulted step :: ((s.taken step).1.failingAt []).consultations steps := by
  rw [consultations, outcome_step_sound]
  rfl

theorem run_sound_cons (s : Scene) (step : FocusStep) (steps : List FocusStep) :
    ((s.failingAt []).run (step :: steps)).value =
      .ok ⟨(s.taken step).2, (s.taken step).1.history⟩ ::
        (((s.taken step).1.failingAt []).run steps).value := by
  rw [answers_run_cons, outcome_step_sound]
  rfl

theorem length_consultations_sound (s : Scene) (steps : List FocusStep) :
    ((s.failingAt []).consultations steps).length = steps.length := by
  induction steps generalizing s with
  | nil => rfl
  | cons step steps ih => rw [consultations_sound_cons, List.length_cons, List.length_cons, ih]

theorem run_sound (s : Scene) (steps : List FocusStep) :
    ∃ snapshots : List Snapshot, snapshots.length = steps.length ∧
      ((s.failingAt []).run steps).value = snapshots.map .ok := by
  induction steps generalizing s with
  | nil => exact ⟨[], rfl, rfl⟩
  | cons step steps ih =>
    obtain ⟨snapshots, length, told⟩ := ih (s.taken step).1
    refine ⟨⟨(s.taken step).2, (s.taken step).1.history⟩ :: snapshots, ?_, ?_⟩
    · rw [List.length_cons, List.length_cons, length]
    · rw [run_sound_cons, told, List.map_cons]

theorem run_failingAt (s : Scene) (faulty : List Target) (steps : List FocusStep) :
    ((s.failingAt faulty).run steps).value =
      ((s.failingAt []).run steps).value.take
          (((s.failingAt []).consultations steps).findIdx (·.any faulty.contains)) ++
        (((s.failingAt []).consultations steps).flatten.find? faulty.contains).toList.map
          fun t => .error ⟨t⟩ := by
  induction steps generalizing s with
  | nil => rfl
  | cons step steps ih =>
    rw [answers_run_cons, outcome_step_failingAt, run_sound_cons, consultations_sound_cons,
      List.findIdx_cons, List.flatten_cons, List.find?_append]
    cases first : (s.consulted step).find? faulty.contains with
    | some t =>
      have asked : (s.consulted step).any faulty.contains = true :=
        List.any_eq_true.mpr ⟨t, List.mem_of_find?_eq_some first, List.find?_some first⟩
      rw [asked]
      rfl
    | none =>
      -- the step leaves the same scene before either host, so the runs go on from there alike
      have spared : (s.consulted step).any faulty.contains = false := by
        simpa using List.find?_eq_none.mp first
      rw [spared, cond_false, List.take_succ_cons, Option.none_or]
      exact congrArg _ (ih (s.taken step).1)

/-- What a run tells at its end is the first failure among all that is asked. -/
theorem error_mem_run_iff (s : Scene) (faulty : List Target) (steps : List FocusStep) (t : Target) :
    .error ⟨t⟩ ∈ ((s.failingAt faulty).run steps).value ↔
      ((s.failingAt []).consultations steps).flatten.find? faulty.contains = some t := by
  obtain ⟨snapshots, -, whole⟩ := run_sound s steps
  rw [run_failingAt, whole, List.mem_append]
  constructor
  · rintro (early | last)
    · obtain ⟨snapshot, -, ok⟩ := List.mem_map.mp (List.mem_of_mem_take early)
      cases ok
    · obtain ⟨u, first, same⟩ := List.mem_map.mp last
      cases same
      exact Option.mem_toList.mp first
  · intro first
    exact .inr (List.mem_map.mpr ⟨t, Option.mem_toList.mpr first, rfl⟩)

/-- A run before a host that fails at some targets: the answers are those that there are without
any failure up to the first step that asks about such a target, and then the failure at the first of
them that the step comes to. Without such a step the run is whole. -/
theorem fault_cuts_run_short (seed : Target) (limit : Nat) (w : World) (faulty : List Target)
    (steps : List FocusStep) :
    let sound := (opening seed limit w).failingAt []
    let told := (sound.run steps).value
    let asked := sound.consultations steps
    let answers := (((opening seed limit w).failingAt faulty).run steps).value
    (∃ snapshots : List Snapshot, snapshots.length = steps.length ∧ told = snapshots.map .ok) ∧
    asked.length = steps.length ∧
    answers = told.take (asked.findIdx fun targets => targets.any faulty.contains) ++
      (asked.flatten.find? faulty.contains).toList.map (fun t => .error ⟨t⟩) ∧
    ((∀ fault, .error fault ∉ answers) ↔ ∀ targets ∈ asked, ∀ t ∈ targets, t ∉ faulty) := by
  intro sound told asked answers
  have cut := run_failingAt (opening seed limit w) faulty steps
  refine ⟨run_sound _ steps, length_consultations_sound _ steps, cut, ?_⟩
  calc (∀ fault, .error fault ∉ answers)
    _ ↔ ∀ t, asked.flatten.find? faulty.contains ≠ some t :=
      ⟨fun whole t first => whole ⟨t⟩ ((error_mem_run_iff _ faulty steps t).mpr first),
        fun none_first fault told => none_first _ ((error_mem_run_iff _ faulty steps _).mp told)⟩
    _ ↔ asked.flatten.find? faulty.contains = none := Option.eq_none_iff_forall_ne_some.symm
    _ ↔ ∀ targets ∈ asked, ∀ t ∈ targets, t ∉ faulty := by
      simp only [List.find?_eq_none, List.mem_flatten, List.contains_iff_mem]
      exact ⟨fun spared targets asked t mem => spared t ⟨targets, asked, mem⟩,
        fun spared t ⟨targets, asked, mem⟩ => spared targets asked t mem⟩

example :
    (((opening ⟨0⟩ 30 {}).failingAt [⟨0⟩]).run [.update (some ⟨1⟩), .clean, .reset]).value =
      [.ok ⟨.nothing, ⟨⟨0⟩, 30, [⟨1⟩, ⟨0⟩], true⟩⟩, .error ⟨⟨0⟩⟩] := rfl

end Scene

end ScreenReader
