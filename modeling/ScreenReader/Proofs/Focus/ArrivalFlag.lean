import ScreenReader.Proofs.Focus.Arrivals

namespace ScreenReader

namespace Event

/-- Whether the event decides anew if the last arrival counts as valid. -/
def writesFlag (e : Event) : Bool :=
  match e.call with
  | .update _ => true
  | .reset => true
  | .clean => false
  | .reportLost _ => true
  | .recover _ => (e.host.recordable e.before.seed).isSome

/-- An arrival nowhere, or at a target that is not valid at the time. -/
def arrivesBroken (e : Event) : Bool :=
  match e.call with
  | .update arrival => !arrival.any e.host.valid
  | _ => false

/-- A target is reported that is gone indeed, and the answer is that it is not. -/
def Suppressed (e : Event) : Prop :=
  ∃ t, e.call = .reportLost t ∧ ¬e.host.valid t ∧ e.result = .flag false

end Event

/-- Whether the last event to write the flag was a broken arrival, which the start never is. -/
def brokenLast (es : List Event) : Bool :=
  (es.filter Event.writesFlag).getLast?.any Event.arrivesBroken

theorem brokenLast_append_singleton (es : List Event) (e : Event) :
    brokenLast (es ++ [e]) = if e.writesFlag then e.arrivesBroken else brokenLast es := by
  unfold brokenLast
  rw [List.filter_append]
  split
  next writes =>
    rw [List.filter_cons_of_pos writes, List.filter_nil, List.getLast?_concat, Option.any_some]
  next silent => rw [List.filter_cons_of_neg silent, List.filter_nil, List.append_nil]

theorem broken_behind_of_brokenLast {earlier later : List Event} {e : Event}
    (writes : e.writesFlag) (sound : ¬e.arrivesBroken)
    (broken : brokenLast (earlier ++ e :: later)) : ∃ u ∈ later, u.arrivesBroken := by
  obtain ⟨u, last, hu⟩ := (Option.any_eq_true _ _).mp broken
  rw [List.filter_append, List.filter_cons_of_pos writes, List.getLast?_append, List.getLast?_cons,
    Option.some_or] at last
  cases behind : (later.filter Event.writesFlag).getLast? with
  | none =>
    rw [behind, Option.getD_none] at last
    cases last
    exact absurd hu sound
  | some v =>
    rw [behind, Option.getD_some] at last
    cases last
    exact ⟨u, (List.mem_filter.mp (List.mem_of_getLast? behind)).1, hu⟩

namespace History

theorem arrivedValid_withActive (h : History) (host : Host) :
    (h.withActive host).arrivedValid = ((host.recordable h.seed).isSome || h.arrivedValid) := by
  cases recorded : host.recordable h.seed with
  | none =>
    rw [withActive_of_none recorded]
    rfl
  | some t =>
    -- A target is recorded only if it is valid, so that this arrival is never a broken one.
    rw [withActive_of_some recorded]
    exact (Host.recordable_eq_some_iff.mp recorded).2.2

theorem arrivedValid_next (h : History) (host : Host) (call : Call) :
    (h.next host call).arrivedValid =
      if (h.event host call).writesFlag then !(h.event host call).arrivesBroken
      else h.arrivedValid := by
  cases call with
  | update arrival => exact (Bool.not_not _).symm
  | reset => rfl
  | clean => rfl
  | reportLost t => rfl
  | recover accept =>
    -- What is dropped from the front has no part in the flag.
    have kept : (h.next host (.recover accept)).arrivedValid =
        (h.withActive host).arrivedValid := by
      cases accept <;> rfl
    rw [kept, arrivedValid_withActive]
    by_cases recorded : (host.recordable h.seed).isSome
    · rw [recorded, Bool.true_or]
      exact (if_pos recorded).symm
    · rw [Bool.eq_false_iff.mpr recorded, Bool.false_or]
      exact (if_neg recorded).symm

theorem arrivedValid_reached (seed : Target) (limit : Nat) (calls : List (Host × Call)) :
    ((start seed limit).value.reached calls).arrivedValid =
      !brokenLast ((start seed limit).value.events calls) := by
  refine run_induction (P := fun es h => h.arrivedValid = !brokenLast es) ?_ calls [] rfl
  intro es h host call flag
  rw [arrivedValid_next, brokenLast_append_singleton, flag]
  split <;> rfl

theorem arrivedValid_before {seed : Target} {limit : Nat} {calls : List (Host × Call)}
    {earlier later : List Event} {e : Event}
    (split : (start seed limit).value.events calls = earlier ++ e :: later) :
    e.before.arrivedValid = !brokenLast earlier := by
  have cut := take_events earlier.length (start seed limit).value calls
  rw [split, List.take_left] at cut
  rw [before_of_events_eq split, arrivedValid_reached, ← cut]

theorem not_arrivedValid_of_suppressed {h : History} {calls : List (Host × Call)} {e : Event}
    (mem : e ∈ h.events calls) (suppressed : e.Suppressed) : e.before.arrivedValid = false := by
  obtain ⟨t, call, gone, told⟩ := suppressed
  have answered := (mem_events mem).2
  rw [told, call] at answered
  have flag : false = (e.before.arrivedValid && !e.host.valid t) := FocusResult.flag.inj answered
  simpa [gone] using flag

theorem broken_between_suppressed {seed : Target} {limit : Nat} {calls : List (Host × Call)}
    {earlier between later : List Event} {e f : Event}
    (split : (start seed limit).value.events calls = earlier ++ e :: (between ++ f :: later))
    (first : e.Suppressed) (second : f.Suppressed) : ∃ u ∈ between, u.arrivesBroken := by
  obtain ⟨t, call, -, -⟩ := first
  have writes : e.writesFlag := by simp [Event.writesFlag, call]
  have sound : ¬e.arrivesBroken := by simp [Event.arrivesBroken, call]
  have regrouped : (start seed limit).value.events calls =
      (earlier ++ e :: between) ++ f :: later := by simp [split]
  have mem : f ∈ (start seed limit).value.events calls := by simp [split]
  have flag := not_arrivedValid_of_suppressed mem second
  rw [arrivedValid_before regrouped] at flag
  exact broken_behind_of_brokenLast writes sound (by simpa using flag)

/-- A report that a target is gone is answered in the affirmative if it is gone, unless the last
event to write the flag was a broken arrival; each of those holds back one report at most. -/
theorem report_told_unless_broken (seed : Target) (limit : Nat) (calls : List (Host × Call)) :
    let h := (start seed limit).value.reached calls
    let es := (start seed limit).value.events calls
    (∀ host t, (h.reportLost host t).outcome =
      host.grant (h.consulted host (.reportLost t))
        ({ h with entries := h.entries.filter host.valid, arrivedValid := true },
          !host.valid t && !brokenLast es)) ∧
    (∀ e ∈ es, ¬e.writesFlag → e.after.arrivedValid = e.before.arrivedValid) ∧
    ∀ earlier e between f later, es = earlier ++ e :: (between ++ f :: later) →
      e.Suppressed → f.Suppressed → ∃ u ∈ between, u.arrivesBroken := by
  intro h es
  refine ⟨fun host t => ?_, fun e mem silent => ?_, fun earlier e between f later split => ?_⟩
  · rw [outcome_reportLost, Bool.and_comm, arrivedValid_reached]
    rfl
  · rw [(mem_events mem).1, arrivedValid_next]
    exact if_neg silent
  · exact broken_between_suppressed split

example :
    let host : Host := ⟨none, (· == ⟨0⟩), fun _ => false⟩
    ((start ⟨0⟩ 30).value.events [(host, .update (some ⟨2⟩)), (host, .reportLost ⟨3⟩),
      (host, .reportLost ⟨3⟩)]).map Event.result = [.nothing, .flag false, .flag true] := by
  decide

end History

end ScreenReader
