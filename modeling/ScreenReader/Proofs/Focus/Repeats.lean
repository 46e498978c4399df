import Mathlib.Data.List.Chain
import ScreenReader.Proofs.Focus.Calls

namespace ScreenReader

/-- Two entries of one valid target with nothing but entries that are not valid between them. -/
def Gap (valid : Target → Bool) (entries : List Target) : Prop :=
  ∃ front t between rest, entries = front ++ t :: (between ++ t :: rest) ∧ between ≠ [] ∧
    valid t ∧ ∀ u ∈ between, ¬valid u

def Call.cleans : Call → Bool
  | .clean => true
  | .reportLost _ => true
  | _ => false

def Event.ClosesGap (e : Event) : Prop :=
  e.call.cleans ∧ Gap e.host.valid e.before.entries

/-- No entry comes right after an entry of the same target. -/
def History.Unrepeated (h : History) : Prop :=
  h.entries.IsChain (· ≠ ·)

theorem filter_of_gap {valid : Target → Bool} {entries : List Target}
    (gap : Gap valid entries) : ¬(entries.filter valid).IsChain (· ≠ ·) := by
  obtain ⟨front, t, between, rest, rfl, _, hv, hb⟩ := gap
  intro chain
  have none_between : between.filter valid = [] := List.filter_eq_nil_iff.mpr hb
  rw [List.filter_append, List.filter_cons_of_pos hv, List.filter_append, none_between,
    List.nil_append, List.filter_cons_of_pos hv] at chain
  exact (List.isChain_append_cons_cons.mp chain).2.1 rfl

theorem isChain_filter_iff {valid : Target → Bool} {entries : List Target}
    (chain : entries.IsChain (· ≠ ·)) :
    (entries.filter valid).IsChain (· ≠ ·) ↔ ¬Gap valid entries := by
  refine ⟨fun kept gap => filter_of_gap gap kept, fun closed => ?_⟩
  rw [List.isChain_iff_forall_rel_of_append_cons_cons]
  rintro t _ l₁ l₂ split rfl
  obtain ⟨front, tail, rfl, _, split⟩ := List.filter_eq_append_iff.mp split
  obtain ⟨before, tail, rfl, _, hv, split⟩ := List.filter_eq_cons_iff.mp split
  obtain ⟨between, rest, rfl, hb, _, _⟩ := List.filter_eq_cons_iff.mp split
  refine closed ⟨front ++ before, t, between, rest, by simp, ?_, hv, hb⟩
  rintro rfl
  rw [← List.append_assoc] at chain
  exact (List.isChain_append_cons_cons.mp chain).2.1 rfl

namespace History

theorem Unrepeated.push {h : History} (unrepeated : h.Unrepeated) (t : Target) :
    (h.push t).Unrepeated := by
  unfold History.push
  split
  next => exact unrepeated
  next head =>
    have chain : (t :: h.entries).IsChain (· ≠ ·) := by
      refine unrepeated.cons fun u first same => head ?_
      rw [same]
      exact first
    dsimp only [History.Unrepeated]
    split
    next => exact chain.dropLast
    next => exact chain

theorem Unrepeated.arrive {h : History} (unrepeated : h.Unrepeated) (host : Host)
    (arrival : Option Target) : (h.arrive host arrival).Unrepeated := by
  cases arrival with
  | none => exact unrepeated
  | some t => exact unrepeated.push t

theorem Unrepeated.withActive {h : History} (unrepeated : h.Unrepeated) (host : Host) :
    (h.withActive host).Unrepeated := by
  unfold History.withActive
  split
  next t _ => exact unrepeated.arrive host (some t)
  next => exact unrepeated

theorem Unrepeated.dropRejected {h : History} (unrepeated : h.Unrepeated)
    (accept : Target → Bool) : (h.dropRejected accept).Unrepeated :=
  List.IsChain.suffix unrepeated (List.dropWhile_suffix _)

theorem unrepeated_start (seed : Target) (limit : Nat) :
    (start seed limit).value.Unrepeated :=
  List.isChain_singleton seed

theorem unrepeated_next_iff {h : History} (unrepeated : h.Unrepeated) (host : Host)
    (call : Call) :
    (h.next host call).Unrepeated ↔ ¬(call.cleans ∧ Gap host.valid h.entries) := by
  have always {P : Prop} (holds : (h.next host call).Unrepeated) (never : call.cleans = false) :
      (h.next host call).Unrepeated ↔ ¬(call.cleans ∧ P) := by
    simp [holds, never]
  cases call with
  | update arrival => exact always (unrepeated.arrive host arrival) rfl
  | reset => exact always (List.isChain_singleton h.seed) rfl
  | clean =>
    simp only [Call.cleans, true_and]
    exact isChain_filter_iff unrepeated
  | reportLost t =>
    simp only [Call.cleans, true_and]
    exact isChain_filter_iff unrepeated
  | recover accept =>
    refine always ?_ rfl
    have recorded := unrepeated.withActive host
    cases accept with
    | none => exact recorded
    | some accept => exact recorded.dropRejected accept

theorem unrepeated_events_iff {h : History} (unrepeated : h.Unrepeated)
    (calls : List (Host × Call)) :
    (∀ e ∈ h.events calls, e.after.Unrepeated) ↔ ∀ e ∈ h.events calls, ¬e.ClosesGap := by
  induction calls generalizing h with
  | nil => simp [events]
  | cons first calls ih =>
    obtain ⟨host, call⟩ := first
    rcases h.events_cons host call calls with broken | done
    · simp [broken]
    · have step := unrepeated_next_iff unrepeated host call
      rw [done, List.forall_mem_cons, List.forall_mem_cons]
      constructor
      · rintro ⟨after, rest⟩
        exact ⟨step.mp after, (ih after).mp rest⟩
      · rintro ⟨closed, rest⟩
        have after := step.mpr closed
        exact ⟨after, (ih after).mpr rest⟩

theorem Unrepeated.recovery_ne {h : History} (unrepeated : h.Unrepeated) (t : Target) :
    h.recovery ≠ ⟨some t, some t⟩ := by
  intro same
  obtain ⟨first, second⟩ := Recovery.mk.inj same
  obtain ⟨rest, split⟩ := List.head?_eq_some_iff.mp first
  unfold Unrepeated at unrepeated
  rw [split] at unrepeated second
  exact unrepeated.rel_head? (by simpa [List.head?_eq_getElem?] using second) rfl

theorem gap_closed_before_recovery {h : History} (unrepeated : h.Unrepeated)
    {calls : List (Host × Call)} {earlier later : List Event} {e : Event} {t : Target}
    (split : h.events calls = earlier ++ e :: later)
    (same : e.result = .recovery ⟨some t, some t⟩) : ∃ u ∈ earlier, u.ClosesGap := by
  have cut : h.events (calls.take (earlier.length + 1)) = earlier ++ [e] := by
    rw [← take_events, split, List.take_length_add_append]
    rfl
  have mem : e ∈ h.events calls := by simp [split]
  obtain ⟨after, told⟩ := mem_events mem
  obtain ⟨⟨accept, recovering⟩, found⟩ := recovery_of_answer (told.symm.trans same)
  by_contra unclosed
  push Not at unclosed
  have closes : ∀ u ∈ earlier ++ [e], ¬u.ClosesGap := by
    intro u hu
    rcases List.mem_append.mp hu with hu | hu
    · exact unclosed u hu
    · rw [List.mem_singleton.mp hu, Event.ClosesGap, recovering]
      simp [Call.cleans]
  have final := (unrepeated_events_iff unrepeated _).mpr (cut ▸ closes) e (by simp [cut])
  rw [after] at final
  exact final.recovery_ne t found.symm

theorem repeat_iff_gap_closed (seed : Target) (limit : Nat) (calls : List (Host × Call)) :
    ((∀ e ∈ (start seed limit).value.events calls, e.after.Unrepeated) ↔
      ∀ e ∈ (start seed limit).value.events calls, ¬e.ClosesGap) ∧
    ∀ (earlier later : List Event) (e : Event) (t : Target),
      (start seed limit).value.events calls = earlier ++ e :: later →
      e.result = .recovery ⟨some t, some t⟩ → ∃ u ∈ earlier, u.ClosesGap :=
  ⟨unrepeated_events_iff (unrepeated_start seed limit) calls,
    fun _ _ _ _ split same => gap_closed_before_recovery (unrepeated_start seed limit) split same⟩

theorem clean_brings_repeats_together :
    ∃ e ∈ (start ⟨0⟩ 30).value.events
        [(⟨none, fun _ => true, fun _ => false⟩, .update (some ⟨1⟩)),
          (⟨none, fun _ => true, fun _ => false⟩, .update (some ⟨0⟩)),
          (⟨none, fun t => t ≠ ⟨1⟩, fun _ => false⟩, .clean),
          (⟨none, fun t => t ≠ ⟨1⟩, fun _ => false⟩, .recover none)],
      e.result = .recovery ⟨some ⟨0⟩, some ⟨0⟩⟩ ∧ ¬e.after.Unrepeated := by
  refine ⟨_, .tail _ (.tail _ (.tail _ (.head _))), rfl, ?_⟩
  intro chain
  exact (List.isChain_cons_cons.mp chain).1 rfl

end History

end ScreenReader
