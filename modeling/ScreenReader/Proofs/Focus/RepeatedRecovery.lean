import Mathlib.Data.List.TakeWhile
import ScreenReader.Proofs.Focus.LiveRecovery

namespace ScreenReader.History

/-- Nothing is left to recover: the entry in front is accepted, and an active target that counts as an
arrival has arrived and stands in front, or comes to be rejected where there is room for it. -/
structure Settled (h : History) (host : Host) (accept : Option (Target → Bool)) : Prop where
  front : ∀ p ∈ accept, ∀ t ∈ h.entries.head?, p t
  active : ∀ t ∈ host.recordable h.seed, h.arrivedValid ∧
    (h.entries.head? = some t ∨ (∃ p ∈ accept, ¬p t) ∧ h.entries.length < h.limit)

variable {h : History} {host : Host} {accept : Option (Target → Bool)}
variable {seed : Target} {limit : Nat} {log : List Target}

theorem withActive_of_recordable {t : Target} (recorded : host.recordable h.seed = some t) :
    h.withActive host = { h.push t with arrivedValid := true } := by
  have valid := (Host.recordable_eq_some_iff.mp recorded).2.2
  rw [withActive_of_some recorded]
  simp [arrive, valid]

theorem length_dropWhile_lt {p : Target → Bool} {t : Target} {ts : List Target}
    (head : ts.head? = some t) (dropped : p t) : (ts.dropWhile p).length < ts.length := by
  obtain ⟨rest, rfl⟩ := List.head?_eq_some_iff.mp head
  rw [List.dropWhile_cons_of_pos dropped, List.length_cons]
  exact Nat.lt_succ_of_le (List.length_dropWhile_le p rest)

theorem dropRejected_of_front {p : Target → Bool} (front : ∀ t ∈ h.entries.head?, p t) :
    h.dropRejected p = h := by
  have kept : h.entries.dropWhile (fun t => !p t) = h.entries := by
    cases entries : h.entries with
    | nil => rfl
    | cons t rest =>
      have accepted : p t := front t (by rw [entries]; rfl)
      exact List.dropWhile_cons_of_neg (by simp [accepted])
  unfold dropRejected
  rw [kept]

theorem Follows.seed_next (follows : h.Follows seed limit log) (host : Host) (call : Call) :
    (h.next host call).seed = h.seed :=
  (follows.next host call).seed.trans follows.seed.symm

theorem Follows.settled_recover (follows : h.Follows seed limit log) (host : Host)
    (accept : Option (Target → Bool)) :
    (h.next host (.recover accept)).Settled host accept := by
  constructor
  · intro p given t head
    obtain rfl := Option.mem_def.mp given
    exact accepted_of_recover h host p head
  · intro t recorded
    rw [follows.seed_next host (.recover accept)] at recorded
    have arrived := withActive_of_recordable recorded
    have head : (h.withActive host).entries.head? = some t := by
      rw [arrived]
      exact head?_push follows.room t
    have flag : (h.withActive host).arrivedValid := by rw [arrived]
    have bounded := (follows.withActive host).bounded
    cases accept with
    | none => exact ⟨flag, .inl head⟩
    | some p =>
      refine ⟨flag, ?_⟩
      by_cases accepted : p t
      · have front : ∀ u ∈ (h.withActive host).entries.head?, p u := by
          intro u first
          obtain rfl := Option.some.inj (head.symm.trans first)
          exact accepted
        exact .inl ((congrArg (·.entries.head?) (dropRejected_of_front front)).trans head)
      · have shorter := length_dropWhile_lt (p := fun u => !p u) head (by simp [accepted])
        exact .inr ⟨⟨p, rfl, accepted⟩, Nat.lt_of_lt_of_le shorter bounded⟩

theorem Settled.next_of_withActive (settled : h.Settled host accept)
    (same : h.withActive host = h) : h.next host (.recover accept) = h := by
  cases accept with
  | none => exact same
  | some p =>
    show (h.withActive host).dropRejected p = h
    rw [same]
    exact dropRejected_of_front (settled.front p rfl)

theorem Settled.next (settled : h.Settled host accept) : h.next host (.recover accept) = h := by
  cases recorded : host.recordable h.seed with
  | none => exact settled.next_of_withActive (withActive_of_none recorded)
  | some t =>
    have arrived := withActive_of_recordable recorded
    obtain ⟨flag, there | ⟨⟨p, given, rejected⟩, room⟩⟩ := settled.active t recorded
    · refine settled.next_of_withActive ?_
      rw [arrived, push, if_pos there, ← flag]
    · obtain rfl := Option.mem_def.mp given
      have absent : h.entries.head? ≠ some t := fun there => rejected (settled.front p rfl t there)
      have entered : h.withActive host = { h with entries := t :: h.entries } := by
        rw [arrived, push_of_bounded (Nat.le_of_lt room) absent, List.take_of_length_le room, ← flag]
      have gone : (t :: h.entries).dropWhile (fun u => !p u) = h.entries.dropWhile fun u => !p u :=
        List.dropWhile_cons_of_pos (by simp [rejected])
      -- The target comes and goes, and what is left was left before.
      calc (h.withActive host).dropRejected p
        _ = { h with entries := (t :: h.entries).dropWhile fun u => !p u } := by
          rw [entered]
          rfl
        _ = h.dropRejected p := by
          rw [gone]
          rfl
        _ = h := dropRejected_of_front (settled.front p rfl)

theorem entries_recover (h : History) (host : Host) (accept : Option (Target → Bool)) :
    ∃ cut, (h.withActive host).entries = cut ++ (h.next host (.recover accept)).entries ∧
      ∀ t ∈ cut, ∃ p ∈ accept, ¬p t := by
  cases accept with
  | none => exact ⟨[], rfl, by simp⟩
  | some p =>
    refine ⟨(h.withActive host).entries.takeWhile fun t => !p t,
      List.takeWhile_append_dropWhile.symm, fun t mem => ⟨p, rfl, ?_⟩⟩
    simpa using List.mem_takeWhile_imp mem

/-- The same recovery, made twice with the same host, leads to the same place twice, and the second
leaves the history as it is. All that is lost are entries in front, and each of them was rejected. -/
theorem recover_twice_is_once (seed : Target) (limit : Nat) (calls : List (Host × Call))
    (host : Host) (accept : Option (Target → Bool)) :
    let h := (start seed limit).value.reached calls
    let after := h.next host (.recover accept)
    let asked := h.consulted host (.recover accept)
    (h.recover host accept).outcome = host.grant asked (after, after.recovery) ∧
    (after.recover host accept).outcome = host.grant asked (after, after.recovery) ∧
    (h.recordActive host).outcome = host.grant asked (h.withActive host) ∧
    ∃ cut, (h.withActive host).entries = cut ++ after.entries ∧ ∀ t ∈ cut, ∃ p ∈ accept, ¬p t := by
  intro h after asked
  have follows := follows_reached seed limit calls
  have settled : after.Settled host accept := follows.settled_recover host accept
  have same_seed : after.seed = h.seed := follows.seed_next host (.recover accept)
  have asked_again : after.consulted host (.recover accept) = asked := by
    unfold consulted
    rw [same_seed]
    rfl
  refine ⟨h.outcome_recover host accept, ?_, h.outcome_recordActive host,
    h.entries_recover host accept⟩
  rw [outcome_recover, settled.next, asked_again]

example :
    let host : Host := ⟨some ⟨5⟩, fun _ => true, fun _ => false⟩
    let once : History := ⟨⟨0⟩, 2, [⟨1⟩], true⟩
    (recover ⟨⟨0⟩, 2, [⟨1⟩, ⟨0⟩], true⟩ host (some (· != ⟨5⟩))).outcome =
        .ok (once, ⟨some ⟨1⟩, none⟩) ∧
      (once.recover host (some (· != ⟨5⟩))).outcome = .ok (once, ⟨some ⟨1⟩, none⟩) :=
  ⟨rfl, rfl⟩

end ScreenReader.History
