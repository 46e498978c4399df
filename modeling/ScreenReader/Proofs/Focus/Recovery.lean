import Mathlib.Data.List.TakeWhile
import ScreenReader.Proofs.Focus.Arrivals

namespace ScreenReader.History

/-- What a recovery has to choose from: the entries, and in front of them the active target, if it
is valid, not the seed and not there already. -/
def candidates (h : History) (host : Host) : List Target :=
  ((host.recordable h.seed).filter fun t => h.entries.head? ≠ some t).toList ++ h.entries

theorem length_candidates_le (h : History) (host : Host) :
    (h.candidates host).length ≤ h.entries.length + 1 := by
  have front := Option.length_toList_le
    (o := (host.recordable h.seed).filter fun t => h.entries.head? ≠ some t)
  rw [candidates, List.length_append]
  omega

theorem entries_push {h : History} (bounded : h.entries.length ≤ h.limit) (t : Target) :
    (h.push t).entries =
      (((some t).filter fun t => h.entries.head? ≠ some t).toList ++ h.entries).take h.limit := by
  by_cases head : h.entries.head? = some t
  · rw [push, if_pos head, Option.filter_some_neg (by simp [head]), Option.toList_none, List.nil_append,
      List.take_of_length_le bounded]
  · rw [push_of_bounded bounded head, Option.filter_some_pos (by simp [head]), Option.toList_some,
      List.singleton_append]

theorem entries_withActive {h : History} (bounded : h.entries.length ≤ h.limit) (host : Host) :
    (h.withActive host).entries = (h.candidates host).take h.limit := by
  unfold candidates
  cases recorded : host.recordable h.seed with
  | none =>
    -- Without an arrival the entries are within the bound already.
    rw [withActive_of_none recorded, Option.filter_none, Option.toList_none, List.nil_append,
      List.take_of_length_le bounded]
  | some t =>
    rw [withActive_of_some recorded]
    exact entries_push bounded t

theorem current_recover {h : History} (bounded : h.entries.length ≤ h.limit) (host : Host)
    (accept : Target → Bool) :
    (h.next host (.recover (some accept))).recovery.current =
      ((h.candidates host).take h.limit).find? accept := by
  rw [← entries_withActive bounded, List.find?_eq_head?_dropWhile_not]
  rfl

/-- A recovery leads to the newest candidate that is accepted, out of as many as the history has room
for, which are all but the oldest at least. -/
theorem recover_finds_newest_accepted (seed : Target) (limit : Nat) (calls : List (Host × Call))
    (host : Host) (accept : Target → Bool) :
    let h := (start seed limit).value.reached calls
    let left := (h.candidates host).take h.limit
    (h.recover host (some accept)).outcome.map (fun told => told.2.current) =
      host.grant (h.consulted host (.recover (some accept))) (left.find? accept) ∧
    (∀ after r, (h.recover host (some accept)).outcome = .ok (after, r) →
      (r.current = none ↔ ∀ t ∈ left, ¬accept t)) ∧
    (h.candidates host).length ≤ h.limit + 1 := by
  intro h left
  have bounded : h.entries.length ≤ h.limit := (follows_reached seed limit calls).bounded
  have current := current_recover bounded host accept
  refine ⟨?_, fun after r told => ?_, ?_⟩
  · rw [outcome_recover, Host.map_grant, current]
  · rw [outcome_recover] at told
    cases Host.grant_eq_ok told
    rw [current]
    exact List.find?_eq_none
  · have longer := h.length_candidates_le host
    omega

/-- With room for one entry, the active target takes the place of the seed before it is rejected. -/
theorem full_history_loses_oldest_candidate :
    ¬∀ (seed : Target) (limit : Nat) (calls : List (Host × Call)) (host : Host)
        (accept : Target → Bool) (after : History) (r : Recovery),
      (((start seed limit).value.reached calls).recover host (some accept)).outcome =
          .ok (after, r) →
        r.current = (((start seed limit).value.reached calls).candidates host).find? accept := by
  intro finds_newest
  have found := finds_newest ⟨0⟩ 1 [] ⟨some ⟨1⟩, fun _ => true, fun _ => false⟩ (· == ⟨0⟩)
    ⟨⟨0⟩, 1, [], true⟩ ⟨none, none⟩ rfl
  exact absurd found (by decide)

end ScreenReader.History
