import ScreenReader.Proofs.Focus.Calls

namespace ScreenReader

/-- The active target, if it is valid and not the seed. -/
def Host.recordable (host : Host) (seed : Target) : Option Target :=
  host.active.filter fun t => t ≠ seed && host.valid t

theorem Host.recordable_eq_some_iff {host : Host} {seed t : Target} :
    host.recordable seed = some t ↔ host.active = some t ∧ t ≠ seed ∧ host.valid t := by
  simp [recordable, Option.filter_eq_some_iff]

/-- The log of arrivals behind a call. A reset begins a new one, and nothing else shortens it. -/
def Call.extendLog (seed : Target) (host : Host) (log : List Target) : Call → List Target
  | .update arrival => log ++ arrival.toList
  | .reset => [seed]
  | .clean => log
  | .reportLost _ => log
  | .recover _ => log ++ (host.recordable seed).toList

/-- All arrivals since the start or the last reset, the oldest first. -/
def arrivals (seed : Target) (es : List Event) : List Target :=
  es.foldl (fun log e => e.call.extendLog seed e.host log) [seed]

theorem arrivals_append_singleton (seed : Target) (es : List Event) (e : Event) :
    arrivals seed (es ++ [e]) = e.call.extendLog seed e.host (arrivals seed es) :=
  List.foldl_append

namespace History

theorem withActive_of_some {h : History} {host : Host} {t : Target}
    (recorded : host.recordable h.seed = some t) :
    h.withActive host = h.arrive host (some t) := by
  unfold withActive
  rw [← Host.recordable, recorded]

theorem withActive_of_none {h : History} {host : Host} (nothing : host.recordable h.seed = none) :
    h.withActive host = h := by
  unfold withActive
  rw [← Host.recordable, nothing]

/-- A history that is as long as it may be at most, and holds arrivals of the log in their order. -/
structure Follows (h : History) (seed : Target) (limit : Nat) (log : List Target) : Prop where
  seed : h.seed = seed
  limit : h.limit = max limit 1
  bounded : h.entries.length ≤ h.limit
  ordered : h.entries.Sublist log.reverse

variable {h : History} {seed : Target} {limit : Nat} {log : List Target}

theorem follows_start (seed : Target) (limit : Nat) :
    (start seed limit).value.Follows seed limit [seed] := by
  refine ⟨rfl, rfl, ?_, List.Sublist.refl _⟩
  show 1 ≤ max limit 1
  omega

theorem Follows.room (follows : h.Follows seed limit log) : 0 < h.limit := by
  have := follows.limit
  omega

/-- Within the bound, to drop the oldest entry past the limit is to keep as many as it allows. -/
theorem push_of_bounded (bounded : h.entries.length ≤ h.limit) {t : Target}
    (absent : h.entries.head? ≠ some t) :
    h.push t = { h with entries := (t :: h.entries).take h.limit } := by
  have longer : (t :: h.entries).length = h.entries.length + 1 := rfl
  rw [push, if_neg absent]
  dsimp only
  split
  next past =>
    have full : h.limit = (t :: h.entries).length - 1 := by omega
    rw [List.dropLast_eq_take, ← full]
  next within => rw [List.take_of_length_le (Nat.le_of_not_lt within)]

theorem Follows.push (follows : h.Follows seed limit log) (t : Target) :
    (h.push t).Follows seed limit (log ++ [t]) := by
  have extended : (log ++ [t]).reverse = t :: log.reverse := List.reverse_concat ..
  by_cases there : h.entries.head? = some t
  · have ordered := follows.ordered.trans (List.sublist_cons_self t log.reverse)
    rw [History.push, if_pos there]
    exact ⟨follows.seed, follows.limit, follows.bounded, extended ▸ ordered⟩
  · have taken := List.take_sublist h.limit (t :: h.entries)
    have ordered := taken.trans (follows.ordered.cons_cons t)
    rw [push_of_bounded follows.bounded there]
    exact ⟨follows.seed, follows.limit, List.length_take_le .., extended ▸ ordered⟩

theorem Follows.arrive (follows : h.Follows seed limit log) (host : Host)
    (arrival : Option Target) :
    (h.arrive host arrival).Follows seed limit (log ++ arrival.toList) := by
  cases arrival with
  | none =>
    rw [Option.toList_none, List.append_nil]
    exact ⟨follows.seed, follows.limit, follows.bounded, follows.ordered⟩
  | some t =>
    have pushed := follows.push t
    exact ⟨pushed.seed, pushed.limit, pushed.bounded, pushed.ordered⟩

theorem Follows.withActive (follows : h.Follows seed limit log) (host : Host) :
    (h.withActive host).Follows seed limit (log ++ (host.recordable seed).toList) := by
  obtain rfl := follows.seed
  cases recorded : host.recordable h.seed with
  | none =>
    rw [withActive_of_none recorded, Option.toList_none, List.append_nil]
    exact follows
  | some t =>
    rw [withActive_of_some recorded]
    exact follows.arrive host (some t)

theorem Follows.shorten (follows : h.Follows seed limit log) {entries : List Target}
    (fewer : entries.Sublist h.entries) (flag : Bool) :
    History.Follows { h with entries, arrivedValid := flag } seed limit log :=
  ⟨follows.seed, follows.limit, Nat.le_trans fewer.length_le follows.bounded,
    fewer.trans follows.ordered⟩

theorem Follows.next (follows : h.Follows seed limit log) (host : Host) (call : Call) :
    (h.next host call).Follows seed limit (call.extendLog seed host log) := by
  cases call with
  | update arrival => exact follows.arrive host arrival
  | reset =>
    have begun : [h.seed].Sublist [seed].reverse := follows.seed ▸ List.Sublist.refl _
    exact ⟨follows.seed, follows.limit, follows.room, begun⟩
  | clean => exact follows.shorten List.filter_sublist h.arrivedValid
  | reportLost t => exact follows.shorten List.filter_sublist true
  | recover accept =>
    have recorded := follows.withActive host
    cases accept with
    | none => exact recorded
    | some accept => exact recorded.shorten (List.dropWhile_sublist _) _

theorem follows_reached (seed : Target) (limit : Nat) (calls : List (Host × Call)) :
    ((start seed limit).value.reached calls).Follows seed limit
      (arrivals seed ((start seed limit).value.events calls)) := by
  refine run_induction (P := fun es h => h.Follows seed limit (arrivals seed es)) ?_ calls []
    (follows_start seed limit)
  intro es h host call follows
  rw [arrivals_append_singleton]
  exact follows.next host call

/-- Behind every run, and so behind each call of a run, the history keeps its seed and its bound and
holds nothing but arrivals, the newest first. -/
theorem entries_sublist_arrivals (seed : Target) (limit : Nat) (calls : List (Host × Call)) :
    ((start seed limit).value.reached calls).limit = max limit 1 ∧
    ((start seed limit).value.reached calls).seed = seed ∧
    ((start seed limit).value.reached calls).entries.length ≤ max limit 1 ∧
    ((start seed limit).value.reached calls).entries.Sublist
      (arrivals seed ((start seed limit).value.events calls)).reverse := by
  have follows := follows_reached seed limit calls
  have bounded := follows.bounded
  rw [follows.limit] at bounded
  exact ⟨follows.limit, follows.seed, bounded, follows.ordered⟩

end History

end ScreenReader
