import Mathlib.Data.List.Destutter
import ScreenReader.Proofs.Focus.Arrivals

namespace ScreenReader

/-- The targets of a log, the newest first, with one entry for each run of the same target. -/
def collapsed (log : List Target) : List Target :=
  log.reverse.destutter (· ≠ ·)

theorem destutter_cons (t : Target) (ts : List Target) :
    (t :: ts).destutter (· ≠ ·) =
      if ts.head? = some t then ts.destutter (· ≠ ·) else t :: ts.destutter (· ≠ ·) := by
  cases ts with
  | nil => rfl
  | cons u ts =>
    rw [List.destutter_cons_cons, List.head?_cons, List.destutter_cons']
    by_cases same : u = t
    · rw [same, if_neg (not_not.mpr rfl), if_pos rfl]
    · rw [if_pos (Ne.symm same), if_neg (same ∘ Option.some.inj)]

theorem head?_destutter (ts : List Target) : (ts.destutter (· ≠ ·)).head? = ts.head? := by
  induction ts with
  | nil => rfl
  | cons t ts ih =>
    rw [destutter_cons]
    split
    next same => rw [ih, same, List.head?_cons]
    next => rfl

theorem collapsed_append_singleton (log : List Target) (t : Target) :
    collapsed (log ++ [t]) =
      if log.getLast? = some t then collapsed log else t :: collapsed log := by
  unfold collapsed
  rw [List.reverse_concat, destutter_cons, List.head?_reverse]

theorem head?_collapsed (log : List Target) : (collapsed log).head? = log.getLast? := by
  unfold collapsed
  rw [head?_destutter, List.head?_reverse]

/-- An arrival, and the host that it finds. -/
abbrev Arrival := Host × Option Target

namespace Arrival

def valid (a : Arrival) : Bool :=
  a.2.any a.1.valid

/-- The target of the arrival, if its host breaks off when it is asked about it. -/
def fault? (a : Arrival) : Option Target :=
  a.2.filter a.1.faulty

end Arrival

namespace History

/-- Makes the arrivals one after the other, up to the first that is broken off. -/
def updateAll (h : History) (as : List Arrival) : Inquiry History :=
  as.foldlM (fun h (host, arrival) => h.update host arrival) h

def arriveAll (h : History) (as : List Arrival) : History :=
  as.foldl (fun h a => h.arrive a.1 a.2) h

theorem outcome_update_arrival (h : History) (a : Arrival) :
    (h.update a.1 a.2).outcome = match a.fault? with
      | some t => .error ⟨t⟩
      | none => .ok (h.arrive a.1 a.2) := by
  obtain ⟨host, arrival⟩ := a
  rw [outcome_update]
  cases arrival with
  | none => rfl
  | some t =>
    cases faulty : host.faulty t <;> simp [Host.grant, Arrival.fault?, Option.filter_some, faulty]

theorem outcome_updateAll (h : History) (as : List Arrival) :
    (h.updateAll as).outcome = match as.findSome? Arrival.fault? with
      | some t => .error ⟨t⟩
      | none => .ok (h.arriveAll as) := by
  induction as generalizing h with
  | nil => rfl
  | cons a as ih =>
    have first := h.outcome_update_arrival a
    have split : (h.updateAll (a :: as)).outcome =
        (h.update a.1 a.2 >>= fun h => h.updateAll as).outcome := rfl
    rw [split, Inquiry.outcome_bind, first, List.findSome?_cons]
    cases a.fault? with
    | some t => rfl
    | none => exact ih (h.arrive a.1 a.2)

/-- A history that holds the newest targets of a collapsed log, as many as it has room for. -/
structure Holds (h : History) (seed : Target) (limit : Nat) (log : List Target) : Prop where
  seed : h.seed = seed
  limit : h.limit = max limit 1
  entries : h.entries = (collapsed log).take h.limit

variable {h : History} {seed : Target} {limit : Nat} {log : List Target}

theorem Holds.room (holds : h.Holds seed limit log) : 0 < h.limit := by
  have := holds.limit
  omega

theorem Holds.bounded (holds : h.Holds seed limit log) : h.entries.length ≤ h.limit := by
  rw [holds.entries]
  exact List.length_take_le ..

theorem Holds.head? (holds : h.Holds seed limit log) : h.entries.head? = log.getLast? := by
  rw [holds.entries, List.head?_take, if_neg (Nat.ne_of_gt holds.room), head?_collapsed]

/-- To cut the history short early changes nothing later: the head that a target is compared with is
never cut, and what is cut would never come back within the bound. -/
theorem Holds.push (holds : h.Holds seed limit log) (t : Target) :
    (h.push t).Holds seed limit (log ++ [t]) := by
  have room := holds.room
  by_cases same : log.getLast? = some t
  · rw [History.push, holds.head?, if_pos same]
    refine ⟨holds.seed, holds.limit, ?_⟩
    rw [collapsed_append_singleton, if_pos same]
    exact holds.entries
  · have other : h.entries.head? ≠ some t := holds.head? ▸ same
    rw [push_of_bounded holds.bounded other]
    refine ⟨holds.seed, holds.limit, ?_⟩
    show (t :: h.entries).take h.limit = _
    obtain ⟨n, bound⟩ := Nat.exists_eq_succ_of_ne_zero (Nat.ne_of_gt room)
    have shorter : min n (n + 1) = n := by omega
    rw [collapsed_append_singleton, if_neg same, holds.entries, bound, List.take_succ_cons,
      List.take_succ_cons, List.take_take, shorter]

theorem Holds.arrive (holds : h.Holds seed limit log) (a : Arrival) :
    (h.arrive a.1 a.2).Holds seed limit (log ++ a.2.toList) := by
  obtain ⟨host, arrival⟩ := a
  cases arrival with
  | none =>
    rw [Option.toList_none, List.append_nil]
    exact ⟨holds.seed, holds.limit, holds.entries⟩
  | some t =>
    have pushed := holds.push t
    exact ⟨pushed.seed, pushed.limit, pushed.entries⟩

theorem Holds.arriveAll (holds : h.Holds seed limit log) (as : List Arrival) :
    (h.arriveAll as).Holds seed limit (log ++ as.filterMap Prod.snd) := by
  induction as generalizing h log with
  | nil =>
    rw [List.filterMap_nil, List.append_nil]
    exact holds
  | cons a as ih =>
    have rest := ih (holds.arrive a)
    have joined : a.2.toList ++ as.filterMap Prod.snd = (a :: as).filterMap Prod.snd := by
      rw [List.filterMap_cons]
      cases a.2 <;> rfl
    rw [List.append_assoc, joined] at rest
    exact rest

theorem arrivedValid_arriveAll (h : History) (as : List Arrival) :
    (h.arriveAll as).arrivedValid = (as.getLast?.map Arrival.valid).getD h.arrivedValid := by
  induction as generalizing h with
  | nil => rfl
  | cons a as ih =>
    have rest := ih (h.arrive a.1 a.2)
    rw [List.getLast?_cons]
    cases last : as.getLast? with
    | none =>
      rw [last] at rest
      exact rest
    | some b =>
      rw [last] at rest
      exact rest

theorem outcome_updateAll_of_fresh (holds : h.Holds seed limit [seed])
    (fresh : h.arrivedValid = true) (as : List Arrival) :
    (h.updateAll as).outcome = match as.findSome? Arrival.fault? with
      | some t => .error ⟨t⟩
      | none => .ok
        { seed
          limit := max limit 1
          entries := (collapsed (seed :: as.filterMap Prod.snd)).take (max limit 1)
          arrivedValid := (as.getLast?.map Arrival.valid).getD true } := by
  have last := holds.arriveAll as
  have entries := last.entries
  have flag := h.arrivedValid_arriveAll as
  rw [last.limit] at entries
  rw [fresh] at flag
  have whole : h.arriveAll as = ⟨seed, max limit 1, _, _⟩ :=
    History.ext last.seed last.limit entries flag
  rw [outcome_updateAll, whole]
  rfl

theorem holds_start (seed : Target) (limit : Nat) :
    (start seed limit).value.Holds seed limit [seed] := by
  refine ⟨rfl, rfl, ?_⟩
  have room : 0 < max limit 1 := by omega
  obtain ⟨n, bound⟩ := Nat.exists_eq_succ_of_ne_zero (Nat.ne_of_gt room)
  show [seed] = [seed].take (max limit 1)
  rw [bound, List.take_succ_cons, List.take_nil]

theorem Follows.holds_reset (follows : h.Follows seed limit log) :
    h.reset.value.Holds seed limit [seed] := by
  have begun := holds_start seed limit
  refine ⟨follows.seed, follows.limit, ?_⟩
  show [h.seed] = [seed].take h.limit
  rw [follows.seed, follows.limit]
  exact begun.entries

/-- Arrivals from the start or from a reset on: unless a host breaks one off, the history holds the
newest targets of the whole log without its repeats, and tells whether the last arrival was valid. -/
theorem updates_hold_newest_of_log (seed : Target) (limit : Nat) (calls : List (Host × Call))
    (as : List Arrival) :
    let log := seed :: as.filterMap Prod.snd
    let held : History :=
      { seed
        limit := max limit 1
        entries := (log.reverse.destutter (· ≠ ·)).take (max limit 1)
        arrivedValid := (as.getLast?.map Arrival.valid).getD true }
    let told : Except HostFault History := match as.findSome? Arrival.fault? with
      | some t => .error ⟨t⟩
      | none => .ok held
    ((start seed limit).value.updateAll as).outcome = told ∧
    (((start seed limit).value.reached calls).reset.value.updateAll as).outcome = told :=
  ⟨outcome_updateAll_of_fresh (holds_start seed limit) rfl as,
    outcome_updateAll_of_fresh (follows_reached seed limit calls).holds_reset rfl as⟩

example :
    let host : Host := ⟨none, (· == ⟨1⟩), fun _ => false⟩
    (((start ⟨0⟩ 2).value.updateAll [(host, some ⟨1⟩), (host, some ⟨1⟩), (host, none),
      (host, some ⟨2⟩), (host, some ⟨1⟩)]).outcome = .ok ⟨⟨0⟩, 2, [⟨1⟩, ⟨2⟩], true⟩) := by
  decide

end History

end ScreenReader
