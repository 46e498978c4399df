import ScreenReader.Focus.Scene

namespace ScreenReader

/-- What came of an inquiry, apart from its log. -/
def Inquiry.outcome {α : Type} (x : Inquiry α) : Except HostFault α :=
  x.run.value

namespace Inquiry

variable {α β : Type}

@[simp]
theorem outcome_pure (a : α) : outcome (pure a) = .ok a := rfl

@[simp]
theorem outcome_bind (x : Inquiry α) (f : α → Inquiry β) :
    outcome (x >>= f) = match outcome x with
      | .ok a => outcome (f a)
      | .error fault => .error fault := by
  simp only [outcome, ExceptT.run_bind, Logged.value_bind]
  cases x.run.value <;> rfl

theorem outcome_bind_eq_ok {x : Inquiry α} {f : α → Inquiry β} {b : β} :
    outcome (x >>= f) = .ok b ↔ ∃ a, outcome x = .ok a ∧ outcome (f a) = .ok b := by
  rw [outcome_bind]
  cases outcome x with
  | error fault => simp
  | ok a => simp

end Inquiry

namespace Host

/-- A result for which the host is asked about some targets in turn. -/
def grant {α : Type} (host : Host) (asked : List Target) (a : α) : Except HostFault α :=
  match asked.find? host.faulty with
  | some t => .error ⟨t⟩
  | none => .ok a

variable {α β : Type}

theorem grant_eq_ok {host : Host} {asked : List Target} {a b : α}
    (h : host.grant asked a = .ok b) : b = a := by
  unfold grant at h
  split at h
  next => cases h
  next => exact (Except.ok.inj h).symm

theorem map_grant (host : Host) (asked : List Target) (f : α → β) (a : α) :
    (host.grant asked a).map f = host.grant asked (f a) := by
  unfold grant
  cases asked.find? host.faulty <;> rfl

@[simp]
theorem grant_nil (host : Host) (a : α) : host.grant [] a = .ok a := rfl

theorem grant_twice (host : Host) (t : Target) (a : α) :
    host.grant [t, t] a = host.grant [t] a := by
  unfold grant
  cases faulty : host.faulty t <;> simp [faulty]

theorem outcome_ask (host : Host) (t : Target) :
    (host.ask t).outcome = host.grant [t] (host.valid t) := by
  unfold ask grant
  cases faulty : host.faulty t with
  | true =>
    simp only [faulty, if_true, List.find?_cons_of_pos]
    rfl
  | false => simp [faulty]

theorem outcome_bind_grant {host : Host} {asked more : List Target} {a : α} {b : β}
    {x : Inquiry α} {f : α → Inquiry β} (first : x.outcome = host.grant asked a)
    (second : (f a).outcome = host.grant more b) :
    (x >>= f).outcome = host.grant (asked ++ more) b := by
  rw [Inquiry.outcome_bind, first]
  unfold grant at second ⊢
  rw [List.find?_append]
  cases asked.find? host.faulty with
  | none => exact second
  | some t => rfl

theorem outcome_bind_ok {host : Host} {asked : List Target} {a : α} {b : β}
    {x : Inquiry α} {f : α → Inquiry β} (first : x.outcome = host.grant asked a)
    (second : (f a).outcome = .ok b) :
    (x >>= f).outcome = host.grant asked b := by
  have both := outcome_bind_grant first (second.trans (host.grant_nil b).symm)
  rwa [List.append_nil] at both

end Host

/-- What can be asked of a history. -/
inductive Call where
  | update (arrival : Option Target)
  | reset
  | clean
  | reportLost (t : Target)
  | recover (accept : Option (Target → Bool))

namespace History

def perform (h : History) (host : Host) : Call → Inquiry (History × FocusResult)
  | .update arrival => do
    pure (← h.update host arrival, .nothing)
  | .reset => do
    pure (← h.reset, .nothing)
  | .clean => do
    let (h, removed) ← h.clean host
    pure (h, .flag removed)
  | .reportLost t => do
    let (h, lost) ← h.reportLost host t
    pure (h, .flag lost)
  | .recover accept => do
    let (h, r) ← h.recover host accept
    pure (h, .recovery r)

/-- The targets that a call asks the host about, in turn. -/
def consulted (h : History) (host : Host) : Call → List Target
  | .update arrival => arrival.toList
  | .reset => []
  | .clean => h.entries
  | .reportLost t => h.entries ++ if h.arrivedValid then [t] else []
  | .recover _ => (host.active.filter (· ≠ h.seed)).toList

def arrive (h : History) (host : Host) (arrival : Option Target) : History :=
  { (arrival.map h.push).getD h with arrivedValid := arrival.any host.valid }

def keep (h : History) (host : Host) : History :=
  { h with entries := h.entries.filter host.valid }

/-- The history behind the arrival of the active target, if that one is valid and not the seed. -/
def withActive (h : History) (host : Host) : History :=
  match host.active.filter (fun t => t ≠ h.seed && host.valid t) with
  | some t => h.arrive host (some t)
  | none => h

/-- The history behind a call that is not broken off. -/
def next (h : History) (host : Host) : Call → History
  | .update arrival => h.arrive host arrival
  | .reset => { h with entries := [h.seed], arrivedValid := true }
  | .clean => h.keep host
  | .reportLost _ => { h.keep host with arrivedValid := true }
  | .recover accept => (accept.map (h.withActive host).dropRejected).getD (h.withActive host)

def answer (h : History) (host : Host) : Call → FocusResult
  | .update _ => .nothing
  | .reset => .nothing
  | .clean => .flag (!h.entries.all host.valid)
  | .reportLost t => .flag (h.arrivedValid && !host.valid t)
  | .recover accept => .recovery (h.next host (.recover accept)).recovery

theorem outcome_update (h : History) (host : Host) (arrival : Option Target) :
    (h.update host arrival).outcome = host.grant arrival.toList (h.arrive host arrival) := by
  cases arrival with
  | none => rfl
  | some t => exact Host.outcome_bind_grant (host.outcome_ask t) rfl

theorem outcome_keepValid (host : Host) (ts : List Target) :
    (keepValid host ts).outcome = host.grant ts (ts.filter host.valid) := by
  induction ts with
  | nil => rfl
  | cons t ts ih =>
    refine Host.outcome_bind_grant (host.outcome_ask t) (Host.outcome_bind_ok ih ?_)
    rw [List.filter_cons]
    rfl

theorem outcome_clean (h : History) (host : Host) :
    (h.clean host).outcome =
      host.grant h.entries (h.keep host, !h.entries.all host.valid) := by
  have removed : decide (h.entries.length - (h.entries.filter host.valid).length > 0) =
      !h.entries.all host.valid := by
    have := List.length_filter_lt_length_iff_exists (p := host.valid) (l := h.entries)
    grind
  refine Host.outcome_bind_ok (outcome_keepValid host h.entries) ?_
  rw [← removed]
  simp only []
  split <;> rfl

theorem outcome_reportLost (h : History) (host : Host) (t : Target) :
    (h.reportLost host t).outcome =
      host.grant (h.consulted host (.reportLost t))
        (h.next host (.reportLost t), h.arrivedValid && !host.valid t) := by
  refine Host.outcome_bind_grant (h.outcome_clean host) ?_
  by_cases flag : h.arrivedValid
  · simp only [next, keep, flag, if_true, Bool.true_and]
    exact Host.outcome_bind_ok (host.outcome_ask t) rfl
  · simp only [next, keep, flag, Bool.false_and]
    rfl

theorem outcome_recordActive (h : History) (host : Host) :
    (h.recordActive host).outcome =
      host.grant (h.consulted host (.recover none)) (h.withActive host) := by
  unfold recordActive consulted withActive
  cases host.active with
  | none => rfl
  | some t =>
    by_cases seed : t = h.seed
    · simp [seed, Option.filter_some]
    · simp only [seed, Option.filter_some, if_false, if_true, ne_eq, not_false_eq_true, decide_true,
        Bool.true_and, Option.toList_some]
      cases valid : host.valid t with
      | true =>
        rw [← host.grant_twice]
        refine Host.outcome_bind_grant (host.outcome_ask t) ?_
        rw [valid]
        exact h.outcome_update host (some t)
      | false =>
        refine Host.outcome_bind_ok (host.outcome_ask t) ?_
        rw [valid]
        rfl

theorem outcome_recover (h : History) (host : Host) (accept : Option (Target → Bool)) :
    (h.recover host accept).outcome =
      host.grant (h.consulted host (.recover accept))
        (h.next host (.recover accept), (h.next host (.recover accept)).recovery) :=
  Host.outcome_bind_ok (h.outcome_recordActive host) rfl

theorem outcome_perform (h : History) (host : Host) (call : Call) :
    (h.perform host call).outcome =
      host.grant (h.consulted host call) (h.next host call, h.answer host call) := by
  cases call with
  | update arrival => exact Host.outcome_bind_ok (h.outcome_update host arrival) rfl
  | reset => rfl
  | clean => exact Host.outcome_bind_ok (h.outcome_clean host) rfl
  | reportLost t => exact Host.outcome_bind_ok (h.outcome_reportLost host t) rfl
  | recover accept => exact Host.outcome_bind_ok (h.outcome_recover host accept) rfl

end History

/-- A call that was not broken off. -/
structure Event where
  before : History
  host : Host
  call : Call
  after : History
  result : FocusResult

namespace History

/-- Makes the calls one after the other, up to the first that is broken off. Each call may find
another host, in which any targets are valid and active. -/
def events (h : History) : List (Host × Call) → List Event
  | [] => []
  | (host, call) :: calls =>
    match (h.perform host call).outcome with
    | .error _ => []
    | .ok (after, result) => ⟨h, host, call, after, result⟩ :: after.events calls

theorem events_cons (h : History) (host : Host) (call : Call) (calls : List (Host × Call)) :
    h.events ((host, call) :: calls) = [] ∨
      h.events ((host, call) :: calls) =
        ⟨h, host, call, h.next host call, h.answer host call⟩ :: (h.next host call).events calls := by
  rw [events]
  split
  next => exact .inl rfl
  next after result ok =>
    rw [outcome_perform] at ok
    cases Host.grant_eq_ok ok
    exact .inr rfl

theorem mem_events {h : History} {calls : List (Host × Call)} {e : Event}
    (mem : e ∈ h.events calls) :
    e.after = e.before.next e.host e.call ∧ e.result = e.before.answer e.host e.call := by
  induction calls generalizing h with
  | nil => simp [events] at mem
  | cons first calls ih =>
    rcases h.events_cons first.1 first.2 calls with broken | done
    · simp [broken] at mem
    · rw [done] at mem
      rcases List.mem_cons.mp mem with rfl | mem
      · exact ⟨rfl, rfl⟩
      · exact ih mem

theorem recovery_of_answer {h : History} {host : Host} {call : Call} {r : Recovery}
    (told : h.answer host call = .recovery r) :
    (∃ accept, call = .recover accept) ∧ r = (h.next host call).recovery := by
  cases call with
  | recover accept => exact ⟨⟨accept, rfl⟩, (FocusResult.recovery.inj told).symm⟩
  | _ => cases told

theorem take_events (n : Nat) (h : History) (calls : List (Host × Call)) :
    (h.events calls).take n = h.events (calls.take n) := by
  induction n generalizing h calls with
  | zero => rfl
  | succ n ih =>
    cases calls with
    | nil => rfl
    | cons first calls =>
      simp only [List.take_succ_cons, events]
      split
      next => rfl
      next after result _ => rw [List.take_succ_cons, ih]

/-- The history behind the calls, up to the first that is broken off. -/
def reached (h : History) : List (Host × Call) → History
  | [] => h
  | (host, call) :: calls =>
    match (h.perform host call).outcome with
    | .error _ => h
    | .ok (after, _) => after.reached calls

def event (h : History) (host : Host) (call : Call) : Event :=
  ⟨h, host, call, h.next host call, h.answer host call⟩

/-- What passes from call to call, for a history and the events before it, holds behind a run. -/
theorem run_induction {P : List Event → History → Prop}
    (step : ∀ es h host call, P es h → P (es ++ [h.event host call]) (h.next host call))
    (calls : List (Host × Call)) (es : List Event) {h : History} (first : P es h) :
    P (es ++ h.events calls) (h.reached calls) := by
  induction calls generalizing es h with
  | nil =>
    rw [events, List.append_nil]
    exact first
  | cons made calls ih =>
    obtain ⟨host, call⟩ := made
    cases done : (h.perform host call).outcome with
    | error fault =>
      simp only [events, reached, done, List.append_nil]
      exact first
    | ok told =>
      have ok := done
      rw [outcome_perform] at ok
      cases Host.grant_eq_ok ok
      have passed := ih (es ++ [h.event host call]) (step es h host call first)
      rw [List.append_assoc] at passed
      simp only [events, reached, done]
      exact passed

theorem before_of_events_eq {h : History} {calls : List (Host × Call)} {earlier later : List Event}
    {e : Event} (split : h.events calls = earlier ++ e :: later) :
    e.before = h.reached (calls.take earlier.length) := by
  induction earlier generalizing h calls with
  | nil =>
    cases calls with
    | nil => simp [events] at split
    | cons made calls =>
      rcases h.events_cons made.1 made.2 calls with broken | done
      · simp [broken] at split
      · rw [done] at split
        exact congrArg Event.before (List.cons.inj split).1.symm
  | cons u earlier ih =>
    cases calls with
    | nil => simp [events] at split
    | cons made calls =>
      obtain ⟨host, call⟩ := made
      cases done : (h.perform host call).outcome with
      | error fault => simp [events, done] at split
      | ok told =>
        simp only [events, done] at split
        rw [List.length_cons, List.take_succ_cons]
        simp only [reached, done]
        exact ih (List.cons.inj split).2

end History

end ScreenReader
