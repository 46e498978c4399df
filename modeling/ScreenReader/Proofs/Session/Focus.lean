import ScreenReader.Proofs.Focus.LiveRecovery
import ScreenReader.Session.Run

namespace ScreenReader.Session

/-- The sessions that start from a seed and go on in any way. Whenever the focus is concerned, any
targets may be valid and active. -/
inductive Reachable (seed : Target) : Session → Prop
  | built {tree : FileTree} {d : Draft} {s : Session} :
    (d.build tree seed).value = .ok s → Reachable seed s
  | focusChanged {s after : Session} {host : Host} {arrival : Option Target} :
    Reachable seed s → (s.focusChanged host arrival).outcome = .ok after → Reachable seed after
  | targetLost {s after : Session} {host : Host} {t : Target} {lost : Bool} :
    Reachable seed s → (s.targetLost host t).outcome = .ok (after, lost) → Reachable seed after
  | recover {s after : Session} {host : Host} {accept : Option (Target → Bool)} {r : Recovery} :
    Reachable seed s → (s.recover host accept).outcome = .ok (after, r) → Reachable seed after
  | step {s after : Session} {tree : FileTree} {world next : World} {step : SessionStep}
      {answer : SessionAnswer} :
    Reachable seed s → (s.step tree world step).outcome = .ok (next, after, answer) →
      Reachable seed after

theorem outcome_focusChanged (s : Session) (host : Host) (arrival : Option Target) :
    (s.focusChanged host arrival).outcome =
      host.grant arrival.toList { s with history := s.history.next host (.update arrival) } :=
  Host.outcome_bind_ok (s.history.outcome_update host arrival) rfl

theorem outcome_targetLost (s : Session) (host : Host) (t : Target) :
    (s.targetLost host t).outcome =
      host.grant (s.history.consulted host (.reportLost t))
        ({ s with history := s.history.next host (.reportLost t) },
          s.history.arrivedValid && !host.valid t) :=
  Host.outcome_bind_ok (s.history.outcome_reportLost host t) rfl

theorem outcome_recover (s : Session) (host : Host) (accept : Option (Target → Bool)) :
    (s.recover host accept).outcome =
      host.grant (s.history.consulted host (.recover accept))
        ({ s with history := s.history.next host (.recover accept) },
          (s.history.next host (.recover accept)).recovery) :=
  Host.outcome_bind_ok (s.history.outcome_recover host accept) rfl

theorem history_of_focusChanged {s after : Session} {host : Host} {arrival : Option Target}
    (done : (s.focusChanged host arrival).outcome = .ok after) :
    after.history = s.history.next host (.update arrival) := by
  rw [outcome_focusChanged] at done
  rw [Host.grant_eq_ok done]

theorem history_of_targetLost {s after : Session} {host : Host} {t : Target} {lost : Bool}
    (done : (s.targetLost host t).outcome = .ok (after, lost)) :
    after.history = s.history.next host (.reportLost t) := by
  rw [outcome_targetLost] at done
  rw [(Prod.mk.inj (Host.grant_eq_ok done)).1]

theorem history_of_recover {s after : Session} {host : Host} {accept : Option (Target → Bool)}
    {r : Recovery} (done : (s.recover host accept).outcome = .ok (after, r)) :
    after.history = s.history.next host (.recover accept) := by
  rw [outcome_recover] at done
  rw [(Prod.mk.inj (Host.grant_eq_ok done)).1]

theorem history_of_step {s after : Session} {tree : FileTree} {world next : World}
    {step : SessionStep} {answer : SessionAnswer}
    (done : (s.step tree world step).outcome = .ok (next, after, answer)) :
    after.history = s.history ∨ ∃ call, after.history = s.history.next world.host call := by
  cases step with
  | focusChanged arrival =>
    obtain ⟨_, changed, rest⟩ := Inquiry.outcome_bind_eq_ok.mp done
    cases rest
    exact .inr ⟨.update arrival, history_of_focusChanged changed⟩
  | targetLost t =>
    obtain ⟨_, told, rest⟩ := Inquiry.outcome_bind_eq_ok.mp done
    cases rest
    exact .inr ⟨.reportLost t, history_of_targetLost told⟩
  | recover accept =>
    obtain ⟨_, told, rest⟩ := Inquiry.outcome_bind_eq_ok.mp done
    cases rest
    exact .inr ⟨.recover accept, history_of_recover told⟩
  | _ =>
    cases done
    exact .inl rfl

theorem history_of_built {tree : FileTree} {d : Draft} {seed : Target} {s : Session}
    (built : (d.build tree seed).value = .ok s) :
    s.history = (History.start seed d.settings.historyLimit).value := by
  unfold Draft.build at built
  cases directory : d.settings.rulesDirectory with
  | none =>
    simp only [directory] at built
    cases built
    rfl
  | some directory =>
    simp only [directory, Logged.value_bind] at built
    split at built
    next => cases built
    next =>
      cases built
      rfl

theorem follows_of_next {seed : Target} {s after : Session} {host : Host} {call : Call}
    (tracked : ∃ limit log, s.history.Follows seed limit log)
    (moved : after.history = s.history.next host call) :
    ∃ limit log, after.history.Follows seed limit log := by
  obtain ⟨limit, log, follows⟩ := tracked
  exact ⟨limit, _, moved ▸ follows.next host call⟩

/-- The history of a session is one that calls lead to, so that it keeps its seed and its bound. -/
theorem Reachable.follows {seed : Target} {s : Session} (reachable : s.Reachable seed) :
    ∃ limit log, s.history.Follows seed limit log := by
  induction reachable with
  | built done => exact ⟨_, _, history_of_built done ▸ History.follows_start seed _⟩
  | focusChanged _ done ih => exact follows_of_next ih (history_of_focusChanged done)
  | targetLost _ done ih => exact follows_of_next ih (history_of_targetLost done)
  | recover _ done ih => exact follows_of_next ih (history_of_recover done)
  | step _ done ih =>
    rcases history_of_step done with same | ⟨call, called⟩
    · exact same ▸ ih
    · exact follows_of_next ih called

/-- A target may be gone, and then the focus has to go somewhere. The host stays as it is. -/
def loseAndRecover (s : Session) (host : Host) (t : Target) (accept : Option (Target → Bool)) :
    Inquiry (Session × Bool × Recovery) := do
  let (s, lost) ← s.targetLost host t
  let (s, r) ← s.recover host accept
  pure (s, lost, r)

theorem outcome_loseAndRecover (s : Session) (host : Host) (t : Target)
    (accept : Option (Target → Bool)) :
    let after := (s.history.next host (.reportLost t)).next host (.recover accept)
    (s.loseAndRecover host t accept).outcome =
      host.grant (s.history.consultedForLoss host t accept)
        ({ s with history := after }, s.history.arrivedValid && !host.valid t, after.recovery) :=
  Host.outcome_bind_grant (s.outcome_targetLost host t)
    (Host.outcome_bind_ok
      ({ s with history := s.history.next host (.reportLost t) }.outcome_recover host accept) rfl)

/-- Wherever a history or a session has got to: if a target is reported lost and the focus is
recovered right behind that, it lands on live targets, unless the host breaks off. -/
theorem recovery_behind_loss_is_live (seed : Target) (host : Host) (t : Target)
    (accept : Option (Target → Bool)) :
    (∀ (limit : Nat) (calls : List (Host × Call)),
      let h := (History.start seed limit).value.reached calls
      ∃ after lost r,
        (h.loseAndRecover host t accept).outcome =
          host.grant (h.consultedForLoss host t accept) (after, lost, r) ∧
        History.LandsLive host seed t accept after lost r) ∧
    ∀ s : Session, s.Reachable seed →
      ∃ after lost r,
        (s.loseAndRecover host t accept).outcome =
          host.grant (s.history.consultedForLoss host t accept) (after, lost, r) ∧
        History.LandsLive host seed t accept after.history lost r := by
  refine ⟨fun limit calls => ?_, fun s reachable => ?_⟩
  · have follows := History.follows_reached seed limit calls
    have live := History.landsLive follows.room host t accept
    rw [follows.seed] at live
    exact ⟨_, _, _, History.outcome_loseAndRecover _ host t accept, live⟩
  · obtain ⟨limit, log, follows⟩ := reachable.follows
    have live := History.landsLive follows.room host t accept
    rw [follows.seed] at live
    exact ⟨_, _, _, s.outcome_loseAndRecover host t accept, live⟩

/-- A session that starts and moves on to a target is reached, and when that target is gone it lands
on the active one, with the seed behind it. -/
theorem lost_target_recovers_to_active :
    let host : Host := ⟨some ⟨3⟩, (· != ⟨2⟩), fun _ => false⟩
    ∃ s : Session, s.Reachable .root ∧ s.history.entries = [⟨2⟩, .root] ∧
      ∃ after r, (s.loseAndRecover host ⟨2⟩ none).outcome = .ok (after, true, r) ∧
        History.LandsLive host .root ⟨2⟩ none after.history true r ∧
        r = ⟨some ⟨3⟩, some .root⟩ := by
  intro host
  let sound : Host := ⟨none, fun _ => true, fun _ => false⟩
  let started : Session := (({} : Draft).start .root).value
  let moved : Session := { started with history := started.history.next sound (.update (some ⟨2⟩)) }
  have built : (({} : Draft).build .empty .root).value = .ok started := rfl
  have arrived : (started.focusChanged sound (some ⟨2⟩)).outcome = .ok moved := rfl
  have reachable : moved.Reachable .root := .focusChanged (.built built) arrived
  obtain ⟨after, lost, r, told, live⟩ :=
    (recovery_behind_loss_is_live .root host ⟨2⟩ none).2 moved reachable
  cases told.symm.trans (moved.outcome_loseAndRecover host ⟨2⟩ none)
  exact ⟨moved, reachable, rfl, _, _, told, live, rfl⟩

end ScreenReader.Session
