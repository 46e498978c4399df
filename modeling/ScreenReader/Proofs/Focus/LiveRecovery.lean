import ScreenReader.Proofs.Focus.Arrivals

namespace ScreenReader.History

/-- A target may be gone, and then the focus has to go somewhere. The host stays as it is. -/
def loseAndRecover (h : History) (host : Host) (t : Target) (accept : Option (Target → Bool)) :
    Inquiry (History × Bool × Recovery) := do
  let (h, lost) ← h.reportLost host t
  let (h, r) ← h.recover host accept
  pure (h, lost, r)

/-- The targets that the host is asked about in the course of it, in turn. -/
def consultedForLoss (h : History) (host : Host) (t : Target) (accept : Option (Target → Bool)) :
    List Target :=
  h.consulted host (.reportLost t) ++ h.consulted host (.recover accept)

/-- What can be relied on behind a loss of `t` and a recovery: the history and the recovery that is
read off it hold live targets only. -/
structure LandsLive (host : Host) (seed t : Target) (accept : Option (Target → Bool))
    (after : History) (lost : Bool) (r : Recovery) : Prop where
  entries : ∀ u ∈ after.entries, host.valid u
  recovery : r = after.recovery
  current : ∀ u ∈ r.current, host.valid u
  previous : ∀ u ∈ r.previous, host.valid u
  elsewhere : lost → r.current ≠ some t ∧ r.previous ≠ some t
  accepted : ∀ p ∈ accept, ∀ u ∈ r.current, p u
  active : accept = none → ∀ u ∈ host.active, host.valid u → u ≠ seed → r.current = some u

def AllValid (h : History) (host : Host) : Prop :=
  ∀ u ∈ h.entries, host.valid u

variable {h : History} {host : Host}

theorem allValid_keep (h : History) (host : Host) : (h.keep host).AllValid host :=
  fun _ mem => (List.mem_filter.mp mem).2

theorem AllValid.push (live : h.AllValid host) {t : Target} (valid : host.valid t) :
    (h.push t).AllValid host := by
  have all : ∀ u ∈ t :: h.entries, host.valid u := List.forall_mem_cons.mpr ⟨valid, live⟩
  intro u mem
  unfold History.push at mem
  split at mem
  next => exact live u mem
  next =>
    dsimp only at mem
    split at mem
    next => exact all u ((List.dropLast_sublist _).mem mem)
    next => exact all u mem

theorem AllValid.withActive (live : h.AllValid host) : (h.withActive host).AllValid host := by
  cases recorded : host.recordable h.seed with
  | none =>
    rw [withActive_of_none recorded]
    exact live
  | some t =>
    rw [withActive_of_some recorded]
    exact live.push (Host.recordable_eq_some_iff.mp recorded).2.2

theorem AllValid.recover (live : h.AllValid host) (accept : Option (Target → Bool)) :
    (h.next host (.recover accept)).AllValid host := by
  have recorded := live.withActive
  cases accept with
  | none => exact recorded
  | some accept => exact fun u mem => recorded u ((List.dropWhile_sublist _).mem mem)

theorem AllValid.current (live : h.AllValid host) {u : Target} (mem : u ∈ h.recovery.current) :
    host.valid u :=
  live u (List.mem_of_mem_head? mem)

theorem AllValid.previous (live : h.AllValid host) {u : Target} (mem : u ∈ h.recovery.previous) :
    host.valid u :=
  live u (List.mem_of_getElem? mem)

theorem accepted_of_recover (h : History) (host : Host) (p : Target → Bool) {u : Target}
    (mem : u ∈ (h.next host (.recover (some p))).recovery.current) : p u := by
  have stop := List.head?_dropWhile_not (fun t => !p t) (h.withActive host).entries
  have first : ((h.withActive host).entries.dropWhile fun t => !p t).head? = some u := mem
  rw [first] at stop
  simpa using stop

theorem head?_push (room : 0 < h.limit) (t : Target) : (h.push t).entries.head? = some t := by
  unfold push
  split
  next there => exact there
  next =>
    dsimp only
    split
    next past =>
      -- more than one entry is there, so that it is another one that is dropped
      cases older : h.entries with
      | nil =>
        rw [older, List.length_singleton] at past
        omega
      | cons u us => rfl
    next => rfl

theorem current_of_active (room : 0 < h.limit) {u : Target} (active : u ∈ host.active)
    (valid : host.valid u) (other : u ≠ h.seed) :
    (h.next host (.recover none)).recovery.current = some u := by
  have recorded := Host.recordable_eq_some_iff.mpr ⟨active, other, valid⟩
  show (h.withActive host).entries.head? = some u
  rw [withActive_of_some recorded]
  exact head?_push room u

theorem outcome_loseAndRecover (h : History) (host : Host) (t : Target)
    (accept : Option (Target → Bool)) :
    let after := (h.next host (.reportLost t)).next host (.recover accept)
    (h.loseAndRecover host t accept).outcome =
      host.grant (h.consultedForLoss host t accept)
        (after, h.arrivedValid && !host.valid t, after.recovery) :=
  Host.outcome_bind_grant (h.outcome_reportLost host t)
    (Host.outcome_bind_ok ((h.next host (.reportLost t)).outcome_recover host accept) rfl)

theorem landsLive (room : 0 < h.limit) (host : Host) (t : Target)
    (accept : Option (Target → Bool)) :
    let after := (h.next host (.reportLost t)).next host (.recover accept)
    LandsLive host h.seed t accept after (h.arrivedValid && !host.valid t) after.recovery := by
  intro after
  have cleaned : (h.next host (.reportLost t)).AllValid host := h.allValid_keep host
  have live : after.AllValid host := cleaned.recover accept
  refine ⟨live, rfl, fun u => live.current, fun u => live.previous, fun lost => ?_,
    fun p given u found => ?_, fun absent u active valid other => ?_⟩
  · have gone : ¬host.valid t := by
      simp only [Bool.and_eq_true, Bool.not_eq_true'] at lost
      simp [lost.2]
    exact ⟨fun same => gone (live.current same), fun same => gone (live.previous same)⟩
  · obtain rfl := Option.mem_def.mp given
    exact accepted_of_recover _ host p found
  · subst absent
    exact current_of_active (h := h.next host (.reportLost t)) room active valid other

example :
    let host : Host := ⟨some ⟨3⟩, (· != ⟨2⟩), fun _ => false⟩
    let h : History := ⟨⟨0⟩, 3, [⟨2⟩, ⟨1⟩, ⟨0⟩], true⟩
    (h.loseAndRecover host ⟨2⟩ none).outcome =
      .ok (⟨⟨0⟩, 3, [⟨3⟩, ⟨1⟩, ⟨0⟩], true⟩, true, ⟨some ⟨3⟩, some ⟨1⟩⟩) :=
  rfl

end ScreenReader.History
