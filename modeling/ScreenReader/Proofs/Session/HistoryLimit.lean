import ScreenReader.Proofs.Session.Focus
import ScreenReader.Proofs.Session.Imports
import ScreenReader.Proofs.Settings

namespace ScreenReader.Draft

open Text Settings

theorem settings_of_write {tree : FileTree} {d next : Draft} {w : Write}
    (written : (d.write tree w).value = .ok next) : next.settings = d.settings := by
  simp only [write, Logged.value_bind, Logged.value_pure] at written
  cases outcome : (w.apply tree d.book).value.outcome with
  | error e =>
    rw [outcome] at written
    cases written
  | ok receipt =>
    rw [outcome] at written
    cases written
    rfl

theorem settings_of_writeAll {tree : FileTree} {d next : Draft} {position : Nat}
    {ws : List Write} (written : (d.writeAll tree position ws).value = .ok next) :
    next.settings = d.settings := by
  induction ws generalizing d position with
  | nil =>
    cases written
    rfl
  | cons w ws ih =>
    simp only [writeAll, Logged.value_bind] at written
    split at written
    next => cases written
    next first => exact (ih written).trans (settings_of_write first)

theorem history_of_launch {tree : FileTree} {d : Draft} {imports : List Write} {seed : Target}
    {s : Session} (launched : (d.launch tree imports seed).value = .ok s) :
    s.history = (History.start seed d.settings.historyLimit).value := by
  simp only [launch, Logged.value_bind] at launched
  split at launched
  next => cases launched
  next written => rw [Session.history_of_built launched, settings_of_writeAll written]

theorem isOk_launch_of_no_directory {tree : FileTree} {d : Draft} {seed : Target}
    (unset : d.settings.rulesDirectory = none) : (d.launch tree [] seed).value.isOk := by
  simp only [launch, writeAll, Logged.value_bind, Logged.value_pure, build, unset]
  rfl

/-- The bound of the history is the decimal number that the variable spells, if 64 bits hold it, and
at least one; it is the standard one where the variable is missing or anything else. A session that
starts from the settings has a history with just this bound. -/
theorem history_limit_read_or_standard (value? : String → Option Text.Bytes) :
    let settings := Settings.ofEnvironment (.ofVariables value?)
    (∀ bytes n, value? "READER_HISTORY_LIMIT" = some bytes → IsLimit bytes n → n < UInt64.size →
      settings.historyLimit = max 1 n) ∧
    ((∀ bytes n, value? "READER_HISTORY_LIMIT" = some bytes → IsLimit bytes n → UInt64.size ≤ n) →
      settings.historyLimit = 30) ∧
    1 ≤ settings.historyLimit ∧ settings.historyLimit < UInt64.size ∧
    (∀ tree imports seed s, (launch tree { settings } imports seed).value = .ok s →
      s.history.limit = settings.historyLimit) ∧
    ∀ tree seed, settings.rulesDirectory = none → (launch tree { settings } [] seed).value.isOk := by
  intro settings
  obtain ⟨positive, fits⟩ := historyLimit_bounds (.ofVariables value?)
  refine ⟨fun bytes n set => historyLimit_of_isLimit set,
    fun unread => historyLimit_of_not_isLimit unread, positive, fits,
    fun tree imports seed s launched => ?_, fun tree seed unset => isOk_launch_of_no_directory unset⟩
  rw [history_of_launch launched]
  exact Nat.max_eq_left positive

/-- The variables when nothing but the bound is set. -/
def limitOnly (text name : String) : Option Text.Bytes :=
  if name = "READER_HISTORY_LIMIT" then some (encode text) else none

/-- Blanks, a plus and leading zeros make no difference, and the first number that 64 bits do not hold
gives the standard bound. -/
theorem padded_limit_read_and_overflow_left :
    (∃ s, (launch .empty { settings := .ofEnvironment (.ofVariables (limitOnly "\t+0042\u00a0")) }
        [] .root).value = .ok s ∧ s.history.limit = 42) ∧
    (ofEnvironment (.ofVariables (limitOnly "18446744073709551616"))).historyLimit = 30 := by
  obtain ⟨read, -, -, -, bound, starts⟩ := history_limit_read_or_standard (limitOnly "\t+0042\u00a0")
  obtain ⟨-, standard, -⟩ := history_limit_read_or_standard (limitOnly "18446744073709551616")
  have spelled : IsLimit (encode "\t+0042\u00a0") 42 :=
    ⟨['\t'], ['+', '0', '0', '4', '2'], ['\u00a0'], List.all_eq_true.mp rfl, List.all_eq_true.mp rfl,
      ⟨['+'], ['0', '0', '4', '2'], rfl, .inr rfl, by decide, List.all_eq_true.mp rfl, rfl⟩, by decide⟩
  have overflow : (decode? (encode "18446744073709551616")).bind (limitOf? <| trim ·) = none := by
    rw [decode?_eq_some_iff.mpr rfl]
    decide +kernel
  refine ⟨?_, standard fun bytes n set large => ?_⟩
  · cases launched : (launch .empty
        { settings := .ofEnvironment (.ofVariables (limitOnly "\t+0042\u00a0")) } [] .root).value with
    | error e =>
      have := starts .empty .root rfl
      rw [launched] at this
      cases this
    | ok s => exact ⟨s, rfl, (bound _ _ _ s launched).trans (read _ 42 rfl spelled (by decide))⟩
  · cases set
    by_contra small
    have := limit_read_iff.mpr ⟨large, Nat.not_le.mp small⟩
    rw [overflow] at this
    cases this

end ScreenReader.Draft
