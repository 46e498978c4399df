import Mathlib.Data.List.TakeWhile
import ScreenReader.Text.Blank

namespace ScreenReader.Text

/-- Neither the first nor the last character is a blank. -/
structure IsTrimmed (cs : List Char) : Prop where
  first : ∀ c ∈ cs.head?, ¬isBlank c
  last : ∀ c ∈ cs.getLast?, ¬isBlank c

theorem dropBlanks_of_solid {cs : List Char} (solid : ∀ c ∈ cs.head?, ¬isBlank c) :
    dropBlanks cs = cs := by
  cases cs with
  | nil => rfl
  | cons c cs => exact List.dropWhile_cons_of_neg (solid c rfl)

theorem dropBlanks_append {blanks : List Char} (blank : ∀ c ∈ blanks, isBlank c)
    (cs : List Char) : dropBlanks (blanks ++ cs) = dropBlanks cs :=
  List.dropWhile_append_of_pos blank

theorem solid_dropBlanks (cs : List Char) : ∀ c ∈ (dropBlanks cs).head?, ¬isBlank c := by
  intro c first
  have solid := List.head?_dropWhile_not isBlank cs
  rw [show (cs.dropWhile isBlank).head? = some c from first] at solid
  simpa using solid

theorem exists_blanks (cs : List Char) :
    ∃ blanks, (∀ c ∈ blanks, isBlank c) ∧ cs = blanks ++ dropBlanks cs :=
  ⟨cs.takeWhile isBlank, fun _ => List.mem_takeWhile_imp, List.takeWhile_append_dropWhile.symm⟩

theorem IsTrimmed.reverse {cs : List Char} (trimmed : IsTrimmed cs) : IsTrimmed cs.reverse where
  first := by
    rw [List.head?_reverse]
    exact trimmed.last
  last := by
    rw [List.getLast?_reverse]
    exact trimmed.first

theorem trim_of_padded {lead core trail : List Char} (before : ∀ c ∈ lead, isBlank c)
    (behind : ∀ c ∈ trail, isBlank c) (trimmed : IsTrimmed core) :
    trim (String.ofList (lead ++ core ++ trail)) = String.ofList core := by
  unfold trim
  rw [String.toList_ofList, List.append_assoc, dropBlanks_append before]
  cases core with
  | nil =>
    have nothing : dropBlanks ([] ++ trail) = [] := List.dropWhile_eq_nil_iff.mpr behind
    rw [nothing]
    rfl
  | cons c core =>
    have kept : dropBlanks (c :: core ++ trail) = c :: core ++ trail :=
      dropBlanks_of_solid trimmed.first
    have turned : ∀ c ∈ trail.reverse, isBlank c := fun c mem => behind c (List.mem_reverse.mp mem)
    rw [kept, List.reverse_append, dropBlanks_append turned,
      dropBlanks_of_solid trimmed.reverse.first, List.reverse_reverse]

theorem trim_of_trimmed {s : String} (trimmed : IsTrimmed s.toList) : trim s = s := by
  have none_off : trim (String.ofList ([] ++ s.toList ++ [])) = String.ofList s.toList :=
    trim_of_padded (by simp) (by simp) trimmed
  rwa [List.nil_append, List.append_nil, String.ofList_toList] at none_off

/-- What trimming leaves, with the blanks that it takes off behind it. -/
theorem exists_trail (s : String) :
    ∃ trail, (∀ c ∈ trail, isBlank c) ∧ dropBlanks s.toList = (trim s).toList ++ trail := by
  obtain ⟨blanks, blank, rest⟩ := exists_blanks (dropBlanks s.toList).reverse
  refine ⟨blanks.reverse, fun c mem => blank c (List.mem_reverse.mp mem), ?_⟩
  rw [trim, String.toList_ofList, ← List.reverse_append, ← rest, List.reverse_reverse]

theorem exists_padding (s : String) :
    ∃ lead trail, (∀ c ∈ lead, isBlank c) ∧ (∀ c ∈ trail, isBlank c) ∧
      s.toList = lead ++ (trim s).toList ++ trail := by
  obtain ⟨lead, before, split⟩ := exists_blanks s.toList
  obtain ⟨trail, behind, core⟩ := exists_trail s
  exact ⟨lead, trail, before, behind, by rw [List.append_assoc, ← core, ← split]⟩

theorem isTrimmed_trim (s : String) : IsTrimmed (trim s).toList := by
  obtain ⟨trail, -, core⟩ := exists_trail s
  refine ⟨fun c first => ?_, fun c last => ?_⟩
  · refine solid_dropBlanks s.toList c ?_
    rw [core, List.head?_append, show (trim s).toList.head? = some c from first]
    rfl
  · rw [trim, String.toList_ofList, List.getLast?_reverse] at last
    exact solid_dropBlanks _ c last

end ScreenReader.Text
