import Mathlib.Data.List.TakeWhile
import ScreenReader.Json.Ignored
import ScreenReader.Proofs.Json.Spelled

namespace ScreenReader.Json

section Text

theorem skipQuoted_close (rest : List Char) : skipQuoted ('"' :: rest) = .ok rest := by
  rw [skipQuoted]

theorem skipQuoted_escape {cs tail : List Char} (h : skipEscape cs = .ok tail) :
    skipQuoted ('\\' :: cs) = skipQuoted tail := by
  rw [skipQuoted]
  split
  next he => rw [he] at h; contradiction
  next he =>
    rw [he] at h
    rw [Except.ok.inj h]

theorem skipQuoted_plain {c : Char} (quote : c ≠ '"') (backslash : c ≠ '\\')
    (shown : ¬c.toNat < 0x20) (cs : List Char) : skipQuoted (c :: cs) = skipQuoted cs := by
  rw [skipQuoted]
  · rw [if_neg shown]
  · exact quote
  · exact backslash

theorem skipEscape_letter {e c : Char} (stands : (e, c) ∈ letterEscapes) (rest : List Char) :
    skipEscape (e :: rest) = .ok rest := by
  have known := letterEscape?_iff.mpr stands
  have other : e ≠ 'u' := by
    rintro rfl
    cases known
  rw [skipEscape]
  · rw [known, Option.isSome_some, if_pos rfl]
  · exact other

theorem skipQuoted_unit {unit : List Char} (form : IsUnit unit) (rest : List Char) :
    skipQuoted (unit ++ rest) = skipQuoted rest := by
  cases form with
  | plain quote backslash shown =>
    exact skipQuoted_plain quote backslash (Nat.not_lt.mpr shown) rest
  | letter stands => exact skipQuoted_escape (skipEscape_letter stands rest)
  | code spelled =>
    refine skipQuoted_escape ?_
    simp [skipEscape, hexQuad_unit spelled, Except.map]

theorem skipQuoted_units {units : List (List Char)} (forms : ∀ unit ∈ units, IsUnit unit)
    (rest : List Char) : skipQuoted (units.flatten ++ '"' :: rest) = .ok rest := by
  induction units with
  | nil => exact skipQuoted_close rest
  | cons unit units ih =>
    obtain ⟨first, later⟩ := List.forall_mem_cons.mp forms
    rw [List.flatten_cons, List.append_assoc, skipQuoted_unit first, ih later]

theorem IsText.append {cs : List Char} (form : IsText cs) (rest : List Char) :
    ∃ body, cs ++ rest = '"' :: body ∧ skipQuoted body = .ok rest := by
  obtain ⟨units, forms, rfl⟩ := form
  exact ⟨units.flatten ++ '"' :: rest, by simp, skipQuoted_units forms rest⟩

end Text

namespace Numeral

/-- What may stand behind the digits of a number. -/
def StopsDigits (rest : List Char) : Prop :=
  ∀ c ∈ rest.head?, c.isDigit = false

theorem takeDigits_append {digits rest : List Char} (all : ∀ c ∈ digits, c.isDigit)
    (stops : StopsDigits rest) : takeDigits (digits ++ rest) = (digits, rest) := by
  have none : rest.takeWhile Char.isDigit = [] ∧ rest.dropWhile Char.isDigit = rest := by
    cases rest with
    | nil => exact ⟨rfl, rfl⟩
    | cons c rest =>
      have stop := stops c rfl
      simp [stop]
  rw [takeDigits, List.takeWhile_append_of_pos all, List.dropWhile_append_of_pos all, none.1,
    none.2, List.append_nil]

theorem scanWhole_append {cs rest : List Char} (atEnd : Cause) (whole : IsWhole cs)
    (stops : StopsDigits rest) : scanWhole atEnd (cs ++ rest) = .ok (cs, rest) := by
  rcases whole with rfl | ⟨⟨present, all⟩, leading⟩
  · cases rest with
    | nil => rfl
    | cons c rest =>
      have stop := stops c rfl
      simp [scanWhole, stop]
  · obtain ⟨c, digits, rfl⟩ := List.exists_cons_of_ne_nil present
    have digit := all c List.mem_cons_self
    have zero : c ≠ '0' := fun eq => leading (congrArg some eq)
    rw [List.cons_append, scanWhole, if_pos digit, ← List.cons_append, takeDigits_append all stops]
    exact zero

theorem scanFraction_append {cs rest : List Char} (atEnd : Cause) (fraction : IsFraction cs)
    (stops : StopsDigits rest) (point : '.' ∉ rest.head?) :
    ∃ digits, scanFraction atEnd (cs ++ rest) = .ok (digits, rest) := by
  rcases fraction with rfl | ⟨digits, ⟨present, all⟩, rfl⟩
  · refine ⟨none, ?_⟩
    cases rest with
    | nil => rfl
    | cons c rest =>
      rw [List.nil_append, scanFraction]
      rintro _ ⟨rfl, -⟩
      exact point rfl
  · obtain ⟨d, digits, rfl⟩ := List.exists_cons_of_ne_nil present
    have taken : takeDigits (d :: (digits ++ rest)) = (d :: digits, rest) :=
      takeDigits_append all stops
    exact ⟨some (d :: digits), by simp [scanFraction, taken]⟩

theorem scanSign_append {sign : List Char} {d : Char} (digit : d.isDigit)
    (signed : sign = [] ∨ sign = ['+'] ∨ sign = ['-']) (cs : List Char) :
    ∃ negative, scanSign (sign ++ d :: cs) = (negative, d :: cs) := by
  rcases signed with rfl | rfl | rfl
  · refine ⟨false, ?_⟩
    rw [List.nil_append, scanSign]
    · rintro _ ⟨rfl, -⟩
      contradiction
    · rintro _ ⟨rfl, -⟩
      contradiction
  · exact ⟨false, rfl⟩
  · exact ⟨true, rfl⟩

theorem scanExponent_append {cs rest : List Char} (atEnd : Cause) (exponent : IsExponent cs)
    (stops : StopsDigits rest) (letter : ∀ c ∈ rest.head?, c ≠ 'e' ∧ c ≠ 'E') :
    ∃ digits, scanExponent atEnd (cs ++ rest) = .ok (digits, rest) := by
  rcases exponent with rfl | ⟨e, sign, digits, mark, signed, ⟨present, all⟩, rfl⟩
  · refine ⟨none, ?_⟩
    cases rest with
    | nil => rfl
    | cons c rest =>
      have other := letter c rfl
      simp [scanExponent, other]
  · obtain ⟨d, digits, rfl⟩ := List.exists_cons_of_ne_nil present
    obtain ⟨negative, read⟩ := scanSign_append (all d List.mem_cons_self) signed (digits ++ rest)
    have whole : e :: (sign ++ d :: digits) ++ rest = e :: (sign ++ d :: (digits ++ rest)) := by
      simp
    have taken : takeDigits (d :: (digits ++ rest)) = (d :: digits, rest) :=
      takeDigits_append all stops
    refine ⟨some (negative, d :: digits), ?_⟩
    rw [whole, scanExponent, if_pos mark, read]
    simp only [taken]

theorem stops_of_ends {rest : List Char} (ends : Ends rest) :
    StopsDigits rest ∧ ∀ c ∈ rest.head?, c ≠ '.' ∧ c ≠ 'e' ∧ c ≠ 'E' := by
  have each : ∀ c ∈ rest.head?, c.isDigit = false ∧ c ≠ '.' ∧ c ≠ 'e' ∧ c ≠ 'E' := by
    intro c first
    have behind := ends c first
    simp only [isSpace, Bool.or_eq_true, beq_iff_eq] at behind
    rcases behind with (((rfl | rfl) | rfl) | rfl) | rfl | rfl | rfl <;> decide
  exact ⟨fun c first => (each c first).1, fun c first => (each c first).2⟩

theorem stops_of_exponent {cs rest : List Char} (exponent : IsExponent cs) (ends : Ends rest) :
    StopsDigits (cs ++ rest) ∧ '.' ∉ (cs ++ rest).head? := by
  obtain ⟨stops, others⟩ := stops_of_ends ends
  rcases exponent with rfl | ⟨e, sign, digits, mark, -, -, rfl⟩
  · exact ⟨stops, fun point => (others '.' point).1 rfl⟩
  · rcases mark with rfl | rfl <;> exact ⟨by rintro _ ⟨⟩; rfl, by simp⟩

theorem stops_of_fraction {cs rest : List Char} (fraction : IsFraction cs)
    (stops : StopsDigits rest) : StopsDigits (cs ++ rest) := by
  rcases fraction with rfl | ⟨digits, -, rfl⟩
  · exact stops
  · rintro _ ⟨⟩
    rfl

theorem scan_append {cs rest : List Char} (atEnd : Cause) (negative : Bool) (form : IsUnsigned cs)
    (ends : Ends rest) : ∃ n, scan atEnd negative (cs ++ rest) = .ok (n, rest) := by
  obtain ⟨whole, fraction, exponent, isWhole, isFraction, isExponent, rfl⟩ := form
  obtain ⟨stops, point⟩ := stops_of_exponent isExponent ends
  have first := scanWhole_append atEnd isWhole (stops_of_fraction isFraction stops)
  obtain ⟨digits, second⟩ := scanFraction_append atEnd isFraction stops point
  obtain ⟨power, third⟩ := scanExponent_append atEnd isExponent (stops_of_ends ends).1
    fun c mem => ((stops_of_ends ends).2 c mem).2
  refine ⟨⟨negative, whole, digits, power⟩, ?_⟩
  simp [scan, first, second, third, bind, Except.bind]

end Numeral

section Value

theorem skipNumeral_append {cs rest : List Char} (negative : Bool) (form : IsUnsigned cs)
    (ends : Ends rest) : skipNumeral negative (cs ++ rest) = .ok rest := by
  obtain ⟨n, read⟩ := Numeral.scan_append .invalidNumber negative form ends
  rw [skipNumeral, read]
  rfl

theorem IsUnsigned.head {cs : List Char} (form : IsUnsigned cs) :
    ∃ c tail, cs = c :: tail ∧ c.isDigit := by
  obtain ⟨whole, fraction, exponent, isWhole, -, -, rfl⟩ := form
  rcases isWhole with rfl | ⟨⟨present, all⟩, -⟩
  · exact ⟨'0', _, rfl, rfl⟩
  · obtain ⟨c, digits, rfl⟩ := List.exists_cons_of_ne_nil present
    exact ⟨c, _, rfl, all c List.mem_cons_self⟩

theorem begins_of_isDigit {c : Char} (digit : c.isDigit) (tail : List Char) :
    Begins (c :: tail) := by
  refine ⟨c, tail, rfl, ?_, ?_, ?_, ?_⟩
  · by_contra space
    simp only [isSpace, Bool.not_eq_false, Bool.or_eq_true, beq_iff_eq] at space
    rcases space with ((rfl | rfl) | rfl) | rfl <;> contradiction
  all_goals
    rintro rfl
    contradiction

theorem IsValue.begins {cs : List Char} (value : IsValue cs) : Begins cs := by
  cases value with
  | number form =>
    obtain ⟨c, tail, rfl, digit⟩ := form.head
    exact begins_of_isDigit digit tail
  | text form =>
    obtain ⟨units, -, rfl⟩ := form
    exact ⟨'"', _, rfl, by decide⟩
  | _ => exact ⟨_, _, rfl, by decide⟩

/-- Works off the open brackets from the value that is due within them. -/
def proceed : List Bracket × List Char → Scan (List Char)
  | ([], rest) => .ok rest
  | (b :: outer, rest) => skipFrom (b :: outer) rest

theorem skipFrom_eq (outer : List Bracket) (cs : List Char) :
    skipFrom outer cs = skipStep outer cs >>= proceed := by
  rw [skipFrom]
  split <;> simp_all [bind, Except.bind, proceed]

/-- Works off the open brackets from behind a value within them. -/
def leave (outer : List Bracket) (rest : List Char) : Scan (List Char) :=
  resume outer rest >>= proceed

theorem map_bind_proceed (x : Scan (List Char)) (b : Bracket) (outer : List Bracket) :
    (x.map (b :: outer, ·) >>= proceed) = x >>= skipFrom (b :: outer) := by
  cases x <;> rfl

theorem leave_comma {gap : List Char} (space : IsGap gap) (b : Bracket) (outer : List Bracket)
    (rest : List Char) :
    leave (b :: outer) (gap ++ ',' :: rest) = enter b rest >>= skipFrom (b :: outer) := by
  rw [leave, resume, skipSpace_gap_cons space rfl]
  exact map_bind_proceed (enter b rest) b outer

theorem leave_close {gap : List Char} (space : IsGap gap) (b : Bracket) (outer : List Bracket)
    (rest : List Char) : leave (b :: outer) (gap ++ b.closer :: rest) = leave outer rest := by
  have solid : isSpace b.closer = false := by cases b <;> rfl
  have other : b.closer ≠ ',' := by cases b <;> decide
  rw [leave, resume, skipSpace_gap_cons space solid]
  simp only [if_neg other, if_true]
  rfl

/-- What is passed over as a whole where a value is due. -/
def Passed (cs : List Char) : Prop :=
  ∀ (outer : List Bracket) {lead rest : List Char}, IsGap lead → Ends rest →
    skipFrom outer (lead ++ (cs ++ rest)) = leave outer rest

/-- What is passed over as a whole where an element of the bracket is due. -/
structure Entered (b : Bracket) (piece : List Char) : Prop where
  begins : Begins piece
  pass : ∀ (outer : List Bracket) {gap rest : List Char}, IsGap gap → Ends rest →
    (enter b (gap ++ (piece ++ rest)) >>= skipFrom (b :: outer)) = leave (b :: outer) rest

theorem leave_listed {b : Bracket} {pieces : List (List Char)} {cs : List Char}
    (listed : Listed false pieces cs) (entered : ∀ piece ∈ pieces, Entered b piece)
    (outer : List Bracket) (rest : List Char) :
    leave (b :: outer) (cs ++ b.closer :: rest) = leave outer rest := by
  have closes : b.closer = ']' ∨ b.closer = '}' := by cases b <;> decide
  generalize later : false = first at listed
  induction listed with
  | nil space => exact leave_close space b outer rest
  | @cons first before gap piece cs pieces spaceBefore space others ih =>
    subst later
    obtain ⟨head, tail⟩ := List.forall_mem_cons.mp entered
    have passed := head.pass outer space (others.ends closes rest)
    have front : before ++ (comma false ++ (gap ++ (piece ++ cs))) ++ b.closer :: rest =
        before ++ ',' :: (gap ++ (piece ++ (cs ++ b.closer :: rest))) := by simp [comma]
    rw [front, leave_comma spaceBefore, passed, ih tail rfl]

theorem descend_listed {b : Bracket} {pieces : List (List Char)} {cs : List Char}
    (listed : Listed true pieces cs) (entered : ∀ piece ∈ pieces, Entered b piece)
    (outer : List Bracket) (rest : List Char) :
    (descend b outer (cs ++ b.closer :: rest) >>= proceed) = leave outer rest := by
  have closes : b.closer = ']' ∨ b.closer = '}' := by cases b <;> decide
  cases listed with
  | nil space =>
    have solid : isSpace b.closer = false := by cases b <;> rfl
    rw [descend, skipSpace_gap_cons space solid]
    simp only [if_true]
    rfl
  | @cons _ before gap piece cs pieces spaceBefore space others =>
    obtain ⟨head, tail⟩ := List.forall_mem_cons.mp entered
    have begins := head.begins.append (cs ++ b.closer :: rest)
    have passed := head.pass outer isGap_nil (others.ends closes rest)
    have front : before ++ (comma true ++ (gap ++ (piece ++ cs))) ++ b.closer :: rest =
        before ++ (gap ++ (piece ++ (cs ++ b.closer :: rest))) := by simp [comma]
    rw [front, descend, skipSpace_gap spaceBefore, begins.skipSpace space]
    rw [List.nil_append] at passed
    obtain ⟨c, next, eq, -, -, bracket, brace⟩ := begins
    have other : c ≠ b.closer := by rcases closes with eq | eq <;> simpa [eq]
    rw [eq] at passed ⊢
    simp only [if_neg other]
    rw [map_bind_proceed, passed, leave_listed others tail]

theorem Passed.entered {item : List Char} (passed : Passed item) (begins : Begins item) :
    Entered .list item :=
  ⟨begins, fun outer => passed (.list :: outer)⟩

theorem Passed.entered_member {value piece : List Char} (passed : Passed value)
    (member : IsMember IsText value piece) : Entered .object piece := by
  obtain ⟨key, inner, lead, text, spaceInner, spaceLead, rfl⟩ := member
  refine ⟨?_, fun outer {gap rest} space ends => ?_⟩
  · obtain ⟨units, -, rfl⟩ := text
    exact ⟨'"', _, rfl, by decide⟩
  · obtain ⟨body, eq, skipped⟩ := text.append (inner ++ ':' :: (lead ++ (value ++ rest)))
    have front : key ++ (inner ++ ':' :: (lead ++ value)) ++ rest = '"' :: body := by
      rw [← eq]
      simp
    rw [front, enter, skipKey, skipSpace_gap_cons space rfl]
    simp only [skipped, colon_gap spaceInner, bind, Except.bind]
    exact passed (.object :: outer) spaceLead ends

theorem entered_members {values pieces : List (List Char)}
    (members : List.Forall₂ (IsMember IsText) values pieces)
    (passed : ∀ value ∈ values, Passed value) : ∀ piece ∈ pieces, Entered .object piece := by
  induction members with
  | nil => exact List.forall_mem_nil _
  | cons member _ ih =>
    obtain ⟨head, tail⟩ := List.forall_mem_cons.mp passed
    exact List.forall_mem_cons.mpr ⟨head.entered_member member, ih tail⟩

theorem skipStep_digit {lead : List Char} (space : IsGap lead) {c : Char} (digit : c.isDigit)
    (outer : List Bracket) (cs : List Char) :
    skipStep outer (lead ++ c :: cs) = skipNumeral false (c :: cs) >>= resume outer := by
  rw [skipStep, (begins_of_isDigit digit cs).skipSpace space]
  split
  case h_1 eq => cases eq
  case h_9 eq =>
    cases eq
    exact if_pos digit
  all_goals
    next eq =>
      cases eq
      contradiction

/-- Whatever the value holds, and however many brackets are open around it. -/
theorem IsValue.passed {cs : List Char} (value : IsValue cs) : Passed cs := by
  induction value with
  | null | yes | no =>
    intro outer lead rest space ends
    rw [skipFrom_eq, skipStep, List.cons_append, skipSpace_gap_cons space rfl]
    rfl
  | number form =>
    intro outer lead rest space ends
    have skipped := skipNumeral_append false form ends
    obtain ⟨c, tail, rfl, digit⟩ := form.head
    rw [List.cons_append] at skipped ⊢
    rw [skipFrom_eq, skipStep_digit space digit, skipped]
    rfl
  | negative form =>
    intro outer lead rest space ends
    rw [skipFrom_eq, skipStep, List.cons_append, skipSpace_gap_cons space rfl]
    simp only [skipNumeral_append true form ends]
    rfl
  | text form =>
    intro outer lead rest space ends
    obtain ⟨body, eq, skipped⟩ := form.append rest
    rw [eq, skipFrom_eq, skipStep, skipSpace_gap_cons space rfl]
    simp only [skipped]
    rfl
  | @list items body listed values ih =>
    intro outer lead rest space ends
    have whole : '[' :: (body ++ [']']) ++ rest = '[' :: (body ++ ']' :: rest) := by simp
    rw [whole, skipFrom_eq, skipStep, skipSpace_gap_cons space rfl]
    exact descend_listed listed (fun item mem => (ih item mem).entered (values item mem).begins)
      outer rest
  | @object values pieces body listed members _ ih =>
    intro outer lead rest space ends
    have whole : '{' :: (body ++ ['}']) ++ rest = '{' :: (body ++ '}' :: rest) := by simp
    rw [whole, skipFrom_eq, skipStep, skipSpace_gap_cons space rfl]
    exact descend_listed listed (entered_members members ih) outer rest

theorem Scanner.accepts_ignored : Scanner.ignored.Accepts fun _ => IsValue where
  begins value := value.begins
  scan {_ cs gap rest} value space ends := by
    show (skipFrom [] (gap ++ (cs ++ rest))).map _ = _
    rw [value.passed [] space ends]
    rfl

end Value

end ScreenReader.Json
