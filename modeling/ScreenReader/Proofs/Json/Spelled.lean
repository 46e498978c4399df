import ScreenReader.Json.Document
import ScreenReader.Proofs.Dictionary
import ScreenReader.Proofs.Json.Grammar

namespace ScreenReader.Json

section Text

theorem hexQuad_unit {n : Nat} {digits : List Char} (spelled : SpellsUnit n digits)
    (rest : List Char) : hexQuad (digits ++ rest) = .ok (n, rest) := by
  obtain ⟨four, hex, rfl⟩ := spelled
  have number := Text.hexNumber?_of_hexDigits hex
  obtain ⟨p, q, r, s, rfl⟩ := List.length_eq_four.mp four
  simp [hexQuad, number]

theorem letterEscape?_iff {e c : Char} : letterEscape? e = some c ↔ (e, c) ∈ letterEscapes := by
  unfold letterEscape? letterEscapes
  split <;> simp_all [eq_comm]

theorem escape_letter {e c : Char} (stands : (e, c) ∈ letterEscapes) (rest : List Char) :
    escape (e :: rest) = .ok (c, rest) := by
  have known := letterEscape?_iff.mpr stands
  have other : e ≠ 'u' := by
    rintro rfl
    cases known
  rw [escape]
  · rw [known]
  · exact other

theorem isLeadingSurrogate_iff {n : Nat} : isLeadingSurrogate n ↔ 0xD800 ≤ n ∧ n < 0xDC00 := by
  simp [isLeadingSurrogate]

theorem isTrailingSurrogate_iff {n : Nat} : isTrailingSurrogate n ↔ 0xDC00 ≤ n ∧ n < 0xE000 := by
  simp [isTrailingSurrogate]

theorem escape_unit {c : Char} {n : Nat} {digits : List Char} (units : Text.utf16Units c = [n])
    (spelled : SpellsUnit n digits) (rest : List Char) :
    escape ('u' :: (digits ++ rest)) = .ok (c, rest) := by
  obtain rfl := Text.toNat_of_utf16Units_singleton units
  have valid : c.toNat < 0xD800 ∨ 0xDFFF < c.toNat ∧ c.toNat < 0x110000 := c.valid
  have trailing : ¬isTrailingSurrogate c.toNat := by
    rw [isTrailingSurrogate_iff]
    omega
  have leading : ¬isLeadingSurrogate c.toNat := by
    rw [isLeadingSurrogate_iff]
    omega
  simp [escape, hexQuad_unit spelled, bind, Except.bind, trailing, leading]

theorem escape_pair {c : Char} {high low : Nat} {first second : List Char}
    (units : Text.utf16Units c = [high, low]) (spelledHigh : SpellsUnit high first)
    (spelledLow : SpellsUnit low second) (rest : List Char) :
    escape ('u' :: (first ++ '\\' :: 'u' :: (second ++ rest))) = .ok (c, rest) := by
  have valid : c.toNat < 0xD800 ∨ 0xDFFF < c.toNat ∧ c.toNat < 0x110000 := c.valid
  have numbers := Text.toNat_of_utf16Units_pair units
  have notTrailing : ¬isTrailingSurrogate high := by
    rw [isTrailingSurrogate_iff]
    omega
  have leading : isLeadingSurrogate high := by
    rw [isLeadingSurrogate_iff]
    omega
  have trailing : isTrailingSurrogate low := by
    rw [isTrailingSurrogate_iff]
    omega
  have number : 0x10000 + (high - 0xD800) * 0x400 + (low - 0xDC00) = c.toNat := by omega
  simp [escape, pairEnd, follows, hexQuad_unit spelledHigh, hexQuad_unit spelledLow, bind,
    Except.bind, notTrailing, leading, trailing, number]

theorem quotedChars_unit {c : Char} {unit : List Char} (spelled : SpellsChar c unit)
    (rest : List Char) :
    quotedChars (unit ++ rest) =
      (quotedChars rest).map fun (chars, rest) => (c :: chars, rest) := by
  cases spelled with
  | plain quote backslash shown =>
    exact quotedChars_plain quote backslash (Nat.not_lt.mpr shown) rest
  | letter stands => exact quotedChars_escape (escape_letter stands rest)
  | unit units spelled => exact quotedChars_escape (escape_unit units spelled rest)
  | @pair _ _ first second units high low =>
    have whole : first ++ '\\' :: 'u' :: second ++ rest =
        first ++ '\\' :: 'u' :: (second ++ rest) := by simp
    simp only [List.cons_append]
    rw [whole]
    exact quotedChars_escape (escape_pair units high low rest)

theorem quotedChars_units {chars : List Char} {units : List (List Char)}
    (spelled : List.Forall₂ SpellsChar chars units) (rest : List Char) :
    quotedChars (units.flatten ++ '"' :: rest) = .ok (chars, rest) := by
  induction spelled with
  | nil => exact quotedChars_close rest
  | cons first _ ih =>
    rw [List.flatten_cons, List.append_assoc, quotedChars_unit first, ih]
    rfl

variable {s : String} {cs : List Char}

theorem Spells.append (spelled : Spells s cs) (rest : List Char) :
    ∃ body, cs ++ rest = '"' :: body ∧ quotedChars body = .ok (s.toList, rest) := by
  obtain ⟨units, chars, rfl⟩ := spelled
  refine ⟨units.flatten ++ '"' :: rest, by simp, quotedChars_units chars rest⟩

theorem Spells.begins (spelled : Spells s cs) : Begins cs := by
  obtain ⟨units, -, rfl⟩ := spelled
  exact ⟨'"', _, rfl, by decide⟩

theorem key_spelled (spelled : Spells s cs) (rest : List Char) :
    key (cs ++ rest) = .ok (s, rest) := by
  obtain ⟨body, eq, read⟩ := spelled.append rest
  rw [eq]
  simp [key, read, Except.map]

end Text

/-- The texts of values that a scanner takes off for these values. -/
structure Scanner.Accepts {α : Type} (s : Scanner α) (IsSpelled : α → List Char → Prop) : Prop where
  begins : ∀ {a : α} {cs : List Char}, IsSpelled a cs → Begins cs
  scan : ∀ {a : α} {cs gap rest : List Char}, IsSpelled a cs → IsGap gap → Ends rest →
    s.scan (gap ++ (cs ++ rest)) = .ok (a, rest)

section Element

theorem nextElement_close {gap : List Char} (space : IsGap gap) (first : Bool) (rest : List Char) :
    nextElement first (gap ++ ']' :: rest) = .ok (.close (']' :: rest)) := by
  simp [nextElement, skipSpace_gap_cons (c := ']') space rfl]

theorem nextElement_piece {before gap cs : List Char} (spaceBefore : IsGap before)
    (space : IsGap gap) (begins : Begins cs) (first : Bool) :
    nextElement first (before ++ (comma first ++ (gap ++ cs))) = .ok (.element cs) := by
  have front := begins.skipSpace space
  obtain ⟨c, tail, rfl, solid, -, bracket, -⟩ := begins
  cases first with
  | true => simp [nextElement, comma, skipSpace_gap spaceBefore, front]
  | false =>
    have behind := skipSpace_gap_cons (c := ',') spaceBefore rfl
    simp [nextElement, comma, behind, front, bracket]

theorem elements_listed {α : Type} {s : Scanner α} {IsSpelled : α → List Char → Prop}
    (accepts : s.Accepts IsSpelled) {as : List α} {pieces : List (List Char)} {first : Bool}
    {cs : List Char} (listed : Listed first pieces cs) (spelled : List.Forall₂ IsSpelled as pieces)
    (rest : List Char) :
    elements s first (cs ++ ']' :: rest) = .ok (as, ']' :: rest) := by
  induction listed generalizing as with
  | nil space =>
    cases spelled
    exact elements_close (nextElement_close space _ rest)
  | @cons first before gap piece cs pieces spaceBefore space others ih =>
    cases spelled with
    | @cons a _ as _ head tail =>
      have begins := (accepts.begins head).append (cs ++ ']' :: rest)
      have read := accepts.scan head isGap_nil (others.ends (.inl rfl) rest)
      simp only [List.append_assoc]
      rw [elements_element (nextElement_piece spaceBefore space begins first) read, ih tail]
      rfl

end Element

section Member

theorem nextKey_close {gap : List Char} (space : IsGap gap) (first : Bool) (rest : List Char) :
    nextKey first (gap ++ '}' :: rest) = .ok (none, '}' :: rest) := by
  simp [nextKey, skipSpace_gap_cons (c := '}') space rfl]

theorem nextKey_piece {before gap cs : List Char} {k : String} (spaceBefore : IsGap before)
    (space : IsGap gap) (spelled : Spells k cs) (first : Bool) (rest : List Char) :
    nextKey first (before ++ (comma first ++ (gap ++ (cs ++ rest)))) = .ok (some k, rest) := by
  have front := (spelled.begins.append rest).skipSpace space
  have read := key_spelled spelled rest
  obtain ⟨c, tail, eq, solid, -, -, brace⟩ := spelled.begins.append rest
  rw [eq] at front read ⊢
  cases first with
  | true => simp [nextKey, comma, skipSpace_gap spaceBefore, front, read, Except.map]
  | false =>
    have behind := skipSpace_gap_cons (c := ',') spaceBefore rfl
    simp [nextKey, comma, behind, front, brace, read, Except.map]

theorem colon_gap {gap : List Char} (space : IsGap gap) (rest : List Char) :
    colon (gap ++ ':' :: rest) = .ok rest := by
  simp [colon, skipSpace_gap_cons (c := ':') space rfl]

/-- Rows that are worked off one after the other, from one state to another. -/
inductive Chain {ρ σ : Type} (R : ρ → σ → σ → Prop) : σ → List ρ → σ → Prop
  | nil (state : σ) : Chain R state [] state
  | cons {state next last : σ} {row : ρ} {rows : List ρ} :
    R row state next → Chain R next rows last → Chain R state (row :: rows) last

/-- A member takes an object from one state to the next. -/
def Taken {σ : Type} (step : σ → String → Scanner σ) (row : String × List Char) (state next : σ) :
    Prop :=
  ∀ gap lead rest : List Char, IsGap gap → IsGap lead → Ends rest →
    (step state row.1).scan (gap ++ ':' :: (lead ++ (row.2 ++ rest))) = .ok (next, rest)

theorem Scanner.Accepts.scan_member {α β : Type} {s : Scanner α} {IsSpelled : α → List Char → Prop}
    (accepts : s.Accepts IsSpelled) {a : α} {cs gap lead rest : List Char}
    (spelled : IsSpelled a cs) (space : IsGap gap) (spaceBehind : IsGap lead) (ends : Ends rest) (f : α → β) :
    (s.afterColon.map f).scan (gap ++ ':' :: (lead ++ (cs ++ rest))) = .ok (f a, rest) := by
  have read := accepts.scan spelled spaceBehind ends
  simp [Scanner.map, Scanner.afterColon, colon_gap space, read, bind, Except.bind, Except.map]

theorem members_listed {σ : Type} {step : σ → String → Scanner σ} {state last : σ}
    {rows : List (String × List Char)} {pieces : List (List Char)} {first : Bool} {cs : List Char}
    (listed : Listed first pieces cs)
    (spelled : List.Forall₂ (fun row => IsMember (Spells row.1) row.2) rows pieces)
    (chain : Chain (Taken step) state rows last) (rest : List Char) :
    members step first state (cs ++ '}' :: rest) = .ok (last, '}' :: rest) := by
  induction listed generalizing rows state with
  | nil space =>
    cases spelled
    cases chain
    exact members_close (nextKey_close space _ rest)
  | @cons first before gap piece cs pieces spaceBefore space others ih =>
    cases spelled with
    | @cons row _ rows _ head tail =>
      obtain ⟨key, inner, lead, named, spaceInner, spaceLead, rfl⟩ := head
      cases chain with
      | cons taken chain =>
        have read := taken inner lead _ spaceInner spaceLead (others.ends (.inr rfl) rest)
        simp only [List.append_assoc, List.cons_append]
        rw [members_key (nextKey_piece spaceBefore space named first _) read, ih tail chain]

theorem SpellsObject.members {σ : Type} {step : σ → String → Scanner σ} {state last : σ}
    {rows : List (String × List Char)} {cs : List Char} (object : SpellsObject rows cs)
    (chain : Chain (Taken step) state rows last) (rest : List Char) :
    ∃ body, cs ++ rest = '{' :: body ∧ members step true state body = .ok (last, '}' :: rest) := by
  obtain ⟨pieces, body, spelled, listed, rfl⟩ := object
  exact ⟨body ++ '}' :: rest, by simp, members_listed listed spelled chain rest⟩

theorem SpellsObject.begins {rows : List (String × List Char)} {cs : List Char}
    (object : SpellsObject rows cs) : Begins cs := by
  obtain ⟨pieces, body, -, -, rfl⟩ := object
  exact ⟨'{', _, rfl, by decide⟩

end Member

namespace Scanner

variable {α : Type} {s : Scanner α} {IsSpelled : α → List Char → Prop}

theorem accepts_text : text.Accepts Spells where
  begins := Spells.begins
  scan {a cs gap rest} spelled space _ := by
    obtain ⟨body, eq, read⟩ := spelled.append rest
    rw [eq]
    simp [text, skipSpace_gap_cons (c := '"') space rfl, read, Except.map]

theorem accepts_optional_text : (optional text).Accepts (SpellsOptional Spells) where
  begins {a cs} spelled := by
    cases a with
    | none =>
      obtain rfl : cs = ['n', 'u', 'l', 'l'] := spelled
      exact ⟨'n', _, rfl, by decide⟩
    | some s => exact Spells.begins spelled
  scan {a cs gap rest} spelled space ends := by
    cases a with
    | none =>
      obtain rfl : cs = ['n', 'u', 'l', 'l'] := spelled
      simp [optional, skipSpace_gap_cons (c := 'n') space rfl, word, Except.map]
    | some s =>
      have read := accepts_text.scan spelled isGap_nil ends
      obtain ⟨body, eq, -⟩ := Spells.append spelled rest
      rw [eq] at read ⊢
      rw [List.nil_append] at read
      simp [optional, skipSpace_gap_cons (c := '"') space rfl, read, Except.map]

theorem Accepts.list (accepts : s.Accepts IsSpelled) : s.list.Accepts (SpellsList IsSpelled) where
  begins spelled := by
    obtain ⟨pieces, body, -, -, rfl⟩ := spelled
    exact ⟨'[', _, rfl, by decide⟩
  scan {as cs gap rest} spelled space _ := by
    obtain ⟨pieces, body, items, listed, rfl⟩ := spelled
    have whole : '[' :: (body ++ [']']) ++ rest = '[' :: (body ++ ']' :: rest) := by simp
    have read := elements_listed accepts listed items rest
    have closed : endList (']' :: rest) = .ok rest := rfl
    rw [whole]
    simp [Scanner.list, skipSpace_gap_cons (c := '[') space rfl, read, closed, bind, Except.bind]

theorem Accepts.chain_entry (accepts : s.Accepts IsSpelled) {entries : List (String × α)}
    {rows : List (String × List Char)}
    (spelled : List.Forall₂ (fun entry row => entry.1 = row.1 ∧ IsSpelled entry.2 row.2)
      entries rows)
    (d : Dictionary α) :
    Chain (Taken s.entry) d rows (entries.foldl (fun d (k, a) => d.insert k a) d) := by
  induction spelled generalizing d with
  | nil => exact .nil d
  | @cons entry row entries rows head _ ih =>
    obtain ⟨k, a⟩ := entry
    obtain ⟨rfl, value⟩ := head
    refine .cons (fun gap lead rest space spaceLead ends => ?_) (ih (d.insert row.1 a))
    exact accepts.scan_member value space spaceLead ends _

theorem Accepts.dictionary (accepts : s.Accepts IsSpelled) :
    s.dictionary.Accepts (SpellsDictionary IsSpelled) where
  begins spelled := by
    obtain ⟨entries, rows, -, -, object⟩ := spelled
    exact object.begins
  scan {d cs gap rest} spelled space _ := by
    obtain ⟨entries, rows, order, values, object⟩ := spelled
    have rebuilt : entries.foldl (fun d (k, a) => d.insert k a) ∅ = d :=
      Dictionary.ofList_of_perm order
    obtain ⟨body, eq, read⟩ := object.members (accepts.chain_entry values ∅) rest
    rw [rebuilt] at read
    rw [eq]
    simp [Scanner.dictionary, skipSpace_gap_cons (c := '{') space rfl, read, Except.map]

theorem Accepts.read {a : α} {text : String} (accepts : s.Accepts IsSpelled)
    (document : IsDocument (IsSpelled a) text) : s.read text = .ok a := by
  obtain ⟨lead, cs, trail, spaceBefore, spelled, spaceBehind, eq⟩ := document
  have ends : Ends trail := by simpa using spaceBehind.ends ends_nil
  have read := accepts.scan spelled spaceBefore ends
  have blank : skipSpace trail = [] := by simpa [skipSpace] using skipSpace_gap spaceBehind []
  simp [Scanner.read, readChars, eq, read, blank, bind, Except.bind, Except.mapError]

end Scanner

end ScreenReader.Json
