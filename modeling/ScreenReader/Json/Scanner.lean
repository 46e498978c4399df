import ScreenReader.Json.Fault

namespace ScreenReader.Json

/-- The outcome of reading from a text, which tells what is left of it. -/
abbrev Scan := Except Fault

theorem bind_eq_ok {α β : Type} {x : Scan α} {f : α → Scan β} {b : β} :
    (x >>= f) = .ok b ↔ ∃ a, x = .ok a ∧ f a = .ok b := by
  cases x <;> simp [bind, Except.bind]

theorem map_eq_ok {α β : Type} {x : Scan α} {f : α → β} {b : β} :
    x.map f = .ok b ↔ ∃ a, x = .ok a ∧ f a = b := by
  cases x <;> simp [Except.map]

/-- A way of reading a value from the front of a text, which takes something off it. -/
structure Scanner (α : Type) where
  scan : List Char → Scan (α × List Char)
  shortens : ∀ {cs a rest}, scan cs = .ok (a, rest) → rest.length < cs.length

def isSpace (c : Char) : Bool :=
  c == ' ' || c == '\n' || c == '\t' || c == '\r'

def skipSpace (cs : List Char) : List Char :=
  cs.dropWhile isSpace

theorem length_skipSpace_le (cs : List Char) : (skipSpace cs).length ≤ cs.length :=
  (List.dropWhile_suffix isSpace).length_le

theorem length_lt_of_skipSpace {cs tail : List Char} {c : Char} (h : skipSpace cs = c :: tail) :
    tail.length < cs.length := by
  have := length_skipSpace_le cs
  rw [h, List.length_cons] at this
  omega

/-- Reads the rest of a literal name, letter by letter. -/
def word : List Char → List Char → Scan (List Char)
  | [], rest => .ok rest
  | _ :: _, [] => .error (.here .endInValue [])
  | w :: ws, c :: rest =>
    if w = c then word ws rest else .error (.next .expectedWord (c :: rest))

theorem length_word_le {ws cs rest : List Char} (h : word ws cs = .ok rest) :
    rest.length ≤ cs.length := by
  induction ws generalizing cs with
  | nil => simp_all [word]
  | cons w ws ih =>
    cases cs with
    | nil => simp [word] at h
    | cons c cs =>
      rw [word] at h
      split at h
      next => exact Nat.le_succ_of_le (ih h)
      next => contradiction

/-- Reads the colon between a key and its value. -/
def colon (cs : List Char) : Scan (List Char) :=
  match skipSpace cs with
  | [] => .error (.next .endInObject [])
  | c :: rest => if c = ':' then .ok rest else .error (.next .expectedColon (c :: rest))

theorem length_colon_lt {cs rest : List Char} (h : colon cs = .ok rest) :
    rest.length < cs.length := by
  unfold colon at h
  split at h
  next => contradiction
  next eq =>
    split at h
    next =>
      cases h
      exact length_lt_of_skipSpace eq
    next => contradiction

namespace Scanner

variable {α β : Type}

def map (f : α → β) (s : Scanner α) : Scanner β where
  scan cs := (s.scan cs).map fun (a, rest) => (f a, rest)
  shortens h := by
    obtain ⟨⟨a, tail⟩, hs, eq⟩ := map_eq_ok.mp h
    obtain ⟨_, rfl⟩ := Prod.mk.inj eq
    exact s.shortens hs

/-- The value of a key, behind its colon. -/
def afterColon (s : Scanner α) : Scanner α where
  scan cs := colon cs >>= s.scan
  shortens h := by
    obtain ⟨tail, hc, hs⟩ := bind_eq_ok.mp h
    exact Nat.lt_trans (s.shortens hs) (length_colon_lt hc)

end Scanner

end ScreenReader.Json
