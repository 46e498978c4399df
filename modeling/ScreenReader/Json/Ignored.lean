import ScreenReader.Json.Collection

namespace ScreenReader.Json

inductive Bracket where
  | list
  | object
  deriving DecidableEq, Repr

namespace Bracket

def closer : Bracket → Char
  | list => ']'
  | object => '}'

def atEnd : Bracket → Cause
  | list => .endInList
  | object => .endInObject

def expected : Bracket → Cause
  | list => .expectedCommaOrBracket
  | object => .expectedCommaOrBrace

end Bracket

/-- Passes over a key and its colon. -/
def skipKey (cs : List Char) : Scan (List Char) :=
  match skipSpace cs with
  | [] => .error (.next .endInObject [])
  | '"' :: cs => skipQuoted cs >>= colon
  | cs => .error (.next .keyIsNoText cs)

def skipNumeral (negative : Bool) (cs : List Char) : Scan (List Char) :=
  (Numeral.scan .invalidNumber negative cs).map Prod.snd

/-- Comes to the value of the next element within a bracket. -/
def enter (b : Bracket) (cs : List Char) : Scan (List Char) :=
  match b with
  | .list => .ok cs
  | .object => skipKey cs

/-- Behind a value within the open brackets, innermost first: closes them until one goes on with an
element. No bracket is left open when the whole value is over. -/
def resume : List Bracket → List Char → Scan (List Bracket × List Char)
  | [], cs => .ok ([], cs)
  | b :: outer, cs =>
    match skipSpace cs with
    | [] => .error (.next b.atEnd [])
    | c :: rest =>
      if c = ',' then (enter b rest).map (b :: outer, ·)
      else if c = b.closer then resume outer rest
      else .error (.next b.expected (c :: rest))

/-- Behind an opening bracket: its closer may follow, else its first element does. -/
def descend (b : Bracket) (outer : List Bracket) (cs : List Char) :
    Scan (List Bracket × List Char) :=
  match skipSpace cs with
  | [] => .error (.next b.atEnd [])
  | c :: rest =>
    if c = b.closer then resume outer rest else (enter b (c :: rest)).map (b :: outer, ·)

/-- Passes over one value without brackets, or over the opening bracket of one with. -/
def skipStep (outer : List Bracket) (cs : List Char) : Scan (List Bracket × List Char) :=
  match skipSpace cs with
  | [] => .error (.next .endInValue [])
  | 'n' :: cs => word ['u', 'l', 'l'] cs >>= resume outer
  | 't' :: cs => word ['r', 'u', 'e'] cs >>= resume outer
  | 'f' :: cs => word ['a', 'l', 's', 'e'] cs >>= resume outer
  | '"' :: cs => skipQuoted cs >>= resume outer
  | '[' :: cs => descend .list outer cs
  | '{' :: cs => descend .object outer cs
  | '-' :: cs => skipNumeral true cs >>= resume outer
  | c :: cs =>
    if c.isDigit then skipNumeral false (c :: cs) >>= resume outer
    else .error (.next .expectedValue (c :: cs))

theorem length_skipKey_lt {cs rest : List Char} (h : skipKey cs = .ok rest) :
    rest.length < cs.length := by
  unfold skipKey at h
  split at h
  next => contradiction
  next eq =>
    obtain ⟨tail, hq, hc⟩ := bind_eq_ok.mp h
    have := length_lt_of_skipSpace eq
    have := length_skipQuoted_lt hq
    have := length_colon_lt hc
    omega
  next => contradiction

theorem length_skipNumeral_lt {negative : Bool} {cs rest : List Char}
    (h : skipNumeral negative cs = .ok rest) : rest.length < cs.length := by
  obtain ⟨⟨n, tail⟩, hn, rfl⟩ := map_eq_ok.mp h
  exact Numeral.length_scan_lt hn

theorem length_enter_le {b : Bracket} {cs rest : List Char} (h : enter b cs = .ok rest) :
    rest.length ≤ cs.length := by
  cases b with
  | list =>
    cases h
    exact Nat.le_refl _
  | object => exact Nat.le_of_lt (length_skipKey_lt h)

theorem length_resume_le {outer stack : List Bracket} {cs rest : List Char}
    (h : resume outer cs = .ok (stack, rest)) : rest.length ≤ cs.length := by
  induction outer generalizing cs with
  | nil =>
    cases h
    exact Nat.le_refl _
  | cons b outer ih =>
    unfold resume at h
    split at h
    next => contradiction
    next eq =>
      have := length_lt_of_skipSpace eq
      split at h
      next =>
        obtain ⟨tail, he, eq'⟩ := map_eq_ok.mp h
        obtain ⟨_, rfl⟩ := Prod.mk.inj eq'
        have := length_enter_le he
        omega
      next =>
        split at h
        next =>
          have := ih h
          omega
        next => contradiction

theorem length_descend_le {b : Bracket} {outer stack : List Bracket} {cs rest : List Char}
    (h : descend b outer cs = .ok (stack, rest)) : rest.length ≤ cs.length := by
  unfold descend at h
  split at h
  next => contradiction
  next eq =>
    have := length_lt_of_skipSpace eq
    split at h
    next =>
      have := length_resume_le h
      omega
    next =>
      obtain ⟨tail, he, eq'⟩ := map_eq_ok.mp h
      obtain ⟨_, rfl⟩ := Prod.mk.inj eq'
      have := length_enter_le he
      rw [List.length_cons] at this
      omega

theorem length_bind_resume_le {outer stack : List Bracket} {rest : List Char} {n : Nat}
    {x : Scan (List Char)} (hx : ∀ {cs}, x = .ok cs → cs.length ≤ n)
    (h : (x >>= resume outer) = .ok (stack, rest)) : rest.length ≤ n := by
  obtain ⟨tail, ht, h⟩ := bind_eq_ok.mp h
  exact Nat.le_trans (length_resume_le h) (hx ht)

theorem length_skipStep_lt {outer stack : List Bracket} {cs rest : List Char}
    (h : skipStep outer cs = .ok (stack, rest)) : rest.length < cs.length := by
  unfold skipStep at h
  split at h
  next => contradiction
  next eq =>
    exact Nat.lt_of_le_of_lt (length_bind_resume_le length_word_le h) (length_lt_of_skipSpace eq)
  next eq =>
    exact Nat.lt_of_le_of_lt (length_bind_resume_le length_word_le h) (length_lt_of_skipSpace eq)
  next eq =>
    exact Nat.lt_of_le_of_lt (length_bind_resume_le length_word_le h) (length_lt_of_skipSpace eq)
  next eq =>
    have := length_bind_resume_le (fun hq => Nat.le_of_lt (length_skipQuoted_lt hq)) h
    exact Nat.lt_of_le_of_lt this (length_lt_of_skipSpace eq)
  next eq => exact Nat.lt_of_le_of_lt (length_descend_le h) (length_lt_of_skipSpace eq)
  next eq => exact Nat.lt_of_le_of_lt (length_descend_le h) (length_lt_of_skipSpace eq)
  next eq =>
    have := length_bind_resume_le (fun hn => Nat.le_of_lt (length_skipNumeral_lt hn)) h
    exact Nat.lt_of_le_of_lt this (length_lt_of_skipSpace eq)
  next c tail _ _ _ _ _ _ _ eq =>
    split at h
    next =>
      have bound : ∀ {left}, skipNumeral false (c :: tail) = .ok left → left.length ≤ tail.length :=
        fun hn => Nat.le_of_lt_succ (length_skipNumeral_lt hn)
      exact Nat.lt_of_le_of_lt (length_bind_resume_le bound h) (length_lt_of_skipSpace eq)
    next => contradiction

/-- Passes over the value due within the open brackets, and on until all of them are closed. -/
def skipFrom (outer : List Bracket) (cs : List Char) : Scan (List Char) :=
  match _step : skipStep outer cs with
  | .error fault => .error fault
  | .ok ([], rest) => .ok rest
  | .ok (b :: outer, rest) => skipFrom (b :: outer) rest
termination_by cs.length
decreasing_by exact length_skipStep_lt _step

theorem length_skipFrom_lt {outer : List Bracket} {cs rest : List Char}
    (h : skipFrom outer cs = .ok rest) : rest.length < cs.length := by
  fun_induction skipFrom outer cs with
  | case1 => contradiction
  | case2 outer cs tail step =>
    cases h
    exact length_skipStep_lt step
  | case3 outer cs b others tail step ih => exact Nat.lt_trans (ih h) (length_skipStep_lt step)

/-- Any value, of which nothing is kept. -/
def Scanner.ignored : Scanner Unit where
  scan cs := (skipFrom [] cs).map ((), ·)
  shortens h := by
    obtain ⟨tail, hs, eq⟩ := map_eq_ok.mp h
    obtain ⟨_, rfl⟩ := Prod.mk.inj eq
    exact length_skipFrom_lt hs

end ScreenReader.Json
