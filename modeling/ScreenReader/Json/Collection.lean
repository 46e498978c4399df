import ScreenReader.Dictionary
import ScreenReader.Json.Mismatch

namespace ScreenReader.Json

/-- Where a list goes on: at an element, or at its closing bracket. -/
inductive Turn where
  | element (rest : List Char)
  | close (rest : List Char)

def Turn.rest : Turn → List Char
  | element rest => rest
  | close rest => rest

/-- Comes to the next element of a list, over the comma before all but the first. -/
def nextElement (first : Bool) (cs : List Char) : Scan Turn :=
  match skipSpace cs with
  | [] => .error (.next .endInList [])
  | ']' :: rest => .ok (.close (']' :: rest))
  | c :: rest =>
    if first then .ok (.element (c :: rest))
    else if c = ',' then
      match skipSpace rest with
      | [] => .error (.next .endInValue [])
      | ']' :: rest => .error (.next .trailingComma (']' :: rest))
      | rest => .ok (.element rest)
    else .error (.next .expectedCommaOrBracket (c :: rest))

/-- Reads the closing bracket of a list that should end here. -/
def endList (cs : List Char) : Scan (List Char) :=
  match skipSpace cs with
  | [] => .error (.next .endInList [])
  | ']' :: rest => .ok rest
  | ',' :: rest =>
    match skipSpace rest with
    | ']' :: rest => .error (.next .trailingComma (']' :: rest))
    | rest => .error (.next .trailingCharacters rest)
  | cs => .error (.next .trailingCharacters cs)

/-- Reads a key up to its closing quote. -/
def key : List Char → Scan (String × List Char)
  | '"' :: cs => (quotedChars cs).map fun (chars, rest) => (String.ofList chars, rest)
  | cs => .error (.next .keyIsNoText cs)

/-- Comes to the next key of an object, over the comma before all but the first; none at the closing
brace, which is left. -/
def nextKey (first : Bool) (cs : List Char) : Scan (Option String × List Char) :=
  match skipSpace cs with
  | [] => .error (.next .endInObject [])
  | '}' :: rest => .ok (none, '}' :: rest)
  | c :: rest =>
    if first then (key (c :: rest)).map fun (k, rest) => (some k, rest)
    else if c = ',' then
      match skipSpace rest with
      | [] => .error (.next .endInValue [])
      | '}' :: rest => .error (.next .trailingComma ('}' :: rest))
      | rest => (key rest).map fun (k, rest) => (some k, rest)
    else .error (.next .expectedCommaOrBrace (c :: rest))

theorem length_nextElement_le {first : Bool} {cs : List Char} {turn : Turn}
    (h : nextElement first cs = .ok turn) : turn.rest.length ≤ cs.length := by
  have hs := length_skipSpace_le cs
  unfold nextElement at h
  split at h
  next => contradiction
  next eq =>
    cases h
    rwa [eq] at hs
  next c tail _ eq =>
    split at h
    next =>
      cases h
      rwa [eq] at hs
    next =>
      split at h
      next =>
        have := length_skipSpace_le tail
        have := length_lt_of_skipSpace eq
        split at h
        next => contradiction
        next => contradiction
        next =>
          cases h
          dsimp only [Turn.rest]
          omega
      next => contradiction

theorem length_endList_lt {cs rest : List Char} (h : endList cs = .ok rest) :
    rest.length < cs.length := by
  unfold endList at h
  split at h
  next => contradiction
  next eq =>
    cases h
    exact length_lt_of_skipSpace eq
  next => split at h <;> contradiction
  next => contradiction

theorem length_key_lt {cs rest : List Char} {k : String} (h : key cs = .ok (k, rest)) :
    rest.length < cs.length := by
  unfold key at h
  split at h
  next =>
    obtain ⟨⟨chars, tail⟩, hq, eq⟩ := map_eq_ok.mp h
    obtain ⟨_, rfl⟩ := Prod.mk.inj eq
    exact Nat.lt_succ_of_lt (length_quotedChars_lt hq)
  next => contradiction

theorem length_nextKey_le {first : Bool} {cs rest : List Char} {k : Option String}
    (h : nextKey first cs = .ok (k, rest)) : rest.length ≤ cs.length := by
  have hs := length_skipSpace_le cs
  unfold nextKey at h
  split at h
  next => contradiction
  next eq =>
    cases h
    rwa [eq] at hs
  next c tail _ eq =>
    split at h
    next =>
      obtain ⟨⟨k, left⟩, hk, eq'⟩ := map_eq_ok.mp h
      obtain ⟨_, rfl⟩ := Prod.mk.inj eq'
      have := length_key_lt hk
      rw [eq] at hs
      omega
    next =>
      split at h
      next =>
        have := length_skipSpace_le tail
        have := length_lt_of_skipSpace eq
        split at h
        next => contradiction
        next => contradiction
        next =>
          obtain ⟨⟨k, left⟩, hk, eq'⟩ := map_eq_ok.mp h
          obtain ⟨_, rfl⟩ := Prod.mk.inj eq'
          have := length_key_lt hk
          omega
      next => contradiction

/-- Reads elements up to the closing bracket, which is left. -/
def elements {α : Type} (item : Scanner α) (first : Bool) (cs : List Char) :
    Scan (List α × List Char) :=
  match _turn : nextElement first cs with
  | .error fault => .error fault
  | .ok (.close rest) => .ok ([], rest)
  | .ok (.element start) =>
    match _read : item.scan start with
    | .error fault => .error fault
    | .ok (a, rest) => (elements item false rest).map fun (as, rest) => (a :: as, rest)
termination_by cs.length
decreasing_by exact Nat.lt_of_lt_of_le (item.shortens _read) (length_nextElement_le _turn)

/-- Reads the members of an object up to its closing brace, which is left. A step reads from behind
a key and takes what it reads into the state. -/
def members {σ : Type} (step : σ → String → Scanner σ) (first : Bool) (state : σ)
    (cs : List Char) : Scan (σ × List Char) :=
  match _turn : nextKey first cs with
  | .error fault => .error fault
  | .ok (none, rest) => .ok (state, rest)
  | .ok (some k, start) =>
    match _read : (step state k).scan start with
    | .error fault => .error fault
    | .ok (next, rest) => members step false next rest
termination_by cs.length
decreasing_by exact Nat.lt_of_lt_of_le ((step state k).shortens _read) (length_nextKey_le _turn)

theorem elements_close {α : Type} {item : Scanner α} {first : Bool} {cs rest : List Char}
    (h : nextElement first cs = .ok (.close rest)) : elements item first cs = .ok ([], rest) := by
  rw [elements]
  split
  all_goals simp_all

theorem elements_element {α : Type} {item : Scanner α} {first : Bool} {cs start rest : List Char}
    {a : α} (h : nextElement first cs = .ok (.element start))
    (hi : item.scan start = .ok (a, rest)) :
    elements item first cs =
      (elements item false rest).map fun (as, rest) => (a :: as, rest) := by
  rw [elements]
  split
  next => simp_all
  next => simp_all
  next eq =>
    rw [h] at eq
    cases eq
    split
    all_goals simp_all

theorem members_close {σ : Type} {step : σ → String → Scanner σ} {first : Bool} {state : σ}
    {cs rest : List Char} (h : nextKey first cs = .ok (none, rest)) :
    members step first state cs = .ok (state, rest) := by
  rw [members]
  split
  all_goals simp_all

theorem members_key {σ : Type} {step : σ → String → Scanner σ} {first : Bool} {state next : σ}
    {cs start rest : List Char} {k : String} (h : nextKey first cs = .ok (some k, start))
    (hs : (step state k).scan start = .ok (next, rest)) :
    members step first state cs = members step false next rest := by
  rw [members]
  split
  next => simp_all
  next => simp_all
  next eq =>
    rw [h] at eq
    cases eq
    split
    all_goals simp_all

theorem length_elements_le {α : Type} {item : Scanner α} {first : Bool} {cs rest : List Char}
    {as : List α} (h : elements item first cs = .ok (as, rest)) : rest.length ≤ cs.length := by
  fun_induction elements item first cs generalizing as with
  | case1 => contradiction
  | case2 first cs close turn =>
    cases h
    exact length_nextElement_le turn
  | case3 => contradiction
  | case4 first cs start turn a tail read ih =>
    obtain ⟨⟨more, left⟩, ht, eq⟩ := map_eq_ok.mp h
    obtain ⟨_, rfl⟩ := Prod.mk.inj eq
    have := length_nextElement_le turn
    have := item.shortens read
    have := ih ht
    dsimp only [Turn.rest] at *
    omega

theorem length_members_le {σ : Type} {step : σ → String → Scanner σ} {first : Bool} {state s : σ}
    {cs rest : List Char} (h : members step first state cs = .ok (s, rest)) :
    rest.length ≤ cs.length := by
  fun_induction members step first state cs with
  | case1 => contradiction
  | case2 first state cs close turn =>
    cases h
    exact length_nextKey_le turn
  | case3 => contradiction
  | case4 first state cs k start turn next tail read ih =>
    have := length_nextKey_le turn
    have := (step state k).shortens read
    have := ih h
    omega

namespace Scanner

variable {α : Type}

def text : Scanner String where
  scan cs :=
    match skipSpace cs with
    | [] => .error (.next .endInValue [])
    | '"' :: cs => (quotedChars cs).map fun (chars, rest) => (String.ofList chars, rest)
    | cs => .error (mismatch "a string" cs)
  shortens h := by
    split at h
    next => contradiction
    next eq =>
      obtain ⟨⟨chars, tail⟩, hq, eq'⟩ := map_eq_ok.mp h
      obtain ⟨_, rfl⟩ := Prod.mk.inj eq'
      exact Nat.lt_trans (length_quotedChars_lt hq) (length_lt_of_skipSpace eq)
    next => contradiction

/-- A value, or none where null is written. -/
def optional (s : Scanner α) : Scanner (Option α) where
  scan cs :=
    match skipSpace cs with
    | 'n' :: rest => (word ['u', 'l', 'l'] rest).map (none, ·)
    | cs => (s.scan cs).map fun (a, rest) => (some a, rest)
  shortens {cs a rest} h := by
    split at h
    next eq =>
      obtain ⟨tail, hw, eq'⟩ := map_eq_ok.mp h
      obtain ⟨_, rfl⟩ := Prod.mk.inj eq'
      exact Nat.lt_of_le_of_lt (length_word_le hw) (length_lt_of_skipSpace eq)
    next =>
      obtain ⟨⟨a, tail⟩, hs, eq⟩ := map_eq_ok.mp h
      obtain ⟨_, rfl⟩ := Prod.mk.inj eq
      exact Nat.lt_of_lt_of_le (s.shortens hs) (length_skipSpace_le cs)

def list (item : Scanner α) : Scanner (List α) where
  scan cs :=
    match skipSpace cs with
    | [] => .error (.next .endInValue [])
    | '[' :: cs => do
      let (as, cs) ← elements item true cs
      let rest ← endList cs
      .ok (as, rest)
    | cs => .error (mismatch "a sequence" cs)
  shortens h := by
    split at h
    next => contradiction
    next eq =>
      obtain ⟨⟨as, close⟩, he, h⟩ := bind_eq_ok.mp h
      obtain ⟨left, hc, h⟩ := bind_eq_ok.mp h
      have := length_lt_of_skipSpace eq
      have := length_elements_le he
      have := length_endList_lt hc
      cases h
      omega
    next => contradiction

/-- Reads the value of a key into a dictionary. -/
def entry (value : Scanner α) (d : Dictionary α) (k : String) : Scanner (Dictionary α) :=
  value.afterColon.map fun a => d.insert k a

/-- An object whose keys are free; of two members with the same key, the later one counts. -/
def dictionary (value : Scanner α) : Scanner (Dictionary α) where
  scan cs :=
    match skipSpace cs with
    | [] => .error (.next .endInValue [])
    | '{' :: cs => (members value.entry true ∅ cs).map fun (d, rest) => (d, rest.drop 1)
    | cs => .error (mismatch "a map" cs)
  shortens h := by
    split at h
    next => contradiction
    next eq =>
      obtain ⟨⟨d, close⟩, hm, eq'⟩ := map_eq_ok.mp h
      obtain ⟨_, rfl⟩ := Prod.mk.inj eq'
      have := length_lt_of_skipSpace eq
      have := length_members_le hm
      rw [List.length_drop]
      omega
    next => contradiction

end Scanner

end ScreenReader.Json
