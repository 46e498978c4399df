import ScreenReader.Json.Scanner
import ScreenReader.Text.CodePoint

namespace ScreenReader.Json

/-- The escapes of one letter. -/
def letterEscape? : Char → Option Char
  | '"' => some '"'
  | '\\' => some '\\'
  | '/' => some '/'
  | 'b' => some '\x08'
  | 'f' => some '\x0c'
  | 'n' => some '\n'
  | 'r' => some '\r'
  | 't' => some '\t'
  | _ => none

/-- Four hexadecimal digits. They are taken as four bytes, so a failure is reported behind these. -/
def hexQuad : List Char → Scan (Nat × List Char)
  | a :: b :: c :: d :: rest =>
    match Text.hexNumber? [a, b, c, d] with
    | some n => .ok (n, rest)
    | none => .error ⟨.invalidEscape, a :: b :: c :: d :: rest, 4⟩
  | cs => .error (if byteSize cs < 4 then .here .endInText [] else ⟨.invalidEscape, cs, 4⟩)

theorem length_hexQuad_lt {cs rest : List Char} {n : Nat} (h : hexQuad cs = .ok (n, rest)) :
    rest.length < cs.length := by
  unfold hexQuad at h
  split at h
  next =>
    split at h
    next =>
      cases h
      simp only [List.length_cons]
      omega
    next => contradiction
  next => contradiction

def isLeadingSurrogate (n : Nat) : Bool := 0xD800 ≤ n && n < 0xDC00

def isTrailingSurrogate (n : Nat) : Bool := 0xDC00 ≤ n && n < 0xE000

/-- A character that has to follow within a pair of escapes. -/
def follows (expected : Char) : List Char → Scan (List Char)
  | [] => .error (.here .endInText [])
  | c :: rest => if c = expected then .ok rest else .error (.next .brokenPair (c :: rest))

theorem length_follows_lt {expected : Char} {cs rest : List Char}
    (h : follows expected cs = .ok rest) : rest.length < cs.length := by
  unfold follows at h
  split at h
  next => contradiction
  next =>
    split at h
    next =>
      cases h
      exact Nat.lt_succ_self _
    next => contradiction

/-- The escape that ends a pair begun by the surrogate `high`. -/
def pairEnd (high : Nat) (cs : List Char) : Scan (Char × List Char) := do
  let cs ← follows '\\' cs
  let cs ← follows 'u' cs
  let (low, rest) ← hexQuad cs
  if isTrailingSurrogate low then
    .ok (Char.ofNat (0x10000 + (high - 0xD800) * 0x400 + (low - 0xDC00)), rest)
  else .error (.here .loneSurrogate rest)

theorem length_pairEnd_lt {high : Nat} {cs rest : List Char} {c : Char}
    (h : pairEnd high cs = .ok (c, rest)) : rest.length < cs.length := by
  obtain ⟨mid, hb, h⟩ := bind_eq_ok.mp h
  obtain ⟨tail, hu, h⟩ := bind_eq_ok.mp h
  obtain ⟨⟨low, left⟩, hq, h⟩ := bind_eq_ok.mp h
  have := length_follows_lt hb
  have := length_follows_lt hu
  have := length_hexQuad_lt hq
  dsimp only at h
  split at h
  next =>
    obtain ⟨_, rfl⟩ := Prod.mk.inj (Except.ok.inj h)
    omega
  next => contradiction

/-- The character that an escape stands for, read from behind its backslash. -/
def escape : List Char → Scan (Char × List Char)
  | [] => .error (.here .endInText [])
  | 'u' :: cs => do
    let (n, rest) ← hexQuad cs
    if isTrailingSurrogate n then .error (.here .loneSurrogate rest)
    else if isLeadingSurrogate n then pairEnd n rest
    else .ok (Char.ofNat n, rest)
  | c :: rest =>
    match letterEscape? c with
    | some a => .ok (a, rest)
    | none => .error (.next .invalidEscape (c :: rest))

theorem length_escape_lt {cs rest : List Char} {c : Char} (h : escape cs = .ok (c, rest)) :
    rest.length < cs.length := by
  unfold escape at h
  split at h
  next => contradiction
  next =>
    obtain ⟨⟨n, tail⟩, hq, h⟩ := bind_eq_ok.mp h
    have := length_hexQuad_lt hq
    rw [List.length_cons]
    dsimp only at h
    split at h
    next => contradiction
    next =>
      split at h
      next =>
        have := length_pairEnd_lt h
        omega
      next =>
        cases h
        omega
  next =>
    split at h
    next =>
      cases h
      exact Nat.lt_succ_self _
    next => contradiction

/-- The characters of a text up to its closing quote, read from behind the opening one. -/
def quotedChars (cs : List Char) : Scan (List Char × List Char) :=
  match cs with
  | [] => .error (.here .endInText [])
  | '"' :: rest => .ok ([], rest)
  | '\\' :: cs =>
    match _h : escape cs with
    | .error fault => .error fault
    | .ok (c, tail) => (quotedChars tail).map fun (chars, rest) => (c :: chars, rest)
  | c :: cs =>
    if c.toNat < 0x20 then .error (.next .controlCharacter (c :: cs))
    else (quotedChars cs).map fun (chars, rest) => (c :: chars, rest)
termination_by cs.length
decreasing_by
  · exact Nat.lt_succ_of_lt (length_escape_lt _h)
  · exact Nat.lt_succ_self _

theorem quotedChars_close (rest : List Char) : quotedChars ('"' :: rest) = .ok ([], rest) := by
  rw [quotedChars]

theorem quotedChars_escape {cs tail : List Char} {c : Char} (h : escape cs = .ok (c, tail)) :
    quotedChars ('\\' :: cs) = (quotedChars tail).map fun (chars, rest) => (c :: chars, rest) := by
  rw [quotedChars]
  split
  next he => rw [he] at h; contradiction
  next he =>
    rw [he] at h
    obtain ⟨rfl, rfl⟩ := Prod.mk.inj (Except.ok.inj h)
    rfl

theorem quotedChars_plain {c : Char} (quote : c ≠ '"') (backslash : c ≠ '\\')
    (shown : ¬c.toNat < 0x20) (cs : List Char) :
    quotedChars (c :: cs) = (quotedChars cs).map fun (chars, rest) => (c :: chars, rest) := by
  rw [quotedChars]
  · rw [if_neg shown]
  · exact quote
  · exact backslash

theorem length_quotedChars_lt {cs rest chars : List Char}
    (h : quotedChars cs = .ok (chars, rest)) : rest.length < cs.length := by
  fun_induction quotedChars cs generalizing chars with
  | case1 => contradiction
  | case2 =>
    cases h
    exact Nat.lt_succ_self _
  | case3 => contradiction
  | case4 cs c tail he ih =>
    obtain ⟨⟨more, left⟩, ht, eq⟩ := map_eq_ok.mp h
    obtain ⟨_, rfl⟩ := Prod.mk.inj eq
    exact Nat.lt_succ_of_lt (Nat.lt_trans (ih ht) (length_escape_lt he))
  | case5 => contradiction
  | case6 c cs _ _ _ ih =>
    obtain ⟨⟨more, left⟩, ht, eq⟩ := map_eq_ok.mp h
    obtain ⟨_, rfl⟩ := Prod.mk.inj eq
    exact Nat.lt_succ_of_lt (ih ht)

/-- Passes over an escape without asking what it stands for. -/
def skipEscape : List Char → Scan (List Char)
  | [] => .error (.here .endInText [])
  | 'u' :: cs => (hexQuad cs).map Prod.snd
  | c :: rest =>
    if (letterEscape? c).isSome then .ok rest else .error (.next .invalidEscape (c :: rest))

theorem length_skipEscape_lt {cs rest : List Char} (h : skipEscape cs = .ok rest) :
    rest.length < cs.length := by
  unfold skipEscape at h
  split at h
  next => contradiction
  next =>
    obtain ⟨⟨n, tail⟩, hq, rfl⟩ := map_eq_ok.mp h
    exact Nat.lt_succ_of_lt (length_hexQuad_lt hq)
  next =>
    split at h
    next =>
      cases h
      exact Nat.lt_succ_self _
    next => contradiction

/-- Passes over a text up to its closing quote. -/
def skipQuoted (cs : List Char) : Scan (List Char) :=
  match cs with
  | [] => .error (.here .endInText [])
  | '"' :: rest => .ok rest
  | '\\' :: cs =>
    match _h : skipEscape cs with
    | .error fault => .error fault
    | .ok tail => skipQuoted tail
  | c :: cs =>
    if c.toNat < 0x20 then .error (.here .controlCharacter (c :: cs)) else skipQuoted cs
termination_by cs.length
decreasing_by
  · exact Nat.lt_succ_of_lt (length_skipEscape_lt _h)
  · exact Nat.lt_succ_self _

theorem length_skipQuoted_lt {cs rest : List Char} (h : skipQuoted cs = .ok rest) :
    rest.length < cs.length := by
  fun_induction skipQuoted cs with
  | case1 => contradiction
  | case2 =>
    cases h
    exact Nat.lt_succ_self _
  | case3 => contradiction
  | case4 cs tail he ih =>
    exact Nat.lt_succ_of_lt (Nat.lt_trans (ih h) (length_skipEscape_lt he))
  | case5 => contradiction
  | case6 c cs _ _ _ ih => exact Nat.lt_succ_of_lt (ih h)

end ScreenReader.Json
