import Mathlib.Data.Nat.Digits.Defs
import ScreenReader.Text.Number

namespace ScreenReader.Text

/-- What digits come to behind the number `n`, the first of them counting most. -/
def spelled (radix n : Nat) (digits : List Nat) : Nat :=
  digits.foldl (radix * · + ·) n

theorem spelled_zero (radix : Nat) (digits : List Nat) :
    spelled radix 0 digits = Nat.ofDigits radix digits.reverse := by
  rw [Nat.ofDigits_eq_foldr, List.foldr_reverse]
  unfold spelled
  congr 1
  funext n digit
  exact Nat.add_comm ..

theorem le_spelled {radix : Nat} (positive : 0 < radix) (n : Nat) (digits : List Nat) :
    n ≤ spelled radix n digits := by
  induction digits generalizing n with
  | nil => exact Nat.le_refl n
  | cons digit digits ih =>
    have grown : n ≤ radix * n := Nat.le_mul_of_pos_left n positive
    have rest : radix * n + digit ≤ spelled radix n (digit :: digits) := ih _
    omega

variable {width radix : Nat}

theorem appendDigit?_eq_some_iff {digit : Nat} {word longer : BitVec width} :
    appendDigit? radix word digit = some longer ↔ longer.toNat = radix * word.toNat + digit := by
  have exact_of_fits : radix * word.toNat + digit ≤ (BitVec.allOnes width).toNat →
      (BitVec.ofNat width radix * word + BitVec.ofNat width digit).toNat =
        radix * word.toNat + digit := by
    intro fits
    have bounded := Nat.lt_of_le_of_lt fits (BitVec.allOnes width).isLt
    rw [BitVec.toNat_add, BitVec.toNat_mul, BitVec.toNat_ofNat, BitVec.toNat_ofNat, Nat.mod_mul_mod,
      ← Nat.add_mod, Nat.mod_eq_of_lt bounded]
  unfold appendDigit?
  constructor
  · intro appended
    split at appended
    next fits =>
      cases appended
      exact exact_of_fits fits
    next => cases appended
  · intro same
    have fits : radix * word.toNat + digit ≤ (BitVec.allOnes width).toNat := by
      rw [← same, BitVec.toNat_allOnes]
      exact Nat.le_sub_one_of_lt longer.isLt
    rw [if_pos fits]
    congr 1
    exact BitVec.eq_of_toNat_eq ((exact_of_fits fits).trans same.symm)

/-- What the digits of a row come to behind a word, if all of it fits. -/
theorem foldlM_appendDigit?_eq_some_iff {digit? : Char → Option Nat} (positive : 0 < radix)
    {cs : List Char} {word whole : BitVec width} :
    cs.foldlM (fun word c => (digit? c).bind (appendDigit? radix word)) word = some whole ↔
      ∃ digits, cs.map digit? = digits.map some ∧
        whole.toNat = spelled radix word.toNat digits := by
  induction cs generalizing word with
  | nil =>
    constructor
    · intro read
      cases read
      exact ⟨[], rfl, rfl⟩
    · rintro ⟨digits, none_left, same⟩
      obtain rfl : digits = [] := by simpa using none_left.symm
      exact congrArg some (BitVec.eq_of_toNat_eq same.symm)
  | cons c cs ih =>
    rw [List.foldlM_cons, Option.bind_eq_bind, Option.bind_eq_some_iff]
    constructor
    · rintro ⟨longer, step, read⟩
      obtain ⟨digit, first, appended⟩ := Option.bind_eq_some_iff.mp step
      obtain ⟨digits, rest, same⟩ := ih.mp read
      rw [appendDigit?_eq_some_iff.mp appended] at same
      exact ⟨digit :: digits, by rw [List.map_cons, List.map_cons, first, rest], same⟩
    · rintro ⟨digits, all, same⟩
      cases digits with
      | nil => simp at all
      | cons digit digits =>
        obtain ⟨first, rest⟩ := List.cons.inj all
        -- The number only grows from digit to digit, so that it fits here if it fits in the end.
        have grown : radix * word.toNat + digit ≤ whole.toNat := same ▸ le_spelled positive _ digits
        have fits : radix * word.toNat + digit < 2 ^ width := Nat.lt_of_le_of_lt grown whole.isLt
        have appended := appendDigit?_eq_some_iff.mpr (BitVec.toNat_ofNatLT _ fits)
        exact ⟨_, Option.bind_eq_some_iff.mpr ⟨digit, first, appended⟩, ih.mpr ⟨digits, rest, same⟩⟩

theorem word?_eq_some_iff {digit? : Char → Option Nat} (positive : 0 < radix) {cs : List Char}
    {word : BitVec width} :
    word? width radix digit? cs = some word ↔
      unsigned cs ≠ [] ∧ ∃ digits : List Nat, (unsigned cs).map digit? = digits.map some ∧
        word.toNat = Nat.ofDigits radix digits.reverse := by
  have nothing : (0 : BitVec width).toNat = 0 := BitVec.toNat_zero
  unfold word?
  dsimp only
  split
  next missing =>
    simp [List.isEmpty_iff.mp missing]
  next present =>
    have present : unsigned cs ≠ [] := fun missing => present (List.isEmpty_iff.mpr missing)
    rw [foldlM_appendDigit?_eq_some_iff positive, nothing]
    simp only [spelled_zero, present, ne_eq, not_false_eq_true, true_and]

/-- A row is read digit by digit where all of its characters are digits. -/
theorem map_digit?_eq_iff {digit? : Char → Option Nat} {isDigit : Char → Prop}
    [DecidablePred isDigit] {value : Char → Nat}
    (known : ∀ c, digit? c = if isDigit c then some (value c) else none) {cs : List Char}
    {digits : List Nat} :
    cs.map digit? = digits.map some ↔ (∀ c ∈ cs, isDigit c) ∧ digits = cs.map value := by
  induction cs generalizing digits with
  | nil => cases digits <;> simp
  | cons c cs ih =>
    cases digits with
    | nil => simp
    | cons digit digits =>
      rw [List.map_cons, List.map_cons, List.map_cons, List.cons.injEq, List.cons.injEq, ih, known,
        List.forall_mem_cons]
      by_cases mem : isDigit c
      · rw [if_pos mem, Option.some.injEq]
        constructor
        · rintro ⟨rfl, all, rfl⟩
          exact ⟨⟨mem, all⟩, rfl, rfl⟩
        · rintro ⟨⟨_, all⟩, rfl, rfl⟩
          exact ⟨rfl, all, rfl⟩
      · simp [mem]

/-- The characters of a number in decimal digits, which a plus may precede. -/
def IsDecimal (cs : List Char) (n : Nat) : Prop :=
  ∃ sign digits : List Char, cs = sign ++ digits ∧ (sign = [] ∨ sign = ['+']) ∧ digits ≠ [] ∧
    (∀ c ∈ digits, c.isDigit) ∧ Nat.ofDigitChars 10 digits 0 = n

theorem unsigned_of_digits {digits : List Char} (all : ∀ c ∈ digits, c.isDigit) :
    unsigned digits = digits := by
  unfold unsigned
  split
  next rest =>
    have plus : '+'.isDigit := all '+' List.mem_cons_self
    exact absurd plus (by decide)
  next => rfl

theorem isDecimal_iff {cs : List Char} {n : Nat} :
    IsDecimal cs n ↔ unsigned cs ≠ [] ∧ (∀ c ∈ unsigned cs, c.isDigit) ∧
      Nat.ofDigitChars 10 (unsigned cs) 0 = n := by
  constructor
  · rintro ⟨sign, digits, rfl, rfl | rfl, present, all, value⟩
    · rw [List.nil_append, unsigned_of_digits all]
      exact ⟨present, all, value⟩
    · exact ⟨present, all, value⟩
  · rintro ⟨present, all, value⟩
    have split : cs = unsigned cs ∨ cs = ['+'] ++ unsigned cs := by
      unfold unsigned
      split
      next => exact .inr rfl
      next => exact .inl rfl
    rcases split with eq | eq
    · exact ⟨[], unsigned cs, eq, .inl rfl, present, all, value⟩
    · exact ⟨['+'], unsigned cs, eq, .inr rfl, present, all, value⟩

theorem decimalWord?_eq_some_iff {cs : List Char} {word : BitVec width} :
    word? width 10 decimalDigit? cs = some word ↔ IsDecimal cs word.toNat := by
  have value : ∀ digits : List Char,
      Nat.ofDigits 10 (digits.map (·.toNat - 48)).reverse = Nat.ofDigitChars 10 digits 0 := by
    intro digits
    rw [← spelled_zero, spelled, List.foldl_map]
    rfl
  rw [word?_eq_some_iff (by decide), isDecimal_iff]
  constructor
  · rintro ⟨present, digits, read, same⟩
    obtain ⟨all, rfl⟩ := (map_digit?_eq_iff fun _ => rfl).mp read
    exact ⟨present, all, (value _).symm.trans same.symm⟩
  · rintro ⟨present, all, same⟩
    refine ⟨present, _, (map_digit?_eq_iff fun _ => rfl).mpr ⟨all, rfl⟩, ?_⟩
    exact same.symm.trans (value _).symm

theorem isDecimal_toDigits (n : Nat) : IsDecimal (Nat.toDigits 10 n) n :=
  ⟨[], Nat.toDigits 10 n, rfl, .inl rfl, Nat.toDigits_ne_nil,
    fun _ => Nat.isDigit_of_mem_toDigits (by decide) (by decide), Nat.ofDigitChars_ten_toDigits⟩

end ScreenReader.Text
