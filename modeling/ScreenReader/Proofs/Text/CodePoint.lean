import Mathlib.Data.List.Induction
import ScreenReader.Proofs.Text.Number
import ScreenReader.Text.CodePoint

namespace ScreenReader.Text

/-- The digits in the order of their values, and behind them the letters in upper case. -/
def hexDigits : List Char :=
  ['0', '1', '2', '3', '4', '5', '6', '7', '8', '9', 'a', 'b', 'c', 'd', 'e', 'f',
    'A', 'B', 'C', 'D', 'E', 'F']

def IsHex (s : String) : Prop :=
  s ≠ "" ∧ ∀ c ∈ s.toList, c ∈ hexDigits

def digitValue (c : Char) : Nat :=
  hexDigits.idxOf c.toLower

/-- The number that hexadecimal digits spell, however many there are. -/
def hexValue (s : String) : Nat :=
  Nat.ofDigits 16 (s.toList.reverse.map digitValue)

def IsScalar (n : Nat) : Prop :=
  n ≤ 0x10FFFF ∧ ¬(0xD800 ≤ n ∧ n ≤ 0xDFFF)

theorem ascii_cases {motive : Char → Prop} (ascii : ∀ n < 128, motive (Char.ofNat n))
    (other : ∀ c : Char, 128 ≤ c.toNat → motive c) (c : Char) : motive c := by
  by_cases low : c.toNat < 128
  · have checked := ascii c.toNat low
    rwa [Char.ofNat_toNat] at checked
  · exact other c (by omega)

theorem hexDigit?_of_not_ascii {c : Char} (high : 128 ≤ c.toNat) : hexDigit? c = none := by
  have above : ∀ d : Char, d.toNat < 128 → ¬c ≤ d := by
    intro d low le
    have : c.toNat ≤ d.toNat := le
    omega
  unfold hexDigit?
  rw [if_neg fun h => above '9' (by decide) h.2, if_neg fun h => above 'f' (by decide) h.2,
    if_neg fun h => above 'F' (by decide) h.2]

theorem not_mem_hexDigits_of_not_ascii {c : Char} (high : 128 ≤ c.toNat) : c ∉ hexDigits := by
  have low : hexDigits.all (·.toNat < 128) := by decide
  intro mem
  have := List.all_eq_true.mp low c mem
  simp only [decide_eq_true_eq] at this
  omega

theorem toLower_of_not_ascii {c : Char} (high : 128 ≤ c.toNat) : c.toLower = c := by
  unfold Char.toLower
  refine dif_neg fun upper => ?_
  have : c.toNat ≤ 90 := upper.2
  omega

theorem hexDigit?_eq (c : Char) :
    hexDigit? c = if c ∈ hexDigits then some (digitValue c) else none := by
  induction c using ascii_cases with
  | ascii n low => decide +revert +kernel
  | other c high =>
    rw [hexDigit?_of_not_ascii high, if_neg (not_mem_hexDigits_of_not_ascii high)]

theorem isSome_hexDigit?_iff {c : Char} : (hexDigit? c).isSome ↔ c ∈ hexDigits := by
  rw [hexDigit?_eq]
  split
  next mem => simp [mem]
  next junk => simp [junk]

theorem hexDigit?_toLower (c : Char) : hexDigit? c.toLower = hexDigit? c := by
  induction c using ascii_cases with
  | ascii n low => decide +revert +kernel
  | other c high => rw [toLower_of_not_ascii high]

theorem toLower_mem_hexDigits_iff (c : Char) : c.toLower ∈ hexDigits ↔ c ∈ hexDigits := by
  rw [← isSome_hexDigit?_iff, ← isSome_hexDigit?_iff, hexDigit?_toLower]

theorem digitValue_toLower (c : Char) : digitValue c.toLower = digitValue c := by
  have once : c.toLower.toLower = c.toLower := by
    induction c using ascii_cases with
    | ascii n low => decide +revert +kernel
    | other c high => rw [toLower_of_not_ascii high, toLower_of_not_ascii high]
  rw [digitValue, once, digitValue]

theorem digitChar_mem_hexDigits {n : Nat} (small : n < 16) : n.digitChar ∈ hexDigits := by
  decide +revert +kernel

theorem digitValue_digitChar {n : Nat} (small : n < 16) : digitValue n.digitChar = n := by
  decide +revert +kernel

theorem map_hexDigit?_eq_iff {cs : List Char} {digits : List Nat} :
    cs.map hexDigit? = digits.map some ↔
      (∀ c ∈ cs, c ∈ hexDigits) ∧ digits = cs.map digitValue :=
  map_digit?_eq_iff hexDigit?_eq

theorem hexNumber?_of_hexDigits {cs : List Char} (digits : ∀ c ∈ cs, c ∈ hexDigits) :
    hexNumber? cs = some (Nat.ofDigits 16 (cs.reverse.map digitValue)) := by
  induction cs using List.reverseRecOn with
  | nil => rfl
  | append_singleton cs c ih =>
    have last : hexDigit? c = some (digitValue c) := by
      rw [hexDigit?_eq, if_pos (digits c (by simp))]
    have front := ih fun d mem => digits d (by simp [mem])
    unfold hexNumber? at front ⊢
    rw [List.foldlM_append, front, List.reverse_append, List.reverse_singleton,
      List.singleton_append, List.map_cons, Nat.ofDigits_cons, Nat.add_comm]
    simp [last]

theorem toNat_of_utf16Units_singleton {c : Char} {n : Nat} (units : utf16Units c = [n]) :
    c.toNat = n := by
  unfold utf16Units at units
  dsimp only at units
  split at units
  next => exact List.head_eq_of_cons_eq units
  next => simp at units

theorem toNat_of_utf16Units_pair {c : Char} {high low : Nat} (units : utf16Units c = [high, low]) :
    0x10000 ≤ c.toNat ∧ high = 0xD800 + (c.toNat - 0x10000) / 0x400 ∧
      low = 0xDC00 + (c.toNat - 0x10000) % 0x400 := by
  unfold utf16Units at units
  dsimp only at units
  split at units
  next => simp at units
  next large =>
    obtain ⟨rfl, rfl⟩ : _ = high ∧ _ = low := by simpa using units
    exact ⟨Nat.not_lt.mp large, rfl, rfl⟩

theorem isScalar_iff {n : Nat} : IsScalar n ↔ n.isValidChar := by
  unfold IsScalar Nat.isValidChar
  omega

theorem scalar?_eq_some_iff {n : Nat} {c : Char} : scalar? n = some c ↔ c.toNat = n := by
  rw [scalar?, Option.dite_none_right_eq_some]
  constructor
  · rintro ⟨valid, read⟩
    cases read
    rfl
  · rintro rfl
    exact ⟨c.valid, rfl⟩

theorem exists_toNat_eq_iff {n : Nat} : (∃ c : Char, c.toNat = n) ↔ IsScalar n := by
  rw [isScalar_iff]
  constructor
  · rintro ⟨c, rfl⟩
    exact c.valid
  · intro valid
    exact ⟨Char.ofNatAux n valid, rfl⟩

theorem unsigned_of_hexDigits {cs : List Char} (digits : ∀ c ∈ cs, c ∈ hexDigits) :
    unsigned cs = cs := by
  unfold unsigned
  split
  next rest =>
    have plus : '+' ∈ hexDigits := digits '+' List.mem_cons_self
    exact absurd plus (by decide +kernel)
  next => rfl

theorem isHex_iff_toList {s : String} :
    IsHex s ↔ s.toList ≠ [] ∧ ∀ c ∈ s.toList, c ∈ hexDigits := by
  rw [IsHex, ne_eq, ne_eq, String.toList_eq_nil_iff]

theorem word?_of_isHex {s : String} (hex : IsHex s) {word : BitVec 32} :
    word? 32 16 hexDigit? s.toList = some word ↔ word.toNat = hexValue s := by
  have value : hexValue s = Nat.ofDigits 16 (s.toList.map digitValue).reverse := by
    rw [hexValue, List.map_reverse]
  rw [word?_eq_some_iff (by decide), unsigned_of_hexDigits hex.2, value]
  constructor
  · rintro ⟨_, digits, read, same⟩
    rw [same, (map_hexDigit?_eq_iff.mp read).2]
  · intro same
    exact ⟨(isHex_iff_toList.mp hex).1, _, map_hexDigit?_eq_iff.mpr ⟨hex.2, rfl⟩, same⟩

/-- A character is read exactly where its code point is spelled in digits alone. -/
theorem ofHex?_eq_some_iff {s : String} {c : Char} :
    ofHex? s = some c ↔ IsHex s ∧ c.toNat = hexValue s := by
  have refused_iff : (s.isEmpty || !s.toList.all fun c => (hexDigit? c).isSome) = true ↔
      ¬IsHex s := by
    simp only [Bool.or_eq_true, String.isEmpty_iff, Bool.not_eq_true', Bool.eq_false_iff, ne_eq,
      List.all_eq_true, isSome_hexDigit?_iff, IsHex]
    tauto
  unfold ofHex?
  split
  next refused =>
    have junk := refused_iff.mp refused
    simp [junk]
  next taken =>
    have hex : IsHex s := not_not.mp (mt refused_iff.mpr taken)
    rw [Option.bind_eq_some_iff]
    constructor
    · rintro ⟨word, read, scalar⟩
      exact ⟨hex, (scalar?_eq_some_iff.mp scalar).trans ((word?_of_isHex hex).mp read)⟩
    · rintro ⟨_, value⟩
      have fits : c.toNat < 2 ^ 32 := c.val.toNat_lt
      exact ⟨BitVec.ofNatLT c.toNat fits, (word?_of_isHex hex).mpr value,
        scalar?_eq_some_iff.mpr rfl⟩

theorem isSome_ofHex?_iff {s : String} : (ofHex? s).isSome ↔ IsHex s ∧ IsScalar (hexValue s) := by
  rw [Option.isSome_iff_exists, ← exists_toNat_eq_iff]
  simp only [ofHex?_eq_some_iff, exists_and_left]

theorem ofHex?_congr {s t : String} (hex : IsHex s ↔ IsHex t) (value : hexValue s = hexValue t) :
    ofHex? s = ofHex? t := by
  refine Option.ext fun c => ?_
  rw [ofHex?_eq_some_iff, ofHex?_eq_some_iff, hex, value]

theorem toList_toLower (s : String) : s.toLower.toList = s.toList.map Char.toLower :=
  String.toList_map

theorem ofHex?_toLower (s : String) : ofHex? s.toLower = ofHex? s := by
  refine ofHex?_congr ?_ ?_
  · rw [isHex_iff_toList, isHex_iff_toList, toList_toLower, List.forall_mem_map, ne_eq,
      List.map_eq_nil_iff]
    simp only [toLower_mem_hexDigits_iff, ne_eq]
  · unfold hexValue
    rw [toList_toLower, ← List.map_reverse, List.map_map]
    congr 1
    exact List.map_congr_left fun c _ => digitValue_toLower c

theorem ofHex?_leading_zeros {s : String} (present : s ≠ "") (n : Nat) :
    ofHex? (String.ofList (List.replicate n '0') ++ s) = ofHex? s := by
  have chars : (String.ofList (List.replicate n '0') ++ s).toList =
      List.replicate n '0' ++ s.toList := by
    rw [String.toList_append, String.toList_ofList]
  have zero : '0' ∈ hexDigits := by decide +kernel
  refine ofHex?_congr ?_ ?_
  · have present : s.toList ≠ [] := mt String.toList_eq_nil_iff.mp present
    rw [isHex_iff_toList, isHex_iff_toList, chars, List.forall_mem_append]
    simp [present, zero]
  · have zero : digitValue '0' = 0 := by decide +kernel
    unfold hexValue
    rw [chars, List.reverse_append, List.map_append, List.reverse_replicate, List.map_replicate, zero,
      Nat.ofDigits_append_replicate_zero]

theorem isHex_toDigits (n : Nat) : IsHex (String.ofList (Nat.toDigits 16 n)) := by
  rw [isHex_iff_toList, String.toList_ofList]
  refine ⟨Nat.toDigits_ne_nil, ?_⟩
  induction n using Nat.strongRecOn with
  | ind n ih =>
    by_cases small : n < 16
    · rw [Nat.toDigits_of_lt_base small, List.forall_mem_singleton]
      exact digitChar_mem_hexDigits small
    · have last : n % 16 < 16 := Nat.mod_lt n (by decide)
      rw [Nat.toDigits_of_base_le (by decide) (by omega), List.forall_mem_append,
        List.forall_mem_singleton]
      exact ⟨ih (n / 16) (by omega), digitChar_mem_hexDigits last⟩

theorem hexValue_toDigits (n : Nat) : hexValue (String.ofList (Nat.toDigits 16 n)) = n := by
  unfold hexValue
  rw [String.toList_ofList]
  induction n using Nat.strongRecOn with
  | ind n ih =>
    by_cases small : n < 16
    · rw [Nat.toDigits_of_lt_base small, List.reverse_singleton, List.map_singleton,
        Nat.ofDigits_singleton, digitValue_digitChar small]
    · have last : n % 16 < 16 := Nat.mod_lt n (by decide)
      rw [Nat.toDigits_of_base_le (by decide) (by omega), List.reverse_append,
        List.reverse_singleton, List.singleton_append, List.map_cons, Nat.ofDigits_cons,
        digitValue_digitChar last, ih (n / 16) (by omega)]
      exact Nat.mod_add_div n 16

theorem ofHex?_toDigits (c : Char) : ofHex? (String.ofList (Nat.toDigits 16 c.toNat)) = some c :=
  ofHex?_eq_some_iff.mpr ⟨isHex_toDigits c.toNat, (hexValue_toDigits c.toNat).symm⟩

theorem utf16Units_eq (c : Char) :
    utf16Units c =
      if c.toNat < 0x10000 then [c.toNat]
      else [0xD800 + (c.toNat - 0x10000) >>> 10, 0xDC00 + ((c.toNat - 0x10000) &&& 0x3FF)] := by
  have high : (c.toNat - 0x10000) >>> 10 = (c.toNat - 0x10000) / 0x400 :=
    Nat.shiftRight_eq_div_pow _ 10
  have low : (c.toNat - 0x10000) &&& 0x3FF = (c.toNat - 0x10000) % 0x400 :=
    Nat.and_two_pow_sub_one_eq_mod _ 10
  rw [high, low]
  rfl

theorem text_eq_iff {s t : String} (hs : (ofHex? s).isSome) (ht : (ofHex? t).isSome) :
    (ofHex? s).map String.singleton = (ofHex? t).map String.singleton ↔
      hexValue s = hexValue t := by
  obtain ⟨c, readC⟩ := Option.isSome_iff_exists.mp hs
  obtain ⟨d, readD⟩ := Option.isSome_iff_exists.mp ht
  rw [readC, readD, Option.map_some, Option.map_some, Option.some.injEq, String.singleton_inj,
    ← (ofHex?_eq_some_iff.mp readC).2, ← (ofHex?_eq_some_iff.mp readD).2, Char.toNat_inj]

/-- A text of one character is read from hexadecimal digits alone, however many they are, where the
number that they spell is the character's code point. So neither the case of the letters nor leading
zeros make a difference, different numbers give different texts, and each character is read from its
own digits. -/
theorem hex_scalars_read_exactly :
    (∀ s, (ofHex? s).isSome ↔ IsHex s ∧ IsScalar (hexValue s)) ∧
    (∀ s text, (ofHex? s).map String.singleton = some text →
      ∃ c : Char, text.toList = [c] ∧ c.toNat = hexValue s ∧ utf16Units c =
        if hexValue s < 0x10000 then [hexValue s]
        else [0xD800 + ((hexValue s - 0x10000) >>> 10),
          0xDC00 + ((hexValue s - 0x10000) &&& 0x3FF)]) ∧
    (∀ s t : String, s.toLower = t.toLower → ofHex? s = ofHex? t) ∧
    (∀ s n, s ≠ "" → ofHex? (String.ofList (List.replicate n '0') ++ s) = ofHex? s) ∧
    (∀ s t, (ofHex? s).isSome → (ofHex? t).isSome →
      ((ofHex? s).map String.singleton = (ofHex? t).map String.singleton ↔
        hexValue s = hexValue t)) ∧
    ∀ c : Char, ofHex? (String.ofList (Nat.toDigits 16 c.toNat)) = some c := by
  refine ⟨fun s => isSome_ofHex?_iff, fun s text read => ?_, fun s t same => ?_,
    fun s n present => ofHex?_leading_zeros present n, fun s t => text_eq_iff, ofHex?_toDigits⟩
  · obtain ⟨c, decoded, rfl⟩ := Option.map_eq_some_iff.mp read
    have value := (ofHex?_eq_some_iff.mp decoded).2
    rw [← value]
    exact ⟨c, String.toList_singleton c, rfl, utf16Units_eq c⟩
  · rw [← ofHex?_toLower s, same, ofHex?_toLower]

theorem bold_capital_read_in_either_case :
    (∃ c : Char, "𝐀".toList = [c] ∧ c.toNat = 0x1D400 ∧ utf16Units c = [0xD835, 0xDC00]) ∧
      ofHex? "1D400" = ofHex? "1d400" ∧ ofHex? "0001d400" = ofHex? "1d400" ∧
      hexValue "1D400" = hexValue "1d400" := by
  obtain ⟨_, read, recased, padded, injective, _⟩ := hex_scalars_read_exactly
  have lower : ofHex? "1d400" = some '𝐀' := by decide +kernel
  have folded : "1D400".toLower = "1d400".toLower := by
    rw [← String.toList_inj, toList_toLower, toList_toLower]
    decide +kernel
  have same := recased "1D400" "1d400" folded
  have upper : ofHex? "1D400" = some '𝐀' := same.trans lower
  have number : hexValue "1D400" = 0x1D400 := by decide +kernel
  have units := read "1D400" "𝐀" (by rw [upper]; rfl)
  rw [number] at units
  have values := injective "1D400" "1d400" (by rw [upper]; rfl) (by rw [lower]; rfl)
  exact ⟨units, same, padded "1d400" 3 (by decide), values.mp (by rw [same])⟩

end ScreenReader.Text
