import ScreenReader.Proofs.Text.Blank
import ScreenReader.Proofs.Text.Number
import ScreenReader.Settings

namespace ScreenReader.Settings

open Text

section Limit

/-- The encoding of a decimal number with any blanks around it. -/
def IsLimit (bytes : Bytes) (n : Nat) : Prop :=
  ∃ lead core trail : List Char, (∀ c ∈ lead, isBlank c) ∧ (∀ c ∈ trail, isBlank c) ∧
    IsDecimal core n ∧ encode (String.ofList (lead ++ core ++ trail)) = bytes

variable {bytes : Bytes} {env : Environment} {n : Nat}

theorem not_isBlank_of_isDigit {c : Char} (digit : c.isDigit) : ¬isBlank c := by
  have low : 48 ≤ c.toNat ∧ c.toNat ≤ 57 := Char.isDigit_iff_toNat.mp digit
  simp only [isBlank, Bool.or_eq_true, Bool.and_eq_true, decide_eq_true_eq, beq_iff_eq]
  omega

theorem isTrimmed_of_isDecimal {cs : List Char} (decimal : IsDecimal cs n) : IsTrimmed cs := by
  obtain ⟨sign, digits, rfl, signed, -, all, -⟩ := decimal
  have solid : ∀ c ∈ sign ++ digits, ¬isBlank c := by
    intro c mem
    rcases List.mem_append.mp mem with mem | mem
    · rcases signed with rfl | rfl
      · cases mem
      · rw [List.mem_singleton.mp mem]
        decide
    · exact not_isBlank_of_isDigit (all c mem)
  exact ⟨fun c first => solid c (List.mem_of_head? first),
    fun c last => solid c (List.mem_of_getLast? last)⟩

theorem limitOf?_eq_some_iff {text : String} :
    limitOf? text = some n ↔ IsDecimal text.toList n ∧ n < UInt64.size := by
  unfold limitOf?
  rw [Option.map_eq_some_iff]
  simp only [decimalWord?_eq_some_iff]
  constructor
  · rintro ⟨word, decimal, rfl⟩
    exact ⟨decimal, word.isLt⟩
  · rintro ⟨decimal, fits⟩
    exact ⟨BitVec.ofNatLT n fits, decimal, rfl⟩

theorem limit_read_iff :
    (decode? bytes).bind (limitOf? <| trim ·) = some n ↔ IsLimit bytes n ∧ n < UInt64.size := by
  rw [Option.bind_eq_some_iff]
  simp only [decode?_eq_some_iff, limitOf?_eq_some_iff]
  constructor
  · rintro ⟨text, encoded, decimal, fits⟩
    obtain ⟨lead, trail, before, behind, whole⟩ := exists_padding text
    refine ⟨⟨lead, (trim text).toList, trail, before, behind, decimal, ?_⟩, fits⟩
    rw [← whole, String.ofList_toList, encoded]
  · rintro ⟨⟨lead, core, trail, before, behind, decimal, encoded⟩, fits⟩
    refine ⟨_, encoded, ?_, fits⟩
    rw [trim_of_padded before behind (isTrimmed_of_isDecimal decimal), String.toList_ofList]
    exact decimal

theorem historyLimit_of_isLimit (set : env.historyLimit = some bytes) (spelled : IsLimit bytes n)
    (fits : n < UInt64.size) : (ofEnvironment env).historyLimit = max 1 n := by
  have read := limit_read_iff.mpr ⟨spelled, fits⟩
  simp only [ofEnvironment, set, Option.bind_some, read, Option.getD_some]

theorem historyLimit_cases (env : Environment) :
    (∃ bytes n, env.historyLimit = some bytes ∧ IsLimit bytes n ∧ n < UInt64.size ∧
      (ofEnvironment env).historyLimit = max 1 n) ∨
    (ofEnvironment env).historyLimit = History.defaultLimit := by
  cases set : env.historyLimit with
  | none => exact .inr (by simp only [ofEnvironment, set]; rfl)
  | some bytes =>
    cases read : (decode? bytes).bind (limitOf? <| trim ·) with
    | none => exact .inr (by simp only [ofEnvironment, set, Option.bind_some, read]; rfl)
    | some n =>
      obtain ⟨spelled, fits⟩ := limit_read_iff.mp read
      exact .inl ⟨bytes, n, rfl, spelled, fits, historyLimit_of_isLimit set spelled fits⟩

theorem historyLimit_of_not_isLimit
    (unread : ∀ bytes n, env.historyLimit = some bytes → IsLimit bytes n → UInt64.size ≤ n) :
    (ofEnvironment env).historyLimit = History.defaultLimit := by
  rcases historyLimit_cases env with ⟨bytes, n, set, spelled, fits, -⟩ | standard
  · exact absurd fits (Nat.not_lt.mpr (unread bytes n set spelled))
  · exact standard

theorem historyLimit_bounds (env : Environment) :
    1 ≤ (ofEnvironment env).historyLimit ∧ (ofEnvironment env).historyLimit < UInt64.size := by
  rcases historyLimit_cases env with ⟨bytes, n, -, -, fits, same⟩ | standard
  · rw [same]
    have : 1 < UInt64.size := by decide
    omega
  · rw [standard]
    decide

theorem isLimit_toString (n : Nat) : IsLimit (encode (toString n)) n := by
  refine ⟨[], Nat.toDigits 10 n, [], by simp, by simp, isDecimal_toDigits n, ?_⟩
  rw [List.nil_append, List.append_nil, Nat.toString_eq_ofList_toDigits]

end Limit

section Text

variable {value : Option Bytes} {text : String}

theorem textOf?_eq_some (read : textOf? value = some text) :
    text ≠ "" ∧ IsTrimmed text.toList := by
  obtain ⟨mapped, present⟩ := Option.filter_eq_some_iff.mp read
  obtain ⟨whole, -, rfl⟩ := Option.map_eq_some_iff.mp mapped
  exact ⟨by simpa using present, isTrimmed_trim whole⟩

theorem textOf?_encode (present : text ≠ "") (trimmed : IsTrimmed text.toList) :
    textOf? (some (encode text)) = some text := by
  have decoded : decode? (encode text) = some text := decode?_eq_some_iff.mpr rfl
  rw [textOf?, Option.bind_some, decoded, Option.map_some, trim_of_trimmed trimmed,
    Option.filter_some]
  simp [present]

theorem normal_getD (value : Option Bytes) :
    (textOf? value).getD "default" ≠ "" ∧ IsTrimmed ((textOf? value).getD "default").toList := by
  cases read : textOf? value with
  | none =>
    refine ⟨by decide, fun c first => ?_, fun c last => ?_⟩
    · cases first
      decide
    · cases last
      decide
  | some text => exact textOf?_eq_some read

end Text

/-- Settings as they are read from an environment. -/
structure Normal (s : Settings) : Prop where
  rulesDirectory : ∀ directory ∈ s.rulesDirectory, directory.bytes ≠ []
  domain : s.domain ≠ "" ∧ IsTrimmed s.domain.toList
  style : s.style ≠ "" ∧ IsTrimmed s.style.toList
  positive : 1 ≤ s.historyLimit
  fits : s.historyLimit < UInt64.size

/-- The variables with the settings written to them; all others stay as they are. -/
def assign (s : Settings) (value? : String → Option Bytes) (name : String) : Option Bytes :=
  match name with
  | "READER_RULES_DIR" => s.rulesDirectory.map Path.bytes
  | "READER_DOMAIN" => some (encode s.domain)
  | "READER_STYLE" => some (encode s.style)
  | "READER_HISTORY_LIMIT" => some (encode (toString s.historyLimit))
  | name => value? name

theorem normal_ofEnvironment (env : Environment) : (ofEnvironment env).Normal where
  rulesDirectory := by
    intro directory set
    obtain ⟨bytes, kept, rfl⟩ := Option.map_eq_some_iff.mp set
    simpa using (Option.filter_eq_some_iff.mp kept).2
  domain := normal_getD env.domain
  style := normal_getD env.style
  positive := (historyLimit_bounds env).1
  fits := (historyLimit_bounds env).2

theorem ofEnvironment_assign {s : Settings} (normal : s.Normal)
    (value? : String → Option Bytes) : ofEnvironment (.ofVariables (s.assign value?)) = s := by
  have directory : ((s.rulesDirectory.map Path.bytes).filter (· ≠ [])).map Path.mk =
      s.rulesDirectory := by
    cases set : s.rulesDirectory with
    | none => rfl
    | some directory => simp [normal.rulesDirectory directory set]
  have limit : (ofEnvironment (.ofVariables (s.assign value?))).historyLimit =
      max 1 s.historyLimit :=
    historyLimit_of_isLimit rfl (isLimit_toString s.historyLimit) normal.fits
  refine Settings.ext directory ?_ ?_ ?_
  · exact congrArg (·.getD "default") (textOf?_encode normal.domain.1 normal.domain.2)
  · exact congrArg (·.getD "default") (textOf?_encode normal.style.1 normal.style.2)
  · exact limit.trans (Nat.max_eq_right normal.positive)

/-- Whatever the environment, the settings read from it are in normal form, and writing them to it
makes no difference to what is read. The normal forms are just the settings that can be read. -/
theorem settings_read_again_stay :
    (∀ value? : String → Option Bytes,
      let s := ofEnvironment (.ofVariables value?)
      (s.domain ≠ "" ∧ IsTrimmed s.domain.toList) ∧ (s.style ≠ "" ∧ IsTrimmed s.style.toList) ∧
      1 ≤ s.historyLimit ∧ (∀ directory ∈ s.rulesDirectory, directory.bytes ≠ []) ∧
      ofEnvironment (.ofVariables (s.assign value?)) = s) ∧
    ∀ s : Settings, s.Normal ↔ ∃ value?, ofEnvironment (.ofVariables value?) = s := by
  refine ⟨fun value? => ?_, fun s => ⟨fun normal => ?_, ?_⟩⟩
  · have normal := normal_ofEnvironment (.ofVariables value?)
    exact ⟨normal.domain, normal.style, normal.positive, normal.rulesDirectory,
      ofEnvironment_assign normal value?⟩
  · exact ⟨s.assign fun _ => none, ofEnvironment_assign normal _⟩
  · rintro ⟨value?, rfl⟩
    exact normal_ofEnvironment _

end ScreenReader.Settings
