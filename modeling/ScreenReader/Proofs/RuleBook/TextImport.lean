import ScreenReader.Proofs.Declaration.Json
import ScreenReader.RuleBook.Load

namespace ScreenReader

/-- The list of the compact texts of some declarations. -/
def Declaration.listToJson {kind : Kind} (ds : List (Declaration kind)) : String :=
  String.ofList (Json.Compact.list (ds.map compact))

theorem Declaration.listOfJson_listToJson {kind : Kind} (ds : List (Declaration kind)) :
    listOfJson kind (listToJson ds) = .ok ds :=
  (accepts_declaration kind).list.read
    (Json.isDocument_ofList (Json.spellsList_list isSpelled_compact ds))

namespace Logged

variable {α β : Type}

def warnings (x : Logged α) : List LogRecord :=
  x.records.filter (·.level == .warn)

@[simp]
theorem warnings_pure (a : α) : (pure a : Logged α).warnings = [] := rfl

@[simp]
theorem warnings_bind (x : Logged α) (f : α → Logged β) :
    (x >>= f).warnings = x.warnings ++ (f x.value).warnings :=
  List.filter_append ..

@[simp]
theorem warnings_map (f : α → β) (x : Logged α) : (f <$> x).warnings = x.warnings :=
  congrArg _ (records_map f x)

theorem warnings_foldlM {f : β → α → Logged β} {warned : α → List LogRecord}
    (step : ∀ b a, (f b a).warnings = warned a) (as : List α) (b : β) :
    (as.foldlM f b).warnings = as.flatMap warned := by
  induction as generalizing b with
  | nil => rfl
  | cons a as ih => rw [List.foldlM_cons, warnings_bind, step, ih, List.flatMap_cons]

theorem warnings_foldlM_eq_nil {f : β → α → Logged β} (step : ∀ b a, (f b a).warnings = [])
    (as : List α) (b : β) : (as.foldlM f b).warnings = [] := by
  rw [warnings_foldlM step]
  exact List.flatMap_eq_nil_iff.mpr fun _ _ => rfl

end Logged

open Logged

@[simp]
theorem warnings_trace (message : String) : (log .trace message).warnings = [] := rfl

theorem RuleSet.warnings_define (s : RuleSet) (name constraint action literal : String) :
    (s.define name constraint action literal).warnings = [] := by
  unfold RuleSet.define
  dsimp only
  split <;> simp

theorem RuleSet.warnings_defineAll (s : RuleSet) (name literal : String) (m : Mappings) :
    (s.defineAll name literal m).warnings = [] :=
  warnings_foldlM_eq_nil (fun s triple => s.warnings_define name _ triple.2.2 literal) _ _

theorem RuleBook.warnings_define (b : RuleBook) (name literal : String) (m : Mappings) :
    (b.define name literal m).warnings = [] := by
  unfold RuleBook.define
  simp only [warnings_bind, RuleSet.warnings_defineAll, warnings_trace, List.nil_append]
  split <;> simp

namespace Declaration

/-- Whether the code point of a symbol can be read. -/
def isDecodable (d : Declaration .symbol) : Bool :=
  (Text.ofHex? d.subject).isSome

/-- The warning of a symbol that is passed over. -/
def skipped (d : Declaration .symbol) : LogRecord :=
  ⟨.warn, s!"skipping symbol with invalid code point {Text.quoted d.subject}"⟩

end Declaration

namespace RuleBook

/-- The book behind some declarations, one after the other. -/
def declareEach {kind : Kind} (b : RuleBook) (ds : List (Declaration kind)) : RuleBook :=
  ds.foldl (fun b d => (b.declare d).value) b

theorem value_declareAll_eq_each {kind : Kind} (b : RuleBook) (ds : List (Declaration kind)) :
    (b.declareAll ds).value = b.declareEach ds :=
  value_foldlM ..

theorem value_declare_of_not_decodable (b : RuleBook) {d : Declaration .symbol}
    (unknown : d.isDecodable = false) : (b.declare d).value = b := by
  have none_read : Text.ofHex? d.subject = none := by simpa [Declaration.isDecodable] using unknown
  simp only [declare, declareSymbol, none_read]
  rfl

theorem declareEach_filter (b : RuleBook) (ds : List (Declaration .symbol)) :
    b.declareEach (ds.filter Declaration.isDecodable) = b.declareEach ds := by
  unfold declareEach
  rw [List.foldl_filter]
  congr 1
  funext b d
  cases known : d.isDecodable with
  | true => rfl
  | false => exact (b.value_declare_of_not_decodable known).symm

theorem warnings_declare_symbol (b : RuleBook) (d : Declaration .symbol) :
    (b.declare d).warnings = if d.isDecodable then [] else [d.skipped] := by
  cases decoded : Text.ofHex? d.subject with
  | none =>
    simp only [declare, declareSymbol, Declaration.isDecodable, decoded]
    rfl
  | some c =>
    simp only [declare, declareSymbol, Declaration.isDecodable, decoded]
    exact b.warnings_define ..

theorem warnings_declare_function (b : RuleBook) (d : Declaration .function) :
    (b.declare d).warnings = [] :=
  warnings_foldlM_eq_nil (fun b name => b.warnings_define name name d.mappings) _ _

theorem warnings_declareAll_symbol (b : RuleBook) (ds : List (Declaration .symbol)) :
    (b.declareAll ds).warnings = (ds.filter (!·.isDecodable)).map Declaration.skipped := by
  unfold declareAll
  rw [warnings_foldlM warnings_declare_symbol]
  induction ds with
  | nil => rfl
  | cons d ds ih =>
    rw [List.flatMap_cons, ih]
    cases known : d.isDecodable <;> simp [known]

theorem loadText_listToJson {kind : Kind} (b : RuleBook) (ds : List (Declaration kind)) :
    b.loadText kind (Declaration.listToJson ds) =
      (fun b => ⟨b, .ok ds.length⟩) <$> b.declareAll ds := by
  unfold loadText
  rw [Declaration.listOfJson_listToJson]
  rfl

end RuleBook

end ScreenReader
