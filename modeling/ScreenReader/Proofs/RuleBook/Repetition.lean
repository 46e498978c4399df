import ScreenReader.Proofs.RuleBook.LastDefinition

namespace ScreenReader

theorem Loaded.outcome_andThen {α β : Type} {x y : Loaded α}
    {f g : RuleBook → α → Logged (Loaded β)} (first : x.outcome = y.outcome)
    (second : ∀ b c a, (f b a).value.outcome = (g c a).value.outcome) :
    (x.andThen f).value.outcome = (y.andThen g).value.outcome := by
  unfold andThen
  rw [first]
  cases y.outcome with
  | error e => rfl
  | ok a => exact second x.book y.book a

namespace RuleBook

theorem outcome_loadText (b c : RuleBook) (kind : Kind) (text : String) :
    (b.loadText kind text).value.outcome = (c.loadText kind text).value.outcome := by
  unfold loadText
  cases Declaration.listOfJson kind text <;> rfl

theorem outcome_loadContent (b c : RuleBook) (kind : Kind) (path : Path) (content : Text.Bytes) :
    (b.loadContent kind path content).value.outcome =
      (c.loadContent kind path content).value.outcome := by
  unfold loadContent
  cases Text.decode? content with
  | none => rfl
  | some text =>
    have same := outcome_loadText b c kind text
    simp only [Logged.value_bind, same]
    cases told : (c.loadText kind text).value.outcome with
    | error e => rfl
    | ok n => exact same

theorem outcome_loadFile (b c : RuleBook) (tree : FileTree) (kind : Kind) (path : Path) :
    (b.loadFile tree kind path).value.outcome = (c.loadFile tree kind path).value.outcome := by
  unfold loadFile
  cases tree.content path with
  | error e => rfl
  | ok content => exact outcome_loadContent b c kind path content

theorem outcome_loadFiles (b c : RuleBook) (tree : FileTree) (kind : Kind) (directory : Path)
    (sum : Summary) (names : List Text.Bytes) :
    (b.loadFiles tree kind directory sum names).value.outcome =
      (c.loadFiles tree kind directory sum names).value.outcome := by
  induction names generalizing b c sum with
  | nil => rfl
  | cons name names ih =>
    refine Loaded.outcome_andThen (outcome_loadFile b c tree kind _) fun b c n => ?_
    exact ih b c ⟨sum.files + 1, sum.declarations + n⟩

theorem outcome_loadKind (b c : RuleBook) (tree : FileTree) (directory : Path) (kind : Kind)
    (sum : Summary) :
    (b.loadKind tree directory kind sum).value.outcome =
      (c.loadKind tree directory kind sum).value.outcome := by
  unfold loadKind
  dsimp only
  split
  next =>
    cases tree.ruleFiles (kind.directoryUnder directory) with
    | error e => rfl
    | ok names => exact outcome_loadFiles b c tree kind _ sum names
  next => rfl

theorem outcome_loadDirectory (b c : RuleBook) (tree : FileTree) (directory : Path) :
    (b.loadDirectory tree directory).value.outcome =
      (c.loadDirectory tree directory).value.outcome := by
  have symbols := outcome_loadKind b c tree directory .symbol {}
  have functions := Loaded.outcome_andThen symbols fun b c sum =>
    outcome_loadKind b c tree directory .function sum
  exact Loaded.outcome_andThen functions fun b c sum => rfl

theorem outcome_apply (b c : RuleBook) (tree : FileTree) (w : Write) :
    (w.apply tree b).value.outcome = (w.apply tree c).value.outcome := by
  cases w with
  | define name literal mappings => rfl
  | declare declaration => rfl
  | text kind json => exact congrArg (Except.map _) (outcome_loadText b c kind json)
  | file kind path => exact congrArg (Except.map _) (outcome_loadFile b c tree kind path)
  | directory path => exact congrArg (Except.map _) (outcome_loadDirectory b c tree path)

theorem enter_enter (b : RuleBook) (ds : List Definition) : (b.enter ds).enter ds = b.enter ds := by
  refine RuleBook.ext (Dictionary.ext_get? fun k => ?_)
  show ((b.enter ds).enter ds).ruleSet? k = (b.enter ds).ruleSet? k
  rw [ruleSet?_enter, ruleSet?_enter]
  -- a text defined at all gets its last definition either time, any other keeps what it had
  cases ((ds.filter (·.literal == k)).getLast?.map Definition.ruleSet) with
  | none => rfl
  | some s => rfl

/-- A write that is made once more, whether it succeeds or fails, leaves the book that it left
before and answers as before. -/
theorem repeated_write_changes_nothing (tree : FileTree) (b : RuleBook) (w : Write) :
    (w.apply tree (w.apply tree b).value.book).value = (w.apply tree b).value := by
  have once := (b.enters_apply tree w).book
  have twice := ((w.apply tree b).value.book.enters_apply tree w).book
  refine Loaded.ext ?_ (outcome_apply _ b tree w)
  calc (w.apply tree (w.apply tree b).value.book).value.book
    _ = (b.enter (w.definitions tree)).enter (w.definitions tree) := by
      rw [twice, once]
      rfl
    _ = b.enter (w.definitions tree) := b.enter_enter _
    _ = (w.apply tree b).value.book := once.symm

end RuleBook

end ScreenReader
