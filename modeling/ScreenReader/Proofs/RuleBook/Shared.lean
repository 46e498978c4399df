import ScreenReader.Proofs.RuleBook.LastDefinition
import ScreenReader.RuleBook.Shared

namespace ScreenReader

namespace SharedRequest

def writes : SharedRequest → List Write
  | .batch b => b.writes
  | .ask _ => []

def breaksOff : SharedRequest → Bool
  | .batch b => b.failure.isSome
  | .ask _ => false

/-- The same query, or the same writes, whether or not they break off. -/
inductive Alike : SharedRequest → SharedRequest → Prop
  | ask (query : Query) : Alike (.ask query) (.ask query)
  | batch (writes : List Write) (failure other : Option String) :
    Alike (.batch ⟨writes, failure⟩) (.batch ⟨writes, other⟩)

end SharedRequest

def SharedAnswer.reply? : SharedAnswer → Option Reply
  | .told reply => some reply
  | _ => none

/-- Whether two handles reach the same book. -/
def Handle.meets : Handle → Handle → Bool
  | .sharing _, .sharing _ => true
  | .detached, .detached => true
  | _, _ => false

/-- Steps of two runs that differ in the handle at most by its name, and in the request at most by
its breaking off. -/
def SameButFailure (x y : Handle × SharedRequest) : Prop :=
  x.1.meets y.1 ∧ x.2.Alike y.2

/-- The requests that reach the book of a handle. -/
def requestsTo (handle : Handle) (steps : List (Handle × SharedRequest)) : List SharedRequest :=
  (steps.filter (·.1.meets handle)).map Prod.snd

/-- All writes that reach the book of a handle, those of batches that break off included. -/
def writesTo (handle : Handle) (steps : List (Handle × SharedRequest)) : List Write :=
  (requestsTo handle steps).flatMap SharedRequest.writes

namespace RuleBook

/-- The book behind some writes, between which the files stay as they are. -/
def afterWrites (b : RuleBook) (tree : FileTree) (ws : List Write) : RuleBook :=
  b.after (ws.map (tree, ·))

theorem afterWrites_append (b : RuleBook) (tree : FileTree) (ws vs : List Write) :
    b.afterWrites tree (ws ++ vs) = (b.afterWrites tree ws).afterWrites tree vs := by
  unfold afterWrites after
  rw [List.map_append, List.foldl_append]

end RuleBook

namespace SharedBook

theorem current_eq_content (s : SharedBook) : s.current = s.content := by
  unfold current lock
  cases s.poisoned <;> rfl

theorem book_serve (tree : FileTree) (s : SharedBook) (request : SharedRequest) :
    (s.serve tree request).value.1 =
      ⟨s.content.afterWrites tree request.writes, s.poisoned || request.breaksOff⟩ := by
  cases request with
  | ask query => exact SharedBook.ext rfl (Bool.or_false _).symm
  | batch batch =>
    obtain ⟨writes, failure⟩ := batch
    have written := RuleBook.book_writeAll tree s.content writes
    simp only [serve, current_eq_content, Logged.value_bind]
    cases failure with
    | none => exact SharedBook.ext written (Bool.or_false _).symm
    | some message => exact SharedBook.ext written (Bool.or_true _).symm

theorem reply_serve (tree : FileTree) (s : SharedBook) (query : Query) :
    (s.serve tree (.ask query)).value.2 = .told (s.content.reply query) := by
  simp only [serve, current_eq_content, Logged.value_pure]

/-- Poison in the lock and a failure behind the writes are not to be seen in what is told. -/
theorem serve_alike (tree : FileTree) {s t : SharedBook} (content : s.content = t.content)
    {request other : SharedRequest} (alike : request.Alike other) :
    (s.serve tree request).value.1.content = (t.serve tree other).value.1.content ∧
    (s.serve tree request).value.2.reply? = (t.serve tree other).value.2.reply? ∧
    (s.serve tree request).records = (t.serve tree other).records := by
  cases alike with
  | ask query =>
    refine ⟨content, ?_, rfl⟩
    rw [reply_serve, reply_serve, content]
  | batch writes failure other =>
    simp only [book_serve, SharedRequest.writes, content, true_and]
    simp only [serve, current_eq_content, content, Logged.value_bind, Logged.records_bind]
    cases failure <;> cases other <;> exact ⟨rfl, rfl⟩

end SharedBook

namespace SharedBooks

/-- The book that a handle reaches. -/
def reached (books : SharedBooks) : Handle → SharedBook
  | .sharing _ => books.shared
  | .detached => books.copy

theorem reached_of_meets (books : SharedBooks) {handle other : Handle}
    (meets : handle.meets other) : books.reached handle = books.reached other := by
  cases handle <;> cases other
  all_goals first
    | rfl
    | cases meets

theorem answer_serve (tree : FileTree) (books : SharedBooks) (handle : Handle)
    (request : SharedRequest) :
    (books.serve tree handle request).value.2 =
      ((books.reached handle).serve tree request).value.2 := by
  cases handle <;> rfl

theorem records_serve (tree : FileTree) (books : SharedBooks) (handle : Handle)
    (request : SharedRequest) :
    (books.serve tree handle request).records =
      ((books.reached handle).serve tree request).records := by
  cases handle <;> exact List.append_nil _

/-- A request changes the book that its handle reaches, and no other. -/
theorem reached_serve (tree : FileTree) (books : SharedBooks) (handle other : Handle)
    (request : SharedRequest) :
    (books.serve tree handle request).value.1.reached other =
      if handle.meets other then ((books.reached other).serve tree request).value.1
      else books.reached other := by
  cases handle <;> cases other <;> rfl

theorem books_run_cons (tree : FileTree) (books : SharedBooks) (step : Handle × SharedRequest)
    (steps : List (Handle × SharedRequest)) :
    (books.run tree (step :: steps)).value.1 =
      ((books.serve tree step.1 step.2).value.1.run tree steps).value.1 := rfl

theorem answers_run_cons (tree : FileTree) (books : SharedBooks) (step : Handle × SharedRequest)
    (steps : List (Handle × SharedRequest)) :
    (books.run tree (step :: steps)).value.2 =
      (books.serve tree step.1 step.2).value.2 ::
        ((books.serve tree step.1 step.2).value.1.run tree steps).value.2 := rfl

theorem records_run_cons (tree : FileTree) (books : SharedBooks) (step : Handle × SharedRequest)
    (steps : List (Handle × SharedRequest)) :
    (books.run tree (step :: steps)).records =
      (books.serve tree step.1 step.2).records ++
        ((books.serve tree step.1 step.2).value.1.run tree steps).records := by
  simp [run]

theorem reached_run (tree : FileTree) (books : SharedBooks) (steps : List (Handle × SharedRequest))
    (handle : Handle) :
    (books.run tree steps).value.1.reached handle =
      ⟨(books.reached handle).content.afterWrites tree (writesTo handle steps),
        (books.reached handle).poisoned || (requestsTo handle steps).any SharedRequest.breaksOff⟩ := by
  induction steps generalizing books with
  | nil => exact SharedBook.ext rfl (Bool.or_false _).symm
  | cons step steps ih =>
    obtain ⟨other, request⟩ := step
    rw [books_run_cons, ih, reached_serve]
    dsimp only
    cases meets : other.meets handle with
    | true =>
      have requests : requestsTo handle ((other, request) :: steps) =
          request :: requestsTo handle steps := by simp [requestsTo, meets]
      have writes : writesTo handle ((other, request) :: steps) =
          request.writes ++ writesTo handle steps := by simp [writesTo, requests]
      rw [if_pos rfl, SharedBook.book_serve, requests, writes, RuleBook.afterWrites_append,
        List.any_cons, Bool.or_assoc]
    | false =>
      have requests : requestsTo handle ((other, request) :: steps) =
          requestsTo handle steps := by simp [requestsTo, meets]
      have writes : writesTo handle ((other, request) :: steps) = writesTo handle steps := by
        simp [writesTo, requests]
      rw [if_neg Bool.false_ne_true, requests, writes]

theorem answer_run_ask (tree : FileTree) (books : SharedBooks)
    (before after : List (Handle × SharedRequest)) (handle : Handle) (query : Query) :
    (books.run tree (before ++ (handle, .ask query) :: after)).value.2[before.length]? =
      some (.told (((books.run tree before).value.1.reached handle).content.reply query)) := by
  induction before generalizing books with
  | nil =>
    rw [List.nil_append, answers_run_cons, answer_serve, SharedBook.reply_serve]
    rfl
  | cons step before ih =>
    rw [List.cons_append, answers_run_cons, books_run_cons]
    exact ih (books.serve tree step.1 step.2).value.1

/-- Books with the same rules, whatever became of their locks. -/
def SameContent (books others : SharedBooks) : Prop :=
  ∀ handle, (books.reached handle).content = (others.reached handle).content

theorem SameContent.serve {books others : SharedBooks} (same : books.SameContent others)
    (tree : FileTree) {handle twin : Handle} {request other : SharedRequest}
    (alike : SameButFailure (handle, request) (twin, other)) :
    (books.serve tree handle request).value.1.SameContent
      (others.serve tree twin other).value.1 := by
  intro reader
  have meets : handle.meets reader = twin.meets reader := by
    have handles := alike.1
    cases handle <;> cases twin <;> cases reader <;> first | rfl | cases handles
  rw [reached_serve, reached_serve, meets]
  split
  · exact (SharedBook.serve_alike tree (same reader) alike.2).1
  · exact same reader

/-- Two runs over books with the same rules, step by step alike, tell and log the same. -/
theorem SameContent.run {books others : SharedBooks} (same : books.SameContent others)
    (tree : FileTree) {steps twins : List (Handle × SharedRequest)}
    (alike : List.Forall₂ SameButFailure steps twins) :
    (books.run tree steps).value.2.map SharedAnswer.reply? =
      (others.run tree twins).value.2.map SharedAnswer.reply? ∧
    (books.run tree steps).records = (others.run tree twins).records ∧
    (books.run tree steps).value.1.SameContent (others.run tree twins).value.1 := by
  induction alike generalizing books others with
  | nil => exact ⟨rfl, rfl, same⟩
  | @cons step twin steps twins first _ ih =>
    obtain ⟨replies, records, contents⟩ := ih (same.serve tree first)
    have here : (books.reached step.1).content = (others.reached twin.1).content := by
      rw [← others.reached_of_meets first.1]
      exact same step.1
    obtain ⟨-, told, logged⟩ := SharedBook.serve_alike tree here first.2
    refine ⟨?_, ?_, contents⟩
    · rw [answers_run_cons, answers_run_cons, List.map_cons, List.map_cons, replies, answer_serve,
        answer_serve, told]
    · rw [records_run_cons, records_run_cons, records, records_serve, records_serve, logged]

theorem reached_ofBook (b : RuleBook) (handle : Handle) : (ofBook b).reached handle = .ofBook b := by
  cases handle <;> rfl

/-- Whoever reads a shared book is told what a plain book tells behind all writes that have reached
it, also those of batches that broke off. A batch that breaks off does poison the lock, but neither
this nor the choice among the handles that share a book makes a difference to any reader. -/
theorem shared_book_reads_as_plain (tree : FileTree) (b : RuleBook) :
    (∀ (before after : List (Handle × SharedRequest)) (handle : Handle) (query : Query),
      ((ofBook b).run tree (before ++ (handle, .ask query) :: after)).value.2[before.length]? =
        some (.told ((b.afterWrites tree (writesTo handle before)).reply query))) ∧
    (∀ (steps : List (Handle × SharedRequest)) (handle : Handle),
      let last := ((ofBook b).run tree steps).value.1.reached handle
      last.current = b.afterWrites tree (writesTo handle steps) ∧
      last.poisoned = (requestsTo handle steps).any SharedRequest.breaksOff) ∧
    ∀ steps twins : List (Handle × SharedRequest), List.Forall₂ SameButFailure steps twins →
      let run := (ofBook b).run tree steps
      let twin := (ofBook b).run tree twins
      run.value.2.map SharedAnswer.reply? = twin.value.2.map SharedAnswer.reply? ∧
      run.records = twin.records ∧
      ∀ handle, (run.value.1.reached handle).current = (twin.value.1.reached handle).current := by
  refine ⟨fun before after handle query => ?_, fun steps handle => ?_, fun steps twins alike => ?_⟩
  · rw [answer_run_ask, reached_run, reached_ofBook]
    rfl
  · rw [reached_run, reached_ofBook]
    exact ⟨SharedBook.current_eq_content _, Bool.false_or _⟩
  · have same : (ofBook b).SameContent (ofBook b) := fun _ => rfl
    obtain ⟨replies, records, contents⟩ := same.run tree alike
    refine ⟨replies, records, fun handle => ?_⟩
    rw [SharedBook.current_eq_content, SharedBook.current_eq_content]
    exact contents handle

/-- What a batch wrote before it broke off is found through another handle, as if the batch had come
to its end, and is not found in the copy. -/
theorem broken_batch_reads_as_whole :
    let define : Write := .define "n" "x" (.ofTriples [("d", "s", "t")])
    let steps : List (Handle × SharedRequest) :=
      [(.sharing "a", .batch ⟨[define], some "failed"⟩),
        (.sharing "b", .ask (.speech "x" ⟨"d", "s"⟩)), (.detached, .ask (.contains "x"))]
    let twins : List (Handle × SharedRequest) :=
      [(.sharing "b", .batch ⟨[define], none⟩),
        (.sharing "b", .ask (.speech "x" ⟨"d", "s"⟩)), (.detached, .ask (.contains "x"))]
    let told := [none, some (.speech "t"), some (.contains false)]
    List.Forall₂ SameButFailure steps twins ∧
    ((ofBook ∅).run .empty steps).value.2.map SharedAnswer.reply? = told ∧
    ((ofBook ∅).run .empty twins).value.2.map SharedAnswer.reply? = told := by
  intro define steps twins told
  have alike : List.Forall₂ SameButFailure steps twins :=
    .cons ⟨rfl, .batch [define] (some "failed") none⟩
      (.cons ⟨rfl, .ask _⟩ (.cons ⟨rfl, .ask _⟩ .nil))
  have whole : ((ofBook ∅).run .empty twins).value.2.map SharedAnswer.reply? = told := by
    decide
  obtain ⟨-, -, same⟩ := shared_book_reads_as_plain .empty ∅
  exact ⟨alike, (same steps twins alike).1.trans whole, whole⟩

end SharedBooks

end ScreenReader
