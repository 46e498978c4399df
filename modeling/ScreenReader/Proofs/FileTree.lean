import Mathlib.Data.List.Sort
import ScreenReader.FileTree

namespace ScreenReader

/-- What can name an entry of a directory. -/
structure IsEntryName (name : Text.Bytes) : Prop where
  special : name ∉ [[], Text.encode ".", Text.encode ".."]
  slash : Path.slash ∉ name
  nul : 0 ∉ name

instance (name : Text.Bytes) : Decidable (IsEntryName name) :=
  decidable_of_iff
    (name ∉ [[], Text.encode ".", Text.encode ".."] ∧ Path.slash ∉ name ∧ 0 ∉ name)
    ⟨fun ⟨special, slash, nul⟩ => ⟨special, slash, nul⟩,
      fun named => ⟨named.special, named.slash, named.nul⟩⟩

namespace Path

theorem join_bytes (p : Path) (name : Text.Bytes) :
    ∃ gap, (gap = [] ∨ gap = [slash]) ∧ (p.join name).bytes = p.bytes ++ (gap ++ name) := by
  unfold join
  split
  · exact ⟨[], .inl rfl, rfl⟩
  · exact ⟨[slash], .inr rfl, rfl⟩

theorem length_join (p : Path) (name : Text.Bytes) :
    p.bytes.length + name.length ≤ (p.join name).bytes.length ∧
      (p.join name).bytes.length ≤ p.bytes.length + name.length + 1 := by
  obtain ⟨gap, gap_cases, bytes⟩ := p.join_bytes name
  have gap_length : gap.length ≤ 1 := by rcases gap_cases with rfl | rfl <;> decide
  simp only [bytes, List.length_append]
  omega

/-- One step more, in place of the empty one behind a slash at the end. -/
theorem steps_join {p : Path} {name : Text.Bytes} (named : IsEntryName name)
    (some_byte : p.bytes ≠ []) :
    ∃ steps, (p.steps = steps ∨ p.steps = steps ++ [[]]) ∧
      (p.join name).steps = steps ++ [name] := by
  have one_step : name.splitOn slash = [name] := List.splitOn_eq_singleton named.slash
  unfold join steps
  split
  next ends =>
    obtain ⟨init, ends_so⟩ := List.getLast?_eq_some_iff.mp (ends.resolve_left some_byte)
    refine ⟨init.splitOn slash, .inr ?_, ?_⟩
    · rw [ends_so, List.splitOn_append_cons_self, List.splitOn_nil]
    · rw [ends_so, List.append_assoc, List.singleton_append, List.splitOn_append_cons_self,
        one_step]
  next => exact ⟨p.bytes.splitOn slash, .inl rfl, by rw [List.splitOn_append_cons_self, one_step]⟩

theorem length_dots (n : Nat) (bytes : Text.Bytes) :
    ((List.replicate n (Text.encode "./")).flatten ++ bytes).length = 2 * n + bytes.length := by
  have two : (Text.encode "./").length = 2 := by decide
  simp [two, Nat.mul_comm]

theorem splitOn_dots (n : Nat) (bytes : Text.Bytes) :
    ((List.replicate n (Text.encode "./")).flatten ++ bytes).splitOn slash =
      List.replicate n (Text.encode ".") ++ bytes.splitOn slash := by
  induction n with
  | zero => rfl
  | succ n ih =>
    have dot : Text.encode "./" = Text.encode "." ++ [slash] := by decide
    have one : (Text.encode ".").splitOn slash = [Text.encode "."] := by decide
    rw [List.replicate_succ, List.flatten_cons, dot, List.append_assoc, List.append_assoc,
      List.singleton_append, List.splitOn_append_cons_self, ← dot, ih, one]
    rfl

end Path

theorem pairwise_lt_mergeSort {names : List Text.Bytes} (distinct : names.Nodup) :
    (names.mergeSort fun a b => a ≤ b).Pairwise (· < ·) := by
  have sorted : (names.mergeSort fun a b => a ≤ b).Pairwise fun a b => decide (a ≤ b) = true := by
    refine List.pairwise_mergeSort ?_ ?_ _
    · intro a b c
      simpa only [decide_eq_true_iff] using List.le_trans
    · intro a b
      simpa only [Bool.or_eq_true, decide_eq_true_iff] using List.le_total a b
  have still_distinct := (List.mergeSort_perm names fun a b => a ≤ b).nodup_iff.mpr distinct
  refine (sorted.and still_distinct).imp fun {a b} both => ?_
  by_contra later
  exact both.2 (List.le_antisymm (of_decide_eq_true both.1) (List.not_lt.mp later))

namespace FileNode

variable {node next : FileNode} {name : Text.Bytes}

/-- Each entry of a directory has a name of its own. -/
inductive WellFormed : FileNode → Prop where
  | file (content : Except FileError Text.Bytes) : WellFormed (.file content)
  | directory {entries : List (Text.Bytes × FileNode)} {faults : DirectoryFaults}
      (distinct : (entries.map Prod.fst).Nodup) (named : ∀ e ∈ entries, IsEntryName e.1)
      (below : ∀ e ∈ entries, WellFormed e.2) : WellFormed (.directory entries faults)
  | broken (fault : FileError) : WellFormed (.broken fault)

theorem exists_eq_directory {e : Text.Bytes × FileNode} (listed : e ∈ node.entries) :
    ∃ entries faults, node = .directory entries faults := by
  cases node with
  | directory entries faults => exact ⟨entries, faults, rfl⟩
  | file | broken => cases listed

namespace WellFormed

theorem singleton {faults : DirectoryFaults} (named : IsEntryName name) (proper : node.WellFormed) :
    (FileNode.directory [(name, node)] faults).WellFormed :=
  .directory (List.nodup_singleton _) (by simpa using named) (by simpa using proper)

theorem distinct (proper : node.WellFormed) : (node.entries.map Prod.fst).Nodup := by
  cases proper with
  | file | broken => exact List.nodup_nil
  | directory distinct => exact distinct

theorem named (proper : node.WellFormed) {e : Text.Bytes × FileNode} (listed : e ∈ node.entries) :
    IsEntryName e.1 := by
  cases proper with
  | file | broken => cases listed
  | directory _ named => exact named e listed

theorem of_mem (proper : node.WellFormed) {e : Text.Bytes × FileNode} (listed : e ∈ node.entries) :
    e.2.WellFormed := by
  cases proper with
  | file | broken => cases listed
  | directory _ _ below => exact below e listed

theorem child? (proper : node.WellFormed) (found : node.child? name = some next) :
    next.WellFormed := by
  obtain ⟨e, he, rfl⟩ := Option.map_eq_some_iff.mp found
  exact proper.of_mem (List.mem_of_find?_eq_some he)

theorem child?_of_mem (proper : node.WellFormed) (listed : (name, next) ∈ node.entries) :
    node.child? name = some next := by
  have some_found : (node.entries.find? fun e => e.1 == name).isSome :=
    List.find?_isSome.mpr ⟨_, listed, beq_self_eq_true _⟩
  obtain ⟨e, found⟩ := Option.isSome_iff_exists.mp some_found
  have unique : e = (name, next) :=
    List.inj_on_of_nodup_map proper.distinct (List.mem_of_find?_eq_some found) listed
      (eq_of_beq (List.find?_some found :))
  exact Option.map_eq_some_iff.mpr ⟨e, found, unique ▸ rfl⟩

end WellFormed

/-- The rule files directly in a directory, whether or not a path leads to them. -/
def ruleFiles (node : FileNode) : List Text.Bytes :=
  ((node.entries.filter fun e => e.2.isFile && FileTree.isRuleFileName e.1).map Prod.fst).mergeSort
    fun a b => a ≤ b

theorem mem_ruleFiles :
    name ∈ node.ruleFiles ↔
      (∃ content, (name, .file content) ∈ node.entries) ∧ FileTree.isRuleFileName name := by
  unfold ruleFiles
  simp only [List.mem_mergeSort, List.mem_map, List.mem_filter, Bool.and_eq_true]
  constructor
  · rintro ⟨⟨_, entry⟩, ⟨listed, is_file, rule_file⟩, rfl⟩
    cases entry with
    | file content => exact ⟨⟨content, listed⟩, rule_file⟩
    | directory | broken => cases is_file
  · rintro ⟨⟨content, listed⟩, rule_file⟩
    exact ⟨_, ⟨listed, rfl, rule_file⟩, rfl⟩

theorem WellFormed.ruleFiles_ascending (proper : node.WellFormed) :
    node.ruleFiles.Pairwise (· < ·) :=
  pairwise_lt_mergeSort (proper.distinct.sublist (List.filter_sublist.map Prod.fst))

end FileNode

namespace FileTree

structure WellFormed (tree : FileTree) : Prop where
  working : tree.working.WellFormed
  above : ∀ node ∈ tree.above, node.WellFormed

/-- What one step of a path can do. -/
inductive Moves (tree : FileTree) (name : Text.Bytes) : FileTree → Prop where
  | slash {entries : List (Text.Bytes × FileNode)} {faults : DirectoryFaults}
      (here : tree.working = .directory entries faults) (empty : name = []) :
      Moves tree name tree
  | stay {entries : List (Text.Bytes × FileNode)} {faults : DirectoryFaults}
      (here : tree.working = .directory entries faults) (passable : faults.passage = none)
      (dot : name = Text.encode ".") : Moves tree name tree
  | up {entries : List (Text.Bytes × FileNode)} {faults : DirectoryFaults}
      (here : tree.working = .directory entries faults) (passable : faults.passage = none)
      (dots : name = Text.encode "..") : Moves tree name tree.parent
  | down {entries : List (Text.Bytes × FileNode)} {faults : DirectoryFaults} {next : FileNode}
      (here : tree.working = .directory entries faults) (passable : faults.passage = none)
      (special : name ∉ [[], Text.encode ".", Text.encode ".."])
      (found : tree.working.child? name = some next) :
      Moves tree name { working := next, above := tree.working :: tree.above }

variable {tree t : FileTree} {p : Path} {name : Text.Bytes} {node next : FileNode}
  {entries : List (Text.Bytes × FileNode)} {faults : DirectoryFaults}

theorem step_eq_ok_iff : tree.step name = .ok t ↔ tree.Moves name t := by
  constructor
  · intro moved
    unfold step at moved
    split at moved
    next => cases moved
    next => cases moved
    next entries faults here =>
      split at moved
      next empty =>
        cases moved
        exact .slash here empty
      next some_byte =>
        split at moved
        next => cases moved
        next passable =>
          split at moved
          next dot =>
            cases moved
            exact .stay here passable dot
          next move =>
            split at moved
            next dots =>
              cases moved
              exact .up here passable dots
            next down =>
              split at moved
              next found =>
                cases moved
                exact .down here passable (by simp [some_byte, move, down]) found
              next => cases moved
  · intro moves
    have dot : Text.encode "." ≠ [] := by decide
    have dots : Text.encode ".." ≠ [] ∧ Text.encode ".." ≠ Text.encode "." := by decide
    unfold step
    cases moves with
    | slash here empty => simp only [here, if_pos empty]
    | stay here passable stay => simp only [here, stay, if_neg dot, passable, if_true]
    | up here passable up => simp only [here, up, if_neg dots.1, passable, if_neg dots.2, if_true]
    | down here passable special found =>
      obtain ⟨some_byte, move, down⟩ :
          name ≠ [] ∧ name ≠ Text.encode "." ∧ name ≠ Text.encode ".." := by
        simpa using special
      simp only [found]
      simp only [here, if_neg some_byte, passable, if_neg move, if_neg down]

theorem eq_of_step_empty (moved : tree.step [] = .ok t) : t = tree := by
  cases step_eq_ok_iff.mp moved with
  | slash | stay => rfl
  | up _ _ dots => exact absurd dots (by decide)
  | down _ _ special => exact absurd List.mem_cons_self special

/-- A step to an entry needs a passage. -/
theorem step_entry_eq_ok_iff {above : List FileNode} (named : IsEntryName name) :
    step { working := .directory entries faults, above } name = .ok t ↔
      faults.passage = none ∧
        ∃ next, (FileNode.directory entries faults).child? name = some next ∧
          t = { working := next, above := .directory entries faults :: above } := by
  rw [step_eq_ok_iff]
  constructor
  · intro moves
    have special := named.special
    cases moves with
    | slash _ empty => simp [empty] at special
    | stay _ _ dot => simp [dot] at special
    | up _ _ dots => simp [dots] at special
    | down here passable _ found =>
      cases here
      exact ⟨passable, _, found, rfl⟩
  · rintro ⟨passable, next, found, rfl⟩
    exact .down rfl passable named.special found

theorem walk_concat (steps : List Text.Bytes) (name : Text.Bytes) :
    (steps ++ [name]).foldlM step tree = (steps.foldlM step tree).bind fun t => t.step name := by
  rw [List.foldlM_append]
  simp only [List.foldlM_cons, List.foldlM_nil, bind_pure]
  rfl

theorem walk_dots (here : tree.working = .directory entries faults)
    (passable : faults.passage = none) (n : Nat) (steps : List Text.Bytes) :
    (List.replicate n (Text.encode ".") ++ steps).foldlM step tree = steps.foldlM step tree := by
  induction n with
  | zero => rfl
  | succ n ih =>
    have stay : tree.step (Text.encode ".") = .ok tree :=
      step_eq_ok_iff.mpr (.stay here passable rfl)
    rw [List.replicate_succ, List.cons_append, List.foldlM_cons, stay]
    exact ih

theorem resolve_eq_ok_iff :
    tree.resolve p = .ok node ↔ 0 ∉ p.bytes ∧ p.isTooLong = false ∧ p.bytes ≠ [] ∧
      ∃ above, p.steps.foldlM step (tree.origin p) = .ok { working := node, above } := by
  unfold resolve
  split
  next nul => simp [nul]
  next nul =>
    split
    next long => simp [long]
    next long =>
      split
      next empty => simp [empty]
      next empty =>
        cases p.steps.foldlM step (tree.origin p) with
        | error e => simp [Except.map]
        | ok t =>
          obtain ⟨working, above⟩ := t
          simp [Except.map, nul, long, empty]

/-- A path may begin with steps that stay. -/
theorem resolve_dots (here : tree.working = .directory entries faults)
    (passable : faults.passage = none) (relative : p.isAbsolute = false)
    (reached : tree.resolve p = .ok node) (n : Nat)
    (short : 2 * n + p.bytes.length ≤ Path.limit) :
    tree.resolve ⟨(List.replicate n (Text.encode "./")).flatten ++ p.bytes⟩ = .ok node := by
  obtain ⟨nul, -, some_byte, above, walked⟩ := resolve_eq_ok_iff.mp reached
  rw [origin, relative, if_neg Bool.false_ne_true] at walked
  have dots_nul : 0 ∉ (List.replicate n (Text.encode "./")).flatten := by
    simp only [List.mem_flatten, List.mem_replicate]
    rintro ⟨_, ⟨-, rfl⟩, zero⟩
    exact absurd zero (by decide)
  have root :
      Path.isAbsolute ⟨(List.replicate n (Text.encode "./")).flatten ++ p.bytes⟩ = false := by
    cases n with
    | zero => exact relative
    | succ n => rfl
  refine resolve_eq_ok_iff.mpr ⟨?_, ?_, ?_, above, ?_⟩
  · simp [dots_nul, nul]
  · refine decide_eq_false (Nat.not_lt.mpr ?_)
    rw [Path.length_dots]
    exact short
  · simp [some_byte]
  · rw [origin, root, if_neg Bool.false_ne_true, Path.steps, Path.splitOn_dots,
      walk_dots here passable]
    exact walked

/-- The path of an entry leads to it, unless it is too long to be followed or the directory cannot
be passed. -/
theorem resolve_join_eq_ok_iff (reached : tree.resolve p = .ok (.directory entries faults))
    (named : IsEntryName name) :
    tree.resolve (p.join name) = .ok node ↔
      (p.join name).isTooLong = false ∧ faults.passage = none ∧
        (FileNode.directory entries faults).child? name = some node := by
  obtain ⟨nul, -, some_byte, above, walked⟩ := resolve_eq_ok_iff.mp reached
  obtain ⟨gap, gap_cases, bytes⟩ := p.join_bytes name
  have gap_nul : 0 ∉ gap := by rcases gap_cases with rfl | rfl <;> decide
  have join_nul : 0 ∉ (p.join name).bytes := by simp [bytes, nul, gap_nul, named.nul]
  have join_some : (p.join name).bytes ≠ [] := by simp [bytes, some_byte]
  have same_origin : tree.origin (p.join name) = tree.origin p := by
    unfold origin Path.isAbsolute
    rw [bytes, List.head?_append_of_ne_nil _ some_byte]
  obtain ⟨steps, steps_cases, joined⟩ := Path.steps_join named some_byte
  have walked_there : steps.foldlM step (tree.origin p) =
      .ok { working := .directory entries faults, above } := by
    rcases steps_cases with same | same
    · rw [← same, walked]
    · rw [same, walk_concat] at walked
      cases init : steps.foldlM step (tree.origin p) with
      | error e => rw [init] at walked; cases walked
      | ok t =>
        rw [init] at walked
        rw [eq_of_step_empty walked]
  rw [resolve_eq_ok_iff, same_origin, joined, walk_concat, walked_there]
  simp only [Except.bind, step_entry_eq_ok_iff named, FileTree.mk.injEq]
  simp [join_nul, join_some]

theorem isFile_eq_true_iff :
    tree.isFile p = true ↔ ∃ content, tree.resolve p = .ok (.file content) := by
  unfold isFile
  cases tree.resolve p with
  | error e => simp [Except.map, Except.toOption]
  | ok node => cases node <;> simp [Except.map, Except.toOption, FileNode.isFile]

theorem isDirectory_eq_true_iff :
    tree.isDirectory p = true ↔
      ∃ entries faults, tree.resolve p = .ok (.directory entries faults) := by
  unfold isDirectory
  cases tree.resolve p with
  | error e => simp [Except.map, Except.toOption]
  | ok node => cases node <;> simp [Except.map, Except.toOption, FileNode.isDirectory]

theorem ruleFiles_of_unlistable {e : FileError}
    (reached : tree.resolve p = .ok (.directory entries faults))
    (barred : faults.listing = some e) :
    tree.ruleFiles p = .error e := by
  simp only [ruleFiles, names, reached, Except.bind, FileNode.names, barred, Except.map]

theorem isRuleFileName_iff :
    isRuleFileName name ↔ ∃ stem, stem ≠ [] ∧ name = stem ++ Text.encode ".json" := by
  have five : (Text.encode ".json").length = 5 := by decide
  unfold isRuleFileName
  rw [Bool.and_eq_true, List.isSuffixOf_iff_suffix, decide_eq_true_iff]
  constructor
  · rintro ⟨⟨stem, rfl⟩, long⟩
    refine ⟨stem, ?_, rfl⟩
    rintro rfl
    simp [five] at long
  · rintro ⟨stem, some_byte, rfl⟩
    have pos := List.length_pos_of_ne_nil some_byte
    refine ⟨⟨stem, rfl⟩, ?_⟩
    rw [List.length_append]
    omega

namespace WellFormed

theorem fromRoot (proper : tree.WellFormed) : tree.fromRoot.WellFormed := by
  have root : tree.fromRoot.working ∈ tree.working :: tree.above := List.getLastD_mem_cons
  refine ⟨?_, by simp [FileTree.fromRoot]⟩
  exact List.forall_mem_cons.mpr ⟨proper.working, proper.above⟩ _ root

theorem origin (proper : tree.WellFormed) (p : Path) : (tree.origin p).WellFormed := by
  unfold FileTree.origin
  split
  · exact proper.fromRoot
  · exact proper

theorem parent (proper : tree.WellFormed) : tree.parent.WellFormed := by
  unfold FileTree.parent
  cases chain : tree.above with
  | nil => exact proper
  | cons nearest further =>
    have above := proper.above
    rw [chain, List.forall_mem_cons] at above
    exact ⟨above.1, above.2⟩

theorem step (proper : tree.WellFormed) (moved : tree.step name = .ok t) : t.WellFormed := by
  cases step_eq_ok_iff.mp moved with
  | slash | stay => exact proper
  | up => exact proper.parent
  | down _ _ _ found =>
    exact ⟨proper.working.child? found,
      List.forall_mem_cons.mpr ⟨proper.working, proper.above⟩⟩

theorem walk (proper : tree.WellFormed) {steps : List Text.Bytes}
    (walked : steps.foldlM FileTree.step tree = .ok t) : t.WellFormed := by
  induction steps generalizing tree with
  | nil => exact Except.ok.inj walked ▸ proper
  | cons name steps ih =>
    rw [List.foldlM_cons] at walked
    cases moved : tree.step name with
    | error e => rw [moved] at walked; cases walked
    | ok next =>
      rw [moved] at walked
      exact ih (proper.step moved) walked

theorem resolve (proper : tree.WellFormed) (reached : tree.resolve p = .ok node) :
    node.WellFormed := by
  obtain ⟨-, -, -, above, walked⟩ := resolve_eq_ok_iff.mp reached
  exact ((proper.origin p).walk walked).working

theorem resolve_join_eq_ok_iff (proper : tree.WellFormed)
    (reached : tree.resolve p = .ok (.directory entries faults)) (listed : (name, next) ∈ entries) :
    tree.resolve (p.join name) = .ok node ↔
      (p.join name).isTooLong = false ∧ faults.passage = none ∧ next = node := by
  have here := proper.resolve reached
  rw [FileTree.resolve_join_eq_ok_iff reached (here.named listed), here.child?_of_mem listed,
    Option.some.injEq]

theorem isFile_join_iff (proper : tree.WellFormed)
    (reached : tree.resolve p = .ok (.directory entries faults)) (listed : (name, next) ∈ entries) :
    tree.isFile (p.join name) ↔
      (p.join name).isTooLong = false ∧ faults.passage = none ∧ next.isFile := by
  simp only [isFile_eq_true_iff, proper.resolve_join_eq_ok_iff reached listed]
  cases next <;> simp [FileNode.isFile]

/-- The rule files are listed as far as their paths can be followed. -/
theorem ruleFiles_eq (proper : tree.WellFormed)
    (reached : tree.resolve p = .ok (.directory entries faults))
    (listable : faults.listing = none) :
    tree.ruleFiles p =
      .ok ((FileNode.directory entries faults).ruleFiles.filter fun name =>
        tree.isFile (p.join name)) := by
  have here := proper.resolve reached
  have names : tree.names p = .ok (entries.map Prod.fst) := by
    simp only [FileTree.names, reached, Except.bind, FileNode.names, listable]
  unfold FileTree.ruleFiles
  rw [names]
  refine congrArg Except.ok ?_
  have distinct := here.distinct.sublist
    (List.filter_sublist (p := fun name => tree.isFile (p.join name) && isRuleFileName name))
  refine (pairwise_lt_mergeSort distinct).eq_of_mem_iff (here.ruleFiles_ascending.filter _)
    fun name => ?_
  simp only [List.mem_mergeSort, List.mem_filter, List.mem_map, Bool.and_eq_true,
    FileNode.mem_ruleFiles]
  constructor
  · rintro ⟨⟨⟨_, next⟩, listed, rfl⟩, is_file, rule_file⟩
    obtain ⟨-, -, regular⟩ := (proper.isFile_join_iff reached listed).mp is_file
    cases next with
    | file content => exact ⟨⟨⟨content, listed⟩, rule_file⟩, is_file⟩
    | directory | broken => cases regular
  · rintro ⟨⟨⟨content, listed⟩, rule_file⟩, is_file⟩
    exact ⟨⟨_, listed, rfl⟩, is_file, rule_file⟩

end WellFormed

end FileTree

end ScreenReader
