import ScreenReader.Proofs.FileTree
import ScreenReader.RuleBook.Load

namespace ScreenReader

namespace FileNode

/-- The same node, the entries of any directory in it listed in another order. -/
inductive Relisted : FileNode → FileNode → Prop where
  | refl (t : FileNode) : Relisted t t
  | trans {t u v : FileNode} (first : Relisted t u) (second : Relisted u v) : Relisted t v
  | order {entries others : List (Text.Bytes × FileNode)} {faults : DirectoryFaults}
      (perm : entries.Perm others) : Relisted (.directory entries faults) (.directory others faults)
  | within {name : Text.Bytes} {t u : FileNode} {faults : DirectoryFaults}
      (front back : List (Text.Bytes × FileNode)) (again : Relisted t u) :
      Relisted (.directory (front ++ (name, t) :: back) faults)
        (.directory (front ++ (name, u) :: back) faults)

namespace Relisted

variable {t u : FileNode}

theorem symm (again : t.Relisted u) : u.Relisted t := by
  induction again with
  | refl t => exact .refl t
  | trans _ _ first second => exact second.trans first
  | order perm => exact .order perm.symm
  | within front back _ again => exact .within front back again

theorem exists_eq_directory (again : t.Relisted u) {entries : List (Text.Bytes × FileNode)}
    {faults : DirectoryFaults} (is_directory : t = .directory entries faults) :
    ∃ others, u = .directory others faults := by
  induction again generalizing entries with
  | refl => exact ⟨entries, is_directory⟩
  | trans _ _ first second =>
    obtain ⟨others, middle⟩ := first is_directory
    exact second middle
  | order | within =>
    cases is_directory
    exact ⟨_, rfl⟩

end Relisted

end FileNode

namespace FileTree

/-- There is a directory with these faults at a path. -/
def HasDirectory (tree : FileTree) (p : Path) (faults : DirectoryFaults) : Prop :=
  ∃ entries, tree.resolve p = .ok (.directory entries faults)

/-- A regular file with the extension `json` lies directly in the directory at a path. -/
def HasRuleFile (tree : FileTree) (p : Path) (name : Text.Bytes)
    (content : Except FileError Text.Bytes) : Prop :=
  ∃ node, tree.resolve p = .ok node ∧ (name, .file content) ∈ node.entries ∧
    ∃ stem, stem ≠ [] ∧ name = stem ++ Text.encode ".json"

/-- Trees with the same rule files under a directory, by name and content. The directories that hold
them have the same faults. -/
structure SameRuleFiles (tree other : FileTree) (directory : Path) : Prop where
  directories : ∀ (kind : Kind) (faults : DirectoryFaults),
    tree.HasDirectory (kind.directoryUnder directory) faults ↔
      other.HasDirectory (kind.directoryUnder directory) faults
  files : ∀ (kind : Kind) (name : Text.Bytes) (content : Except FileError Text.Bytes),
    tree.HasRuleFile (kind.directoryUnder directory) name content ↔
      other.HasRuleFile (kind.directoryUnder directory) name content

/-- The same tree, the entries of any of its directories listed in another order. -/
structure Relisted (tree other : FileTree) : Prop where
  working : tree.working.Relisted other.working
  above : List.Forall₂ FileNode.Relisted tree.above other.above

variable {tree other t : FileTree} {p directory : Path} {kind : Kind}

theorem SameRuleFiles.trans {third : FileTree} (same : tree.SameRuleFiles other directory)
    (again : other.SameRuleFiles third directory) : tree.SameRuleFiles third directory where
  directories kind faults := (same.directories kind faults).trans (again.directories kind faults)
  files kind name content := (same.files kind name content).trans (again.files kind name content)

namespace Relisted

theorem symm (again : tree.Relisted other) : other.Relisted tree :=
  ⟨again.working.symm, again.above.flip.imp fun _ _ => FileNode.Relisted.symm⟩

theorem fromRoot (again : tree.Relisted other) : tree.fromRoot.Relisted other.fromRoot := by
  refine ⟨?_, .nil⟩
  obtain ⟨here, above⟩ := tree
  obtain ⟨there, others⟩ := other
  obtain ⟨working, chains⟩ := again
  show (above.getLastD here).Relisted (others.getLastD there)
  dsimp only at working chains
  induction chains generalizing here there with
  | nil => exact working
  | cons nearest _ ih =>
    rw [List.getLastD_cons, List.getLastD_cons]
    exact ih _ _ nearest

theorem origin (again : tree.Relisted other) (p : Path) :
    (tree.origin p).Relisted (other.origin p) := by
  unfold FileTree.origin
  split
  · exact again.fromRoot
  · exact again

theorem parent (again : tree.Relisted other) : tree.parent.Relisted other.parent := by
  obtain ⟨here, above⟩ := tree
  obtain ⟨there, others⟩ := other
  cases again.above with
  | nil => exact again
  | cons nearest further => exact ⟨nearest, further⟩

end Relisted

theorem hasRuleFile_iff {node : FileNode} (reached : tree.resolve p = .ok node) {name : Text.Bytes}
    {content : Except FileError Text.Bytes} :
    tree.HasRuleFile p name content ↔
      (name, .file content) ∈ node.entries ∧ isRuleFileName name := by
  unfold HasRuleFile
  rw [isRuleFileName_iff, reached]
  simp

namespace SameRuleFiles

theorem isDirectory (same : tree.SameRuleFiles other directory) :
    tree.isDirectory (kind.directoryUnder directory) =
      other.isDirectory (kind.directoryUnder directory) := by
  have there (tree : FileTree) : tree.isDirectory (kind.directoryUnder directory) ↔
      ∃ faults, tree.HasDirectory (kind.directoryUnder directory) faults :=
    isDirectory_eq_true_iff.trans exists_comm
  rw [Bool.eq_iff_iff, there, there]
  exact exists_congr (same.directories kind)

/-- The rule files are listed in ascending order, so that which they are decides the list. -/
theorem ruleFiles_eq (same : tree.SameRuleFiles other directory) (proper : tree.WellFormed)
    (proper_other : other.WellFormed) {node node_other : FileNode}
    (reached : tree.resolve (kind.directoryUnder directory) = .ok node)
    (reached_other : other.resolve (kind.directoryUnder directory) = .ok node_other) :
    node.ruleFiles = node_other.ruleFiles := by
  refine (proper.resolve reached).ruleFiles_ascending.eq_of_mem_iff
    (proper_other.resolve reached_other).ruleFiles_ascending fun name => ?_
  simp only [FileNode.mem_ruleFiles, ← exists_and_right, ← hasRuleFile_iff reached,
    ← hasRuleFile_iff reached_other, same.files kind]

end SameRuleFiles

end FileTree

namespace RuleBook

end RuleBook

end ScreenReader
