import Mathlib.Data.Finset.Dedup
import Mathlib.Data.Finset.Card
import ScreenReader.Dictionary

namespace ScreenReader

/-- Where a step overwrites what is found under its own key alone, the last step for a key decides
what is found under it. -/
theorem find_foldl_of_overwrites {σ α κ β : Type} [DecidableEq κ] {find : σ → κ → Option β}
    {step : σ → α → σ} {key : α → κ} {value : α → β}
    (overwrites : ∀ s a k, find (step s a) k = if key a = k then some (value a) else find s k)
    (as : List α) (s : σ) (k : κ) :
    find (as.foldl step s) k = ((as.filter (key · == k)).getLast?.map value).or (find s k) := by
  induction as generalizing s with
  | nil => rfl
  | cons a as ih =>
    rw [List.foldl_cons, ih, overwrites]
    by_cases same : key a = k
    · rw [if_pos same, List.filter_cons_of_pos (by simpa using same), List.getLast?_cons]
      cases (as.filter (key · == k)).getLast? <;> rfl
    · rw [if_neg same, List.filter_cons_of_neg (by simpa using same)]

theorem Ascending.find_of_mem {α : Type} {key : α → String} {rows : List α} {row : α}
    (h : Ascending key rows) (mem : row ∈ rows) :
    rows.find? (key · == key row) = some row := by
  induction rows with
  | nil => simp at mem
  | cons a rows ih =>
    obtain ⟨above, tail⟩ := List.pairwise_cons.mp h
    rcases List.mem_cons.mp mem with rfl | mem
    · exact List.find?_cons_of_pos (beq_self_eq_true _)
    · have lt := above row mem
      have ne : ¬key a = key row := by
        intro eq
        rw [eq] at lt
        exact String.lt_irrefl _ lt
      rw [List.find?_cons_of_neg (by simpa using ne)]
      exact ih tail mem

theorem place_of_above {α : Type} {key : α → String} {rows : List α} {row : α}
    (above : ∀ a ∈ rows, key a < key row) : place key row rows = rows ++ [row] := by
  induction rows with
  | nil => rfl
  | cons a rows ih =>
    obtain ⟨first, later⟩ := List.forall_mem_cons.mp above
    have not_less : ¬key row < key a := fun less => String.lt_irrefl _ (String.lt_trans first less)
    have not_same : ¬key row = key a := fun same => String.lt_irrefl _ (same ▸ first)
    rw [place, if_neg not_less, if_neg not_same, ih later]
    rfl

namespace Dictionary

variable {α : Type}

theorem entries_foldl_insert {rows : List (String × α)} {d : Dictionary α}
    (ordered : Ascending Prod.fst (d.entries ++ rows)) :
    (rows.foldl (fun d (key, value) => d.insert key value) d).entries = d.entries ++ rows := by
  induction rows generalizing d with
  | nil => exact (List.append_nil _).symm
  | cons row rows ih =>
    have below : ∀ a ∈ d.entries, a.1 < row.1 := fun a mem =>
      (List.pairwise_append.mp ordered).2.2 a mem row List.mem_cons_self
    have placed : (d.insert row.1 row.2).entries = d.entries ++ [row] := place_of_above below
    rw [List.foldl_cons, ih, placed, List.append_assoc]
    · rfl
    · rw [placed, List.append_assoc]
      exact ordered

theorem ofList_entries (d : Dictionary α) : ofList d.entries = d :=
  Dictionary.ext (entries_foldl_insert d.ascending)

theorem mem_entries_iff {d : Dictionary α} {key : String} {value : α} :
    (key, value) ∈ d.entries ↔ d.get? key = some value := by
  unfold get?
  constructor
  · intro mem
    rw [d.ascending.find_of_mem mem]
    rfl
  · intro found
    obtain ⟨entry, first, rfl⟩ := Option.map_eq_some_iff.mp found
    have same : entry.1 = key := by simpa using List.find?_some first
    subst same
    exact List.mem_of_find?_eq_some first

theorem insert_comm {key other : String} (apart : key ≠ other) (d : Dictionary α) (a b : α) :
    (d.insert key a).insert other b = (d.insert other b).insert key a := by
  refine ext_get? fun k => ?_
  simp only [get?_insert]
  split
  next same => rw [if_neg fun eq => apart (eq.trans same.symm)]
  next => rfl

/-- The entries of a dictionary give it back in whatever order they are. -/
theorem ofList_of_perm {d : Dictionary α} {rows : List (String × α)} (order : rows.Perm d.entries) :
    ofList rows = d := by
  have values : ∀ row ∈ rows, d.get? row.1 = some row.2 := fun row mem =>
    mem_entries_iff.mp (order.mem_iff.mp mem)
  refine (order.foldl_eq' (fun row mem other mem' d => ?_) ∅).trans d.ofList_entries
  by_cases same : row.1 = other.1
  · have value := values row mem
    rw [same, values other mem'] at value
    rw [Prod.ext same (Option.some.inj value).symm]
  · exact insert_comm same d _ _

theorem contains_iff_mem_keys {d : Dictionary α} {key : String} :
    d.contains key ↔ key ∈ d.keys := by
  unfold contains keys
  rw [Option.isSome_iff_exists, List.mem_map]
  constructor
  · rintro ⟨value, found⟩
    exact ⟨(key, value), mem_entries_iff.mpr found, rfl⟩
  · rintro ⟨⟨_, value⟩, mem, rfl⟩
    exact ⟨value, mem_entries_iff.mp mem⟩

theorem keys_ascending (d : Dictionary α) : d.keys.Pairwise (· < ·) :=
  List.pairwise_map.mpr d.ascending

theorem length_keys (d : Dictionary α) : d.keys.length = d.size :=
  List.length_map _

theorem nodup_keys (d : Dictionary α) : d.keys.Nodup := by
  refine d.keys_ascending.imp ?_
  rintro key _ lt rfl
  exact String.lt_irrefl key lt

theorem size_eq_card {d : Dictionary α} {texts : List String}
    (same : ∀ key, d.contains key ↔ key ∈ texts) : d.size = texts.toFinset.card := by
  have sets : d.keys.toFinset = texts.toFinset := by
    apply Finset.ext
    intro key
    rw [List.mem_toFinset, List.mem_toFinset, ← same, contains_iff_mem_keys]
  rw [← sets, List.toFinset_card_of_nodup d.nodup_keys, length_keys]

end Dictionary

end ScreenReader
