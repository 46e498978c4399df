import ScreenReader.Sorted

namespace ScreenReader

/-- Values under text keys, in ascending order of the keys. -/
@[ext]
structure Dictionary (α : Type) where
  entries : List (String × α)
  ascending : Ascending Prod.fst entries
  deriving DecidableEq

namespace Dictionary

variable {α : Type}

def empty : Dictionary α := ⟨[], .nil⟩

instance : EmptyCollection (Dictionary α) := ⟨empty⟩

instance : Inhabited (Dictionary α) := ⟨empty⟩

def get? (d : Dictionary α) (key : String) : Option α :=
  (d.entries.find? (·.1 == key)).map Prod.snd

def contains (d : Dictionary α) (key : String) : Bool :=
  (d.get? key).isSome

/-- A value that stands under the key already is replaced. -/
def insert (d : Dictionary α) (key : String) (value : α) : Dictionary α :=
  ⟨place Prod.fst (key, value) d.entries, d.ascending.place _⟩

def size (d : Dictionary α) : Nat :=
  d.entries.length

def keys (d : Dictionary α) : List String :=
  d.entries.map Prod.fst

def values (d : Dictionary α) : List α :=
  d.entries.map Prod.snd

/-- Of two entries with the same key, the later one stays. -/
def ofList (entries : List (String × α)) : Dictionary α :=
  entries.foldl (fun d (key, value) => d.insert key value) ∅

@[simp]
theorem get?_empty (key : String) : (∅ : Dictionary α).get? key = none := rfl

theorem get?_insert (d : Dictionary α) (key k : String) (value : α) :
    (d.insert key value).get? k = if key = k then some value else d.get? k := by
  simp only [get?, insert, find_place]
  split <;> rfl

/-- What stands under each key is all there is to a dictionary. -/
theorem ext_get? {d e : Dictionary α} (h : ∀ key, d.get? key = e.get? key) : d = e := by
  have keyed : ∀ (rows : List (String × α)) (k : String) (row : String × α),
      rows.find? (·.1 == k) = some row → row.1 = k :=
    fun rows k row found => by simpa using List.find?_some found
  refine Dictionary.ext (d.ascending.eq_of_find e.ascending fun k => ?_)
  have hk := h k
  simp only [get?] at hk
  cases hd : d.entries.find? (·.1 == k) <;> cases he : e.entries.find? (·.1 == k) <;>
    simp_all [Prod.ext_iff]
  grind

end Dictionary

end ScreenReader
