import ScreenReader.Sorted

namespace ScreenReader

/-- A finite set of texts, held in ascending order. -/
@[ext]
structure TextSet where
  members : List String
  ascending : Ascending id members
  deriving DecidableEq

namespace TextSet

def empty : TextSet := ⟨[], .nil⟩

instance : EmptyCollection TextSet := ⟨empty⟩

instance : Inhabited TextSet := ⟨empty⟩

instance : Membership String TextSet := ⟨fun s text => text ∈ s.members⟩

instance (text : String) (s : TextSet) : Decidable (text ∈ s) :=
  inferInstanceAs (Decidable (text ∈ s.members))

def contains (s : TextSet) (text : String) : Bool :=
  s.members.contains text

def insert (s : TextSet) (text : String) : TextSet :=
  ⟨place id text s.members, s.ascending.place _⟩

def isEmpty (s : TextSet) : Bool :=
  s.members.isEmpty

def union (s t : TextSet) : TextSet :=
  t.members.foldl insert s

instance : Union TextSet := ⟨union⟩

theorem mem_iff_find {s : TextSet} {text : String} :
    text ∈ s ↔ s.members.find? (id · == text) = some text := by
  show text ∈ s.members ↔ _
  constructor
  · intro h
    cases hf : s.members.find? (id · == text) with
    | none => simpa using List.find?_eq_none.mp hf text h
    | some a => rw [show a = text by simpa using List.find?_some hf]
  · exact List.mem_of_find?_eq_some

@[simp]
theorem not_mem_empty (text : String) : ¬text ∈ (∅ : TextSet) :=
  List.not_mem_nil

@[simp]
theorem mem_insert {s : TextSet} {text a : String} : a ∈ s.insert text ↔ a = text ∨ a ∈ s := by
  rw [mem_iff_find, mem_iff_find]
  simp only [insert, find_place]
  grind

@[simp]
theorem mem_union {s t : TextSet} {a : String} : a ∈ s ∪ t ↔ a ∈ s ∨ a ∈ t := by
  have fold : ∀ (texts : List String) (s : TextSet),
      a ∈ texts.foldl insert s ↔ a ∈ s ∨ a ∈ texts := by
    intro texts
    induction texts with
    | nil => simp
    | cons text texts ih => simp [ih, or_assoc, or_left_comm]
  exact fold t.members s

/-- Sets with the same members are equal. -/
theorem ext_mem {s t : TextSet} (h : ∀ text, text ∈ s ↔ text ∈ t) : s = t := by
  refine TextSet.ext (s.ascending.eq_of_find t.ascending fun k => ?_)
  have hk := h k
  rw [mem_iff_find, mem_iff_find] at hk
  have found : ∀ {texts : List String} {a : String}, texts.find? (id · == k) = some a → a = k :=
    fun hf => by simpa using List.find?_some hf
  cases hs : s.members.find? (id · == k) with
  | none =>
    cases ht : t.members.find? (id · == k) with
    | none => rfl
    | some b =>
      rw [found ht] at ht
      rw [hk.mpr ht] at hs
      contradiction
  | some a =>
    obtain rfl := found hs
    exact (hk.mp hs).symm

end TextSet

end ScreenReader
