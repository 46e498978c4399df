namespace ScreenReader

/-- Rows in strictly ascending order of their keys, which are thus distinct. -/
def Ascending {α : Type} (key : α → String) (rows : List α) : Prop :=
  rows.Pairwise fun a b => key a < key b

/-- Puts `row` in its place; a row of the same key is replaced. -/
def place {α : Type} (key : α → String) (row : α) : List α → List α
  | [] => [row]
  | a :: rows =>
    if key row < key a then row :: a :: rows
    else if key row = key a then row :: rows
    else a :: place key row rows

variable {α : Type} {key : α → String}

theorem mem_place {row a : α} {rows : List α} (h : a ∈ place key row rows) :
    a = row ∨ a ∈ rows := by
  induction rows with
  | nil => simpa [place] using h
  | cons b rows ih => grind [place]

theorem Ascending.nil : Ascending key [] := List.Pairwise.nil

theorem Ascending.place {rows : List α} (h : Ascending key rows) (row : α) :
    Ascending key (place key row rows) := by
  induction rows with
  | nil => simp [ScreenReader.place, Ascending]
  | cons a rows ih =>
    obtain ⟨above, tail⟩ := List.pairwise_cons.mp h
    rw [ScreenReader.place]
    split
    · next lt =>
      refine List.pairwise_cons.mpr ⟨fun b hb => ?_, h⟩
      rcases List.mem_cons.mp hb with rfl | hb
      · exact lt
      · exact String.lt_trans lt (above b hb)
    · split
      · next eq => exact List.pairwise_cons.mpr ⟨fun b hb => eq ▸ above b hb, tail⟩
      · next ge ne =>
        refine List.pairwise_cons.mpr ⟨fun b hb => ?_, ih tail⟩
        rcases mem_place hb with rfl | hb
        · grind
        · exact above b hb

/-- Ascending rows are determined by what they hold under each key. -/
theorem Ascending.eq_of_find {xs ys : List α} (hx : Ascending key xs) (hy : Ascending key ys)
    (h : ∀ k, xs.find? (key · == k) = ys.find? (key · == k)) : xs = ys := by
  induction xs generalizing ys with
  | nil =>
    cases ys with
    | nil => rfl
    | cons y ys => simpa using h (key y)
  | cons x xs ih =>
    cases ys with
    | nil => simpa using h (key x)
    | cons y ys =>
      obtain ⟨xAbove, xTail⟩ := List.pairwise_cons.mp hx
      obtain ⟨yAbove, yTail⟩ := List.pairwise_cons.mp hy
      have hxy := h (key x)
      have hyx := h (key y)
      have keys : key x = key y := by
        by_cases eq : key x = key y
        · exact eq
        · simp only [List.find?_cons, beq_self_eq_true, beq_eq_false_iff_ne.mpr eq,
            beq_eq_false_iff_ne.mpr (Ne.symm eq)] at hxy hyx
          have inY := List.mem_of_find?_eq_some hxy.symm
          have inX := List.mem_of_find?_eq_some hyx
          grind
      have first : x = y := by simpa [List.find?_cons, keys] using hxy
      subst first
      congr 1
      refine ih xTail yTail fun k => ?_
      by_cases eq : key x = k
      · have below : ∀ zs : List α, (∀ z ∈ zs, key x < key z) →
            zs.find? (key · == k) = none := by
          intro zs hz
          refine List.find?_eq_none.mpr fun z mem => ?_
          have := hz z mem
          grind
        rw [below xs xAbove, below ys yAbove]
      · simpa [List.find?_cons, beq_eq_false_iff_ne.mpr eq] using h k

theorem find_place (row : α) (rows : List α) (k : String) :
    (place key row rows).find? (key · == k) =
      if key row = k then some row else rows.find? (key · == k) := by
  induction rows with
  | nil => by_cases h : key row = k <;> simp [place, h]
  | cons a rows ih => grind [place]

end ScreenReader
