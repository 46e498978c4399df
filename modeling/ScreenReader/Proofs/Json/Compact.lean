import ScreenReader.Json.Compact
import ScreenReader.Proofs.Json.Spelled

namespace ScreenReader.Json

theorem spellsUnit_control {n : Nat} (control : n < 0x20) :
    SpellsUnit n ['0', '0', Nat.digitChar (n / 16), Nat.digitChar (n % 16)] := by
  have high : n / 16 < 16 := by omega
  have low : n % 16 < 16 := by omega
  have digit : '0' ∈ Text.hexDigits := List.mem_cons_self
  have zero : Text.digitValue '0' = 0 := by decide
  refine ⟨rfl, ?_, ?_⟩
  · simp [digit, Text.digitChar_mem_hexDigits high, Text.digitChar_mem_hexDigits low]
  · simp only [List.reverse_cons, List.reverse_nil, List.nil_append, List.cons_append,
      List.map_cons, List.map_nil, zero, Text.digitValue_digitChar high, Text.digitValue_digitChar low,
      Nat.ofDigits_cons, Nat.ofDigits_nil]
    omega

theorem spellsChar_escapeChar (c : Char) : SpellsChar c (escapeChar c) := by
  unfold escapeChar
  split
  case h_8 quote backslash _ _ _ _ _ =>
    split
    next control =>
      have units : Text.utf16Units c = [c.toNat] := if_pos (Nat.lt_trans control (by decide))
      exact .unit units (spellsUnit_control control)
    next shown => exact .plain quote backslash (Nat.not_lt.mp shown)
  all_goals exact .letter (by decide)

theorem spells_text (s : String) : Spells s (Compact.text s) := by
  refine ⟨s.toList.map escapeChar, ?_, ?_⟩
  · exact List.forall₂_map_right_iff.mpr (List.forall₂_same.mpr fun c _ => spellsChar_escapeChar c)
  · rw [← List.flatMap_def]
    rfl

theorem listed_separated (pieces : List (List Char)) :
    Listed true pieces (Compact.separated pieces) := by
  have later : ∀ pieces : List (List Char), Listed false pieces (pieces.flatMap (',' :: ·)) := by
    intro pieces
    induction pieces with
    | nil => exact .nil isGap_nil
    | cons piece pieces ih => exact .cons isGap_nil isGap_nil ih
  cases pieces with
  | nil => exact .nil isGap_nil
  | cons piece pieces => exact .cons isGap_nil isGap_nil (later pieces)

theorem spellsList_list {α : Type} {IsSpelled : α → List Char → Prop} {write : α → List Char}
    (written : ∀ a, IsSpelled a (write a)) (as : List α) :
    SpellsList IsSpelled as (Compact.list (as.map write)) :=
  ⟨as.map write, _, List.forall₂_map_right_iff.mpr (List.forall₂_same.mpr fun a _ => written a),
    listed_separated _, rfl⟩

theorem isMember_member (key : String) (value : List Char) :
    IsMember (Spells key) value (Compact.member key value) :=
  ⟨Compact.text key, [], [], spells_text key, isGap_nil, isGap_nil, rfl⟩

theorem spellsObject_object (rows : List (String × List Char)) :
    SpellsObject rows (Compact.object rows) :=
  ⟨_, _, List.forall₂_map_right_iff.mpr
    (List.forall₂_same.mpr fun row _ => isMember_member row.1 row.2), listed_separated _, rfl⟩

theorem spellsDictionary_object {α : Type} {IsSpelled : α → List Char → Prop}
    {write : α → List Char} (written : ∀ a, IsSpelled a (write a)) (d : Dictionary α) :
    SpellsDictionary IsSpelled d
      (Compact.object (d.entries.map fun entry => (entry.1, write entry.2))) :=
  ⟨d.entries, _, .refl _, List.forall₂_map_right_iff.mpr
    (List.forall₂_same.mpr fun entry _ => ⟨rfl, written entry.2⟩), spellsObject_object _⟩

theorem isDocument_ofList {IsSpelled : List Char → Prop} {cs : List Char} (spelled : IsSpelled cs) :
    IsDocument IsSpelled (String.ofList cs) :=
  ⟨[], cs, [], isGap_nil, spelled, isGap_nil, by simp⟩

theorem text_append_inj {k l : String} {cs ds : List Char}
    (same : Compact.text k ++ cs = Compact.text l ++ ds) : k = l ∧ cs = ds := by
  have read := key_spelled (spells_text l) ds
  rw [← same, key_spelled (spells_text k)] at read
  exact Prod.mk.inj (Except.ok.inj read)

end ScreenReader.Json
