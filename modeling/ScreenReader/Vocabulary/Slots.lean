import ScreenReader.Dictionary
import ScreenReader.Vocabulary

namespace ScreenReader.Vocabulary

/-- Vocabularies under names; a name not in use stands for the empty vocabulary. -/
abbrev Slots := Dictionary Vocabulary

inductive SlotStep where
  | record (slot : String) (c : Constraint)
  | merge (slot other : String)
  deriving DecidableEq

namespace Slots

def read (slots : Slots) (slot : String) : Vocabulary :=
  (slots.get? slot).getD ∅

def apply (slots : Slots) : SlotStep → Slots
  | .record slot c => slots.insert slot ((slots.read slot).record c)
  | .merge slot other => slots.insert slot ((slots.read slot).merge (slots.read other))

def run (slots : Slots) (steps : List SlotStep) : Slots :=
  steps.foldl apply slots

end Slots

end ScreenReader.Vocabulary
