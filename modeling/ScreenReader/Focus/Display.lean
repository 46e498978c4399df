import ScreenReader.Focus.History

namespace ScreenReader

def Target.text (t : Target) : String :=
  s!"TargetKey({t.key})"

/-- The lines of a target within a list or behind a label. -/
def Target.lines (t : Target) (indent label : String) : List String :=
  [indent ++ label ++ "TargetKey(", s!"{indent}    {t.key},", indent ++ "),"]

namespace History

/-- The history on one line. -/
def text (h : History) : String :=
  "HistoryTracker \x7b " ++ ", ".intercalate
    [s!"seed: {h.seed.text}",
      "history: [" ++ ", ".intercalate (h.entries.map Target.text) ++ "]",
      s!"arrived_valid: {h.arrivedValid}",
      s!"limit: {h.limit}",
      ".. \x7d"]

/-- The history with a line for each item. -/
def indentedText (h : History) : String :=
  "\n".intercalate <|
    ["HistoryTracker \x7b"] ++ h.seed.lines "    " "seed: " ++
    (if h.entries.isEmpty then ["    history: [],"]
      else ["    history: ["] ++ h.entries.flatMap (·.lines "        " "") ++ ["    ],"]) ++
    [s!"    arrived_valid: {h.arrivedValid},", s!"    limit: {h.limit},", "    ..", "\x7d"]

end History

end ScreenReader
