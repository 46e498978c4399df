import ScreenReader.Proofs.Dictionary
import ScreenReader.RuleSet

namespace ScreenReader.RuleSet

def find? (s : RuleSet) (c : Constraint) : Option Rule :=
  s.rules.find? (·.constraint == c)

def constraints (s : RuleSet) : List Constraint :=
  s.rules.map Rule.constraint

def insertAll (s : RuleSet) (rules : List Rule) : RuleSet :=
  rules.foldl insert s

theorem defines_iff {s : RuleSet} {c : Constraint} : s.defines c ↔ c ∈ s.constraints := by
  simp [defines, constraints]

theorem insert_of_mem {s : RuleSet} {rule : Rule} (known : rule.constraint ∈ s.constraints) :
    s.insert rule = ⟨replaceFirst rule s.rules⟩ :=
  if_pos (defines_iff.mpr known)

theorem insert_of_not_mem {s : RuleSet} {rule : Rule} (fresh : rule.constraint ∉ s.constraints) :
    s.insert rule = ⟨s.rules ++ [rule]⟩ :=
  if_neg fun defined => fresh (defines_iff.mp defined)

theorem map_replaceFirst (rule : Rule) (rules : List Rule) :
    (replaceFirst rule rules).map Rule.constraint = rules.map Rule.constraint := by
  induction rules with
  | nil => rfl
  | cons r rules ih =>
    rw [replaceFirst]
    split
    next same => rw [List.map_cons, List.map_cons, same]
    next => rw [List.map_cons, List.map_cons, ih]

theorem constraints_insert (s : RuleSet) (rule : Rule) :
    (s.insert rule).constraints =
      if rule.constraint ∈ s.constraints then s.constraints
      else s.constraints ++ [rule.constraint] := by
  split
  next known =>
    rw [insert_of_mem known]
    exact map_replaceFirst rule s.rules
  next fresh =>
    rw [insert_of_not_mem fresh]
    exact List.map_append

theorem find_replaceFirst {rule : Rule} {rules : List Rule}
    (known : rule.constraint ∈ rules.map Rule.constraint) (c : Constraint) :
    (replaceFirst rule rules).find? (·.constraint == c) =
      if rule.constraint = c then some rule else rules.find? (·.constraint == c) := by
  induction rules with
  | nil => simp at known
  | cons r rules ih =>
    rw [replaceFirst]
    by_cases same : r.constraint = rule.constraint
    · rw [if_pos same]
      grind
    · rw [if_neg same]
      grind

theorem find?_eq_none_iff {s : RuleSet} {c : Constraint} :
    s.find? c = none ↔ c ∉ s.constraints := by
  simp [find?, constraints]

theorem find?_insert (s : RuleSet) (rule : Rule) (c : Constraint) :
    (s.insert rule).find? c = if rule.constraint = c then some rule else s.find? c := by
  by_cases known : rule.constraint ∈ s.constraints
  · rw [insert_of_mem known]
    exact find_replaceFirst known c
  · rw [insert_of_not_mem known]
    have appended : find? ⟨s.rules ++ [rule]⟩ c =
        (s.find? c).or ([rule].find? (·.constraint == c)) := List.find?_append
    rw [appended]
    by_cases same : rule.constraint = c
    · rw [if_pos same, find?_eq_none_iff.mpr (same ▸ known), Option.none_or,
        List.find?_cons_of_pos (by simpa using same)]
    · rw [if_neg same, List.find?_cons_of_neg (by simpa using same), List.find?_nil,
        Option.or_none]

/-- What is found under a constraint is what was put in under it last. -/
theorem find?_insertAll (s : RuleSet) (rules : List Rule) (c : Constraint) :
    (s.insertAll rules).find? c =
      ((rules.filter (·.constraint == c)).getLast?).or (s.find? c) := by
  have last : (s.insertAll rules).find? c =
      ((rules.filter (·.constraint == c)).getLast?.map id).or (s.find? c) :=
    find_foldl_of_overwrites find?_insert rules s c
  rwa [Option.map_id] at last

theorem mem_constraints_insertAll {s : RuleSet} {rules : List Rule} {c : Constraint} :
    c ∈ (s.insertAll rules).constraints ↔
      c ∈ s.constraints ∨ c ∈ rules.map Rule.constraint := by
  induction rules generalizing s with
  | nil => simp [insertAll]
  | cons rule rules ih =>
    have step : c ∈ (s.insert rule).constraints ↔ c ∈ s.constraints ∨ c = rule.constraint := by
      rw [constraints_insert]
      split
      next known =>
        refine ⟨.inl, ?_⟩
        rintro (mem | rfl)
        · exact mem
        · exact known
      next => simp
    show c ∈ ((s.insert rule).insertAll rules).constraints ↔ _
    rw [ih, step, List.map_cons, List.mem_cons, or_assoc]

theorem mem_replaceFirst {rule r : Rule} {rules : List Rule} (mem : r ∈ replaceFirst rule rules) :
    r = rule ∨ r ∈ rules := by
  induction rules with
  | nil => exact .inr mem
  | cons q rules ih =>
    rw [replaceFirst] at mem
    split at mem
    next =>
      rcases List.mem_cons.mp mem with rfl | mem
      · exact .inl rfl
      · exact .inr (List.mem_cons_of_mem q mem)
    next =>
      rcases List.mem_cons.mp mem with rfl | mem
      · exact .inr List.mem_cons_self
      · exact (ih mem).imp_right (List.mem_cons_of_mem q)

theorem mem_insert {s : RuleSet} {rule r : Rule} (mem : r ∈ (s.insert rule).rules) :
    r = rule ∨ r ∈ s.rules := by
  unfold insert at mem
  split at mem
  next => exact mem_replaceFirst mem
  next =>
    rcases List.mem_append.mp mem with mem | mem
    · exact .inr mem
    · exact .inl (List.mem_singleton.mp mem)

theorem mem_insertAll {s : RuleSet} {rules : List Rule} {r : Rule}
    (mem : r ∈ (s.insertAll rules).rules) : r ∈ s.rules ∨ r ∈ rules := by
  induction rules generalizing s with
  | nil => exact .inl mem
  | cons rule rules ih =>
    rcases ih mem with early | late
    · rcases mem_insert early with rfl | old
      · exact .inr List.mem_cons_self
      · exact .inl old
    · exact .inr (List.mem_cons_of_mem rule late)

theorem nodup_insertAll {s : RuleSet} (distinct : s.constraints.Nodup) (rules : List Rule) :
    (s.insertAll rules).constraints.Nodup := by
  induction rules generalizing s with
  | nil => exact distinct
  | cons rule rules ih =>
    apply ih
    rw [constraints_insert]
    split
    next => exact distinct
    next fresh =>
      refine List.nodup_append.mpr ⟨distinct, List.nodup_singleton _, ?_⟩
      intro c mem e single
      rintro rfl
      rw [List.mem_singleton.mp single] at mem
      exact fresh mem

theorem insertAll_of_nodup {s : RuleSet} {rules : List Rule}
    (distinct : (s.constraints ++ rules.map Rule.constraint).Nodup) :
    s.insertAll rules = ⟨s.rules ++ rules⟩ := by
  induction rules generalizing s with
  | nil => simp [insertAll]
  | cons rule rules ih =>
    have fresh : rule.constraint ∉ s.constraints := by
      intro mem
      have apart := (List.nodup_append.mp distinct).2.2
      exact apart _ mem _ List.mem_cons_self rfl
    show (s.insert rule).insertAll rules = _
    rw [insert_of_not_mem fresh, ih]
    · simp
    · simpa [constraints] using distinct

theorem find?_of_mem {s : RuleSet} (distinct : s.constraints.Nodup) {r : Rule} (mem : r ∈ s.rules) :
    s.find? r.constraint = some r := by
  cases found : s.find? r.constraint with
  | none => exact absurd (List.mem_map_of_mem mem) (find?_eq_none_iff.mp found)
  | some q =>
    have same : q.constraint = r.constraint := by simpa using List.find?_some found
    have inside := List.mem_of_find?_eq_some found
    rw [List.inj_on_of_nodup_map distinct inside mem same]

theorem find_filter_of_nodup {rules : List Rule} (distinct : (rules.map Rule.constraint).Nodup)
    (p : Rule → Bool) (c : Constraint) :
    (rules.filter p).find? (·.constraint == c) =
      (rules.find? (·.constraint == c)).filter p := by
  induction rules with
  | nil => rfl
  | cons rule rules ih =>
    obtain ⟨apart, tail⟩ := List.nodup_cons.mp distinct
    by_cases same : rule.constraint = c
    · have others : rules.find? (·.constraint == c) = none := by
        subst same
        exact find?_eq_none_iff.mpr apart
      rw [List.find?_cons_of_pos (by simpa using same)]
      by_cases hp : p rule
      · rw [List.filter_cons_of_pos hp, List.find?_cons_of_pos (by simpa using same),
          Option.filter_some, if_pos hp]
      · rw [List.filter_cons_of_neg hp, ih tail, others, Option.filter_none,
          Option.filter_some, if_neg hp]
    · rw [List.find?_cons_of_neg (by simpa using same), ← ih tail]
      by_cases hp : p rule
      · rw [List.filter_cons_of_pos hp, List.find?_cons_of_neg (by simpa using same)]
      · rw [List.filter_cons_of_neg hp]

theorem lookup?_eq {s : RuleSet} (distinct : s.constraints.Nodup) (text : String)
    (c : Constraint) : s.lookup? text c = (s.find? c).filter (·.appliesTo text) :=
  find_filter_of_nodup distinct (·.appliesTo text) c

end ScreenReader.RuleSet
