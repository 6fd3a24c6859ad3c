import PairedSource.RuleTable

namespace PairedSource.RuleTable

variable {table : RuleTable} {kind text : String} {construct : Construct} {mode : TargetMode}

def own? (table : RuleTable) (kind : String) (mode : TargetMode) : Option Rule :=
  (table.rules.lookup kind).bind (·.lookup mode)

theorem rule?_modern : table.rule? kind .modern = table.own? kind .modern := by
  rw [rule?, own?]
  cases table.rules.lookup kind with
  | none => rfl
  | some modes => cases h : modes.lookup TargetMode.modern <;> simp [h]

theorem rule?_legacy :
    table.rule? kind .legacy = (table.own? kind .legacy).or (table.own? kind .modern) := by
  rw [rule?, own?, own?]
  cases table.rules.lookup kind with
  | none => rfl
  | some modes => cases h : modes.lookup TargetMode.legacy <;> simp [h]

theorem resolve?_of_own?_eq_none (h : table.own? construct.kind .legacy = none) :
    table.resolve? construct mode = table.resolve? construct .modern := by
  cases mode with
  | modern => rfl
  | legacy => rw [resolve?, resolve?, rule?_legacy, rule?_modern, h, Option.none_or]

/-- What has a rule for the modern target has one for all targets. -/
theorem exists_resolve?_eq_some (h : table.resolve? construct .modern = some text)
    (mode : TargetMode) : ∃ other, table.resolve? construct mode = some other := by
  cases mode with
  | modern => exact ⟨text, h⟩
  | legacy =>
    obtain ⟨rule, hrule, -⟩ := Option.map_eq_some_iff.1 h
    rw [rule?_modern] at hrule
    cases hown : table.own? construct.kind .legacy with
    | none => exact ⟨rule construct, by rw [resolve?, rule?_legacy, hown, hrule]; rfl⟩
    | some own => exact ⟨own construct, by rw [resolve?, rule?_legacy, hown]; rfl⟩

end PairedSource.RuleTable
