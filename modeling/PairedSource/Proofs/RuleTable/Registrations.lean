import Mathlib.Data.List.Induction
import PairedSource.Proofs.Association
import PairedSource.Proofs.RuleTable

namespace PairedSource.RuleTable

open Association

structure Registration where
  kind : String
  mode : TargetMode
  rule : Rule

def register (table : RuleTable) (r : Registration) : RuleTable :=
  table.insert r.kind r.mode r.rule

def registerAll (table : RuleTable) (l : List Registration) : RuleTable :=
  l.foldl register table

def registrations (table : RuleTable) : List Registration :=
  table.rules.flatMap fun (kind, modes) ↦ modes.map fun (mode, rule) ↦ ⟨kind, mode, rule⟩

/-- A table that comes out of the empty one by entering rules and other such tables. -/
inductive Built : RuleTable → Prop
  | empty : Built {}
  | insert {table : RuleTable} (h : Built table) (kind : String) (mode : TargetMode)
      (rule : Rule) : Built (table.insert kind mode rule)
  | extend {a b : RuleTable} (ha : Built a) (hb : Built b) : Built (a.extend b)

variable {table a b c : RuleTable} {kind other : String} {mode mode' : TargetMode} {rule : Rule}

theorem registerAll_append (table : RuleTable) (l l' : List Registration) :
    table.registerAll (l ++ l') = (table.registerAll l).registerAll l' :=
  List.foldl_append

theorem registerAll_concat (table : RuleTable) (l : List Registration) (r : Registration) :
    table.registerAll (l ++ [r]) = (table.registerAll l).insert r.kind r.mode r.rule :=
  registerAll_append table l [r]

def enterModes (present : Option (List (TargetMode × Rule))) (modes : List (TargetMode × Rule)) :
    List (TargetMode × Rule) :=
  enter (fun _ rule ↦ rule) (present.getD []) modes

theorem rules_extend (a b : RuleTable) : (a.extend b).rules = enter enterModes a.rules b.rules :=
  rfl

theorem contains_extend (a b : RuleTable) (kind : String) :
    (a.extend b).contains kind = (a.contains kind || b.contains kind) := by
  rw [Bool.eq_iff_iff, Bool.or_eq_true]
  simp only [contains, isSome_lookup_iff]
  rw [rules_extend, mem_keys_enter]

/-- Every kind is there once and has some rules, one for each of its modes. -/
structure IsOrdered (table : RuleTable) : Prop where
  nodup : (table.rules.map Prod.fst).Nodup
  modes : ∀ kind modes, table.rules.lookup kind = some modes →
    (modes.map Prod.fst).Nodup ∧ modes ≠ []

theorem isOrdered_empty : IsOrdered {} where
  nodup := List.nodup_nil
  modes := nofun

theorem IsOrdered.insert (h : table.IsOrdered) (kind : String) (mode : TargetMode) (rule : Rule) :
    (table.insert kind mode rule).IsOrdered where
  nodup := nodup_keys_alter _ h.nodup
  modes other modes hlookup := by
    rw [RuleTable.insert] at hlookup
    by_cases hkind : other = kind
    · subst hkind
      rw [lookup_alter_self, Option.some.injEq] at hlookup
      subst hlookup
      have hpresent : (((table.rules.lookup other).getD []).map Prod.fst).Nodup := by
        cases hmodes : table.rules.lookup other with
        | none => exact List.nodup_nil
        | some present => exact (h.modes other present hmodes).1
      refine ⟨nodup_keys_alter _ hpresent, fun hnil ↦ ?_⟩
      have hrule := lookup_alter_self mode (fun _ ↦ rule) ((table.rules.lookup other).getD [])
      rw [hnil] at hrule
      cases hrule
    · rw [lookup_alter_of_ne hkind] at hlookup
      exact h.modes other modes hlookup

theorem isOrdered_registerAll (l : List Registration) :
    (({} : RuleTable).registerAll l).IsOrdered := by
  induction l using List.reverseRecOn with
  | nil => exact isOrdered_empty
  | append_singleton l r ih =>
    rw [registerAll_concat]
    exact ih.insert r.kind r.mode r.rule

/-- A rule that was entered last into the second table is entered last by the extension. -/
theorem extend_insert (a : RuleTable) (hb : b.IsOrdered) (kind : String) (mode : TargetMode)
    (rule : Rule) : a.extend (b.insert kind mode rule) = (a.extend b).insert kind mode rule := by
  have hrules : (a.extend (b.insert kind mode rule)).rules =
      ((a.extend b).insert kind mode rule).rules := by
    rw [rules_extend, RuleTable.insert, RuleTable.insert, rules_extend]
    refine enter_alter hb.nodup (fun present ↦ rfl) fun present modes hmodes ↦ ?_
    have hnodup := (hb.modes kind modes (lookup_eq_some_of_mem hb.nodup hmodes)).1
    exact enter_alter hnodup (fun _ ↦ rfl) fun _ _ _ ↦ rfl
  exact congrArg RuleTable.mk hrules

theorem extend_registerAll (a : RuleTable) (l : List Registration) :
    a.extend (({} : RuleTable).registerAll l) = a.registerAll l := by
  induction l using List.reverseRecOn with
  | nil => rfl
  | append_singleton l r ih =>
    rw [registerAll_concat, registerAll_concat, ← ih]
    exact extend_insert a (isOrdered_registerAll l) r.kind r.mode r.rule

/-- However a table was built, it could have been by entering rules alone. -/
theorem Built.exists_eq_registerAll (h : Built table) :
    ∃ l, table = ({} : RuleTable).registerAll l := by
  induction h with
  | empty => exact ⟨[], rfl⟩
  | insert _ kind mode rule ih =>
    obtain ⟨l, rfl⟩ := ih
    exact ⟨l ++ [⟨kind, mode, rule⟩], (registerAll_concat {} l ⟨kind, mode, rule⟩).symm⟩
  | extend _ _ iha ihb =>
    obtain ⟨l, rfl⟩ := iha
    obtain ⟨l', rfl⟩ := ihb
    exact ⟨l ++ l', by rw [extend_registerAll, registerAll_append]⟩

theorem Built.isOrdered (h : Built table) : table.IsOrdered := by
  obtain ⟨l, rfl⟩ := h.exists_eq_registerAll
  exact isOrdered_registerAll l

theorem rules_registerAll_kind {modes : List (TargetMode × Rule)} (hne : modes ≠ [])
    (a : RuleTable) (kind : String) :
    (a.registerAll (modes.map fun (mode, rule) ↦ ⟨kind, mode, rule⟩)).rules =
      alter kind (enterModes · modes) a.rules := by
  induction modes generalizing a with
  | nil => exact absurd rfl hne
  | cons first rest ih =>
    obtain ⟨mode, rule⟩ := first
    cases rest with
    | nil => rfl
    | cons second rest =>
      have hrest := ih (by simp) (a.insert kind mode rule)
      rw [RuleTable.insert, alter_alter] at hrest
      exact hrest

theorem extend_eq_registerAll (a : RuleTable) (hb : b.IsOrdered) :
    a.extend b = a.registerAll b.registrations := by
  have hmodes : ∀ entry ∈ b.rules, entry.2 ≠ [] := fun entry hentry ↦
    (hb.modes entry.1 entry.2 (lookup_eq_some_of_mem hb.nodup hentry)).2
  suffices h : (a.extend b).rules = (a.registerAll b.registrations).rules from
    congrArg RuleTable.mk h
  rw [rules_extend, registrations]
  generalize b.rules = entries at hmodes ⊢
  induction entries generalizing a with
  | nil => rfl
  | cons first rest ih =>
    obtain ⟨kind, modes⟩ := first
    have hkind := rules_registerAll_kind (hmodes _ List.mem_cons_self) a kind
    rw [enter_cons, List.flatMap_cons, registerAll_append, ← hkind]
    exact ih _ fun entry hentry ↦ hmodes entry (List.mem_cons_of_mem _ hentry)

theorem extend_assoc (a : RuleTable) (hb : Built b) (hc : Built c) :
    (a.extend b).extend c = a.extend (b.extend c) := by
  obtain ⟨l, rfl⟩ := hb.exists_eq_registerAll
  obtain ⟨l', rfl⟩ := hc.exists_eq_registerAll
  calc (a.extend (({} : RuleTable).registerAll l)).extend (({} : RuleTable).registerAll l')
      = (a.registerAll l).registerAll l' := by rw [extend_registerAll, extend_registerAll]
    _ = a.registerAll (l ++ l') := (registerAll_append a l l').symm
    _ = a.extend (({} : RuleTable).registerAll (l ++ l')) := (extend_registerAll a _).symm
    _ = a.extend ((({} : RuleTable).registerAll l).extend (({} : RuleTable).registerAll l')) := by
      rw [registerAll_append, extend_registerAll _ l']

theorem empty_extend (h : Built table) : ({} : RuleTable).extend table = table := by
  obtain ⟨l, rfl⟩ := h.exists_eq_registerAll
  exact extend_registerAll {} l

theorem own?_insert (table : RuleTable) (kind : String) (mode : TargetMode) (rule : Rule) :
    (table.insert kind mode rule).own? other mode' =
      if other = kind ∧ mode' = mode then some rule else table.own? other mode' := by
  rw [own?, own?, RuleTable.insert]
  by_cases hkind : other = kind
  · subst hkind
    rw [lookup_alter_self, Option.bind_some]
    by_cases hmode : mode' = mode
    · subst hmode
      rw [lookup_alter_self, if_pos ⟨rfl, rfl⟩]
    · rw [lookup_alter_of_ne hmode, if_neg (fun h ↦ hmode h.2)]
      cases table.rules.lookup other <;> rfl
  · rw [lookup_alter_of_ne hkind, if_neg (fun h ↦ hkind h.1)]

theorem own?_registerAll (a : RuleTable) (l : List Registration) (kind : String)
    (mode : TargetMode) : (a.registerAll l).own? kind mode =
      ((({} : RuleTable).registerAll l).own? kind mode).or (a.own? kind mode) := by
  induction l using List.reverseRecOn with
  | nil => rfl
  | append_singleton l r ih =>
    rw [registerAll_concat, registerAll_concat, own?_insert, own?_insert, ih]
    split <;> rfl

theorem own?_extend (a : RuleTable) (hb : Built b) (kind : String) (mode : TargetMode) :
    (a.extend b).own? kind mode = (b.own? kind mode).or (a.own? kind mode) := by
  obtain ⟨l, rfl⟩ := hb.exists_eq_registerAll
  rw [extend_registerAll, own?_registerAll]

theorem rule?_eq (table : RuleTable) (kind : String) (mode : TargetMode) :
    table.rule? kind mode = (table.own? kind mode).or (table.own? kind .modern) := by
  cases mode with
  | modern => rw [rule?_modern, Option.or_self]
  | legacy => exact rule?_legacy

/-- To extend a table is to enter the rules of the other one, one by one and in their order, be it
the order in which they stand or one in which they once came. The rule for a mode is then looked for
in the other table first, and only afterwards the one for the modern target. -/
theorem extend_replays (ha : Built a) (hb : Built b) (hc : Built c) :
    (a.extend b = a.registerAll b.registrations ∧
      (∀ l, b = ({} : RuleTable).registerAll l → a.extend b = a.registerAll l) ∧
      (a.extend b).summary = (a.registerAll b.registrations).summary ∧
      (a.extend b).size = (a.registerAll b.registrations).size) ∧
    (a.extend b).extend c = a.extend (b.extend c) ∧
    ({} : RuleTable).extend a = a ∧ a.extend {} = a ∧
    ∀ (construct : Construct) (mode : TargetMode),
      (a.extend b).resolve? construct mode =
        ((b.own? construct.kind mode).or ((a.own? construct.kind mode).or
          ((b.own? construct.kind .modern).or (a.own? construct.kind .modern)))).map
            (· construct) := by
  have hreplay := extend_eq_registerAll a hb.isOrdered
  refine ⟨⟨hreplay, ?_, by rw [hreplay], by rw [hreplay]⟩, extend_assoc a hb hc, empty_extend ha,
    rfl, fun construct mode ↦ ?_⟩
  · rintro l rfl
    exact extend_registerAll a l
  · rw [resolve?, rule?_eq, own?_extend a hb, own?_extend a hb, Option.or_assoc]

def stock : RuleTable :=
  ((({} : RuleTable).insert "accessor" .modern fun c ↦ s!"+ (instancetype){c.argAt 0};").insert
    "accessor" .legacy fun c ↦ s!"+ (id){c.argAt 0};")

def newer : RuleTable :=
  (({} : RuleTable).insert "plain" .legacy fun c ↦ c.argAt 0).insert "accessor" .modern
    fun c ↦ s!"+ (nonnull instancetype){c.argAt 0};"

theorem extend_replays_stock : Built stock ∧ Built newer ∧
    (stock.extend newer).summary = "\x7b\"accessor\": [Modern, Legacy], \"plain\": [Legacy]\x7d" ∧
    (stock.extend newer).extend stock = stock.extend (newer.extend stock) ∧
    (stock.extend newer).resolve? ⟨"accessor", ["shared"]⟩ .legacy = some "+ (id)shared;" := by
  have hstock : Built stock := (Built.empty.insert _ _ _).insert _ _ _
  have hnewer : Built newer := (Built.empty.insert _ _ _).insert _ _ _
  obtain ⟨⟨-, -, hsummary, -⟩, hassoc, -, -, hresolve⟩ := extend_replays hstock hnewer hstock
  refine ⟨hstock, hnewer, ?_, hassoc, ?_⟩
  · rw [hsummary]
    decide +kernel
  · rw [hresolve]
    rfl

end PairedSource.RuleTable
