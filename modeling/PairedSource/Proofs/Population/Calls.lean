import PairedSource.Proofs.Population.Contexts

namespace PairedSource.Population

variable {μ : Type} {naming : NamingPolicy} {config : RunConfig} {model : UnitModel μ}
  {context : UnitContext μ} {renderer : Renderer μ} {unit : SourceUnit} {fault : Fault}

inductive Call (μ : Type) where
  | start
  | member (index : Nat) (member : NamedMember μ)
  | finish

/-- Members are asked for in their order, each with its place among them. -/
def calls (context : UnitContext μ) : List (Call μ) :=
  .start :: context.members.mapIdx .member ++ [.finish]

variable (context renderer) in
def perform (unit : SourceUnit) : Call μ → Except Fault SourceUnit
  | .start => renderer.start context unit
  | .member index member => renderer.member context index member unit
  | .finish => renderer.finish context unit

def newUnit (model : UnitModel μ) : SourceUnit :=
  { key := model.key, imports := OrderedSet.insertAll ∅ model.imports }

variable (model context renderer) in
def performAll (calls : List (Call μ)) : Except Fault SourceUnit :=
  calls.foldlM (perform context renderer) (newUnit model)

theorem render_eq_performAll (hkey : context.key = model.key) :
    render renderer context model.imports = performAll model context renderer (calls context) := by
  rw [render, performAll, calls, List.cons_append, List.foldlM_cons, newUnit, hkey]
  refine bind_congr fun unit ↦ ?_
  rw [List.foldlM_append, List.mapIdx_eq_zipIdx_map, List.foldlM_map]
  refine bind_congr fun unit ↦ ?_
  rw [List.foldlM_cons]
  exact (bind_pure _).symm

variable (naming config model) in
/-- Whether all keys of a model are accepted, those of its members under names of their own. -/
structure Nameable : Prop where
  key : ∃ name, naming.typeName model.key config.namePrefix = .ok name
  member : ∀ member ∈ model.members, ∃ name, naming.memberName member.key = .ok name
  distinct : model.members.Pairwise fun first second ↦
    naming.memberName first.key ≠ naming.memberName second.key

theorem Names.nameable (h : Names naming config model context) : Nameable naming config model := by
  constructor
  · exact ⟨context.name, h.name⟩
  · rw [← h.members, List.forall_mem_map]
    exact fun member hmember ↦ ⟨member.name, h.memberName member hmember⟩
  · rw [← h.members, List.pairwise_map]
    refine (List.pairwise_map.1 h.nodup).imp_of_mem fun {first second} hfirst hsecond hne heq ↦ ?_
    change naming.memberName first.key = naming.memberName second.key at heq
    rw [h.memberName first hfirst, h.memberName second hsecond] at heq
    exact hne (Except.ok.inj heq)

theorem Nameable.not_namingFault (h : Nameable naming config model) (e : Error) :
    ¬NamingFault naming config model e := by
  intro hfault
  cases hfault with
  | key hreason =>
    obtain ⟨name, hname⟩ := h.key
    rw [hreason] at hname
    cases hname
  | @member _ before after member named _ _ hmembers hbefore hnamed hfault =>
    have hdistinct := h.distinct
    rw [hmembers, List.pairwise_append] at hdistinct
    cases hfault with
    | rejected hreason =>
      obtain ⟨name, hname⟩ := h.member member (by rw [hmembers]; simp)
      rw [hreason] at hname
      cases hname
    | @repeated first hfirst hname =>
      have hmem : first.toMember ∈ before := hbefore ▸ List.mem_map_of_mem hfirst
      refine hdistinct.2.2 _ hmem member List.mem_cons_self ?_
      exact (hnamed.memberName first hfirst).trans hname.symm

theorem nameable_iff : Nameable naming config model ↔ ∀ e, ¬NamingFault naming config model e := by
  constructor
  · exact Nameable.not_namingFault
  · intro h
    cases hcontext : Population.context naming config model with
    | ok context => exact (context_eq_ok_iff.1 hcontext).1.nameable
    | error e => exact absurd (context_eq_error_iff.1 hcontext) (h e)

variable (naming config model renderer) in
inductive CallFault : Fault → Prop
  | intro {context : UnitContext μ} {before after : List (Call μ)} {call : Call μ}
    {unit : SourceUnit} {fault : Fault} (hnames : Names naming config model context)
    (hconfig : context.config = config) (hcalls : calls context = before ++ call :: after)
    (hbefore : performAll model context renderer before = .ok unit)
    (h : perform context renderer unit call = .error fault) : CallFault fault

variable (naming config model renderer) in
inductive UnitFault : Fault → Prop
  | naming {e : Error} (h : NamingFault naming config model e) : UnitFault (.error e)
  | call {fault : Fault} (h : CallFault naming config model renderer fault) : UnitFault fault

variable (naming config model renderer) in
/-- A unit that comes out of the calls for a context of its model. -/
inductive IsFilled (unit : SourceUnit) : Prop
  | intro {context : UnitContext μ} (hnames : Names naming config model context)
    (hconfig : context.config = config)
    (h : performAll model context renderer (calls context) = .ok unit) : IsFilled unit

theorem populateUnit_eq_ok_iff : populateUnit naming renderer config model = .ok unit ↔
    IsFilled naming config model renderer unit := by
  rw [populateUnit, Except.bind_eq_ok_iff]
  constructor
  · intro h
    obtain ⟨context, hcontext, hunit⟩ := h
    obtain ⟨hnames, hconfig⟩ := context_eq_ok_iff.1 (Except.mapError_eq_ok_iff.1 hcontext)
    rw [render_eq_performAll hnames.key] at hunit
    exact .intro hnames hconfig hunit
  · intro h
    obtain @⟨context, hnames, hconfig, hunit⟩ := h
    refine ⟨context, Except.mapError_eq_ok_iff.2 (context_eq_ok_iff.2 ⟨hnames, hconfig⟩), ?_⟩
    rwa [render_eq_performAll hnames.key]

theorem populateUnit_eq_error_iff : populateUnit naming renderer config model = .error fault ↔
    UnitFault naming config model renderer fault := by
  rw [populateUnit, Except.bind_eq_error_iff, Except.mapError_eq_error_iff]
  constructor
  · intro h
    rcases h with ⟨e, he, rfl⟩ | ⟨context, hcontext, h⟩
    · exact .naming (context_eq_error_iff.1 he)
    · obtain ⟨hnames, hconfig⟩ := context_eq_ok_iff.1 (Except.mapError_eq_ok_iff.1 hcontext)
      rw [render_eq_performAll hnames.key, performAll, Except.foldlM_eq_error_iff] at h
      obtain ⟨before, call, after, unit, hcalls, hbefore, h⟩ := h
      exact .call (.intro hnames hconfig hcalls hbefore h)
  · intro h
    cases h with
    | naming h => exact .inl ⟨_, context_eq_error_iff.2 h, rfl⟩
    | call h =>
      obtain @⟨context, before, after, call, unit, _, hnames, hconfig, hcalls, hbefore, h⟩ := h
      refine .inr ⟨context, ?_, ?_⟩
      · exact Except.mapError_eq_ok_iff.2 (context_eq_ok_iff.2 ⟨hnames, hconfig⟩)
      · rw [render_eq_performAll hnames.key, performAll, Except.foldlM_eq_error_iff]
        exact ⟨before, call, after, unit, hcalls, hbefore, h⟩

theorem exists_populateUnit_eq_ok_iff :
    (∃ unit, populateUnit naming renderer config model = .ok unit) ↔
      Nameable naming config model ∧ ∀ fault, ¬CallFault naming config model renderer fault := by
  constructor
  · intro h
    obtain ⟨unit, hunit⟩ := h
    have hfault : ∀ fault, ¬UnitFault naming config model renderer fault := by
      intro fault h
      rw [populateUnit_eq_error_iff.2 h] at hunit
      cases hunit
    obtain ⟨hnames, -⟩ := populateUnit_eq_ok_iff.1 hunit
    exact ⟨hnames.nameable, fun fault h ↦ hfault fault (.call h)⟩
  · intro h
    obtain ⟨hnameable, hcalls⟩ := h
    cases hunit : populateUnit naming renderer config model with
    | ok unit => exact ⟨unit, rfl⟩
    | error fault =>
      cases populateUnit_eq_error_iff.1 hunit with
      | naming h => exact absurd h (hnameable.not_namingFault _)
      | call h => exact absurd h (hcalls fault)

end PairedSource.Population
